import ClusterConsole.Proofs.Text.Percent
import ClusterConsole.Url.Segments

/-! Paths as they are printed. Resolving a path leaves segments without separators, without
anything that is escaped in a path, and without dots that would lead elsewhere; and such segments,
printed and resolved again, are what they were. -/

namespace ClusterConsole.Segments

variable {s t segment : List Char} {done segments : List (List Char)} {run : Runs} {c : Char}
  {scheme : List Char}

/-! ### Splitting -/

theorem mem_of_splitOnP {p : Char → Bool} (hpart : t ∈ s.splitOnP p) (hc : c ∈ t) :
    c ∈ s ∧ p c = false := by
  induction s generalizing t with
  | nil =>
    rw [List.splitOnP_nil, List.mem_singleton] at hpart
    simp [hpart] at hc
  | cons x s ih =>
    rw [List.splitOnP_cons_eq_if_modifyHead] at hpart
    split at hpart
    · rcases List.mem_cons.1 hpart with rfl | hpart
      · cases hc
      · obtain ⟨hmem, hno⟩ := ih hpart hc
        exact ⟨List.mem_cons_of_mem x hmem, hno⟩
    · next hx =>
      cases hparts : s.splitOnP p with
      | nil => exact absurd hparts (List.splitOnP_ne_nil p s)
      | cons first rest =>
        rw [hparts] at ih hpart
        rcases List.mem_cons.1 hpart with rfl | hpart
        · rcases List.mem_cons.1 hc with rfl | hc
          · exact ⟨List.mem_cons_self, eq_false_of_ne_true hx⟩
          · obtain ⟨hmem, hno⟩ := ih List.mem_cons_self hc
            exact ⟨List.mem_cons_of_mem x hmem, hno⟩
        · obtain ⟨hmem, hno⟩ := ih (List.mem_cons_of_mem first hpart) hc
          exact ⟨List.mem_cons_of_mem x hmem, hno⟩

theorem keepsEscapes_inPath : Percent.KeepsEscapes Percent.inPath := by decide

/-- No escape holds a separator. -/
theorem keepsEscapes_separator : Percent.KeepsEscapes (isSeparator true) := by decide

/-- A segment of a text holds no separators and nothing that is escaped in a path. -/
theorem clear_of_split (h : run ∈ split true s) :
    Percent.Clear Percent.inPath run.flatten ∧ Percent.Clear (isSeparator true) run.flatten := by
  obtain ⟨text, htext, rfl⟩ := List.mem_map.1 h
  have heach (c : Char)
      (hc : c ∈ ((text.splitOnP isBreak).map (Percent.encode Percent.inPath)).flatten) :
      Percent.InEscape c ∨ c ∈ text ∧ Percent.inPath c = false := by
    obtain ⟨part, hpart, hmem⟩ := List.mem_flatten.1 hc
    obtain ⟨plain, hplain, rfl⟩ := List.mem_map.1 hpart
    rcases Percent.mem_encode hmem with hescape | ⟨hin, hno⟩
    · exact .inl hescape
    · exact .inr ⟨(mem_of_splitOnP hplain hin).1, hno⟩
  constructor
  · intro c hc
    rcases heach c hc with hescape | ⟨-, hno⟩
    · exact keepsEscapes_inPath.of_inEscape hescape
    · exact hno
  · intro c hc
    rcases heach c hc with hescape | ⟨hin, -⟩
    · exact keepsEscapes_separator.of_inEscape hescape
    · exact (mem_of_splitOnP htext hin).2

/-! ### Plain segments -/

/-- A segment as it is printed. -/
structure IsPlain (s : List Char) : Prop where
  clear : Percent.Clear Percent.inPath s
  whole : Percent.Clear (isSeparator true) s
  single : isSingleDot s = false
  double : isDoubleDot s = false

theorem isPlain_nil : IsPlain [] := ⟨by simp [Percent.Clear], by simp [Percent.Clear], rfl, rfl⟩

/-- All segments of a path are plain. -/
def Plain (segments : List (List Char)) : Prop := ∀ s ∈ segments, IsPlain s

theorem place_eq (done : List (List Char)) (run : Runs) : place false done run = [run.flatten] := by
  simp [place, opensDrive]

theorem plain_pop (h : Plain done) : Plain (pop done) := by
  unfold pop
  split
  · split
    · exact h
    · exact fun s hs => h s ((List.dropLast_sublist done).mem hs)
  · exact nofun

theorem plain_step (h : Plain done) (hclear : Percent.Clear Percent.inPath run.flatten)
    (hwhole : Percent.Clear (isSeparator true) run.flatten) : Plain (step false done run) := by
  unfold step
  split
  · exact plain_pop h
  · next hdouble =>
    split
    · exact h
    · next hsingle =>
      rw [place_eq]
      refine List.forall_mem_append.2 ⟨h, ?_⟩
      simpa using ⟨hclear, hwhole, eq_false_of_ne_true hsingle, eq_false_of_ne_true hdouble⟩

theorem plain_finish (h : Plain done) (hclear : Percent.Clear Percent.inPath run.flatten)
    (hwhole : Percent.Clear (isSeparator true) run.flatten) :
    Plain (finish false done run) ∧ finish false done run ≠ [] := by
  have hstep := plain_step h hclear hwhole
  unfold finish
  split
  · exact ⟨List.forall_mem_append.2 ⟨hstep, by simpa using isPlain_nil⟩, by simp⟩
  · next hno =>
    obtain ⟨hdouble, hsingle⟩ :
        isDoubleDot run.flatten = false ∧ isSingleDot run.flatten = false := by
      simpa using hno
    refine ⟨hstep, ?_⟩
    simp [step, hdouble, hsingle, place_eq]

theorem plain_append (h : Plain done) {runs : List Runs}
    (hruns : ∀ run ∈ runs, Percent.Clear Percent.inPath run.flatten ∧
      Percent.Clear (isSeparator true) run.flatten) (hne : runs ≠ []) :
    Plain (append false done runs) ∧ append false done runs ≠ [] := by
  fun_induction append false done runs with
  | case1 done => exact absurd rfl hne
  | case2 done last =>
    obtain ⟨hclear, hwhole⟩ := hruns last List.mem_cons_self
    exact plain_finish h hclear hwhole
  | case3 done segment next rest ih =>
    obtain ⟨hclear, hwhole⟩ := hruns segment List.mem_cons_self
    refine ih (plain_step h hclear hwhole) (fun run hrun => ?_) (by simp)
    exact hruns run (List.mem_cons_of_mem segment hrun)

/-- A path that is resolved is plain, and has a segment at least. -/
theorem plain_resolve (hspecial : isSpecialScheme scheme = true)
    (hfile : isFileScheme scheme = false) (h : Plain done) (s : List Char) :
    Plain (resolve scheme done s) ∧ resolve scheme done s ≠ [] := by
  simp only [resolve, hspecial, hfile, Bool.false_eq_true, if_false]
  refine plain_append h (fun run hrun => clear_of_split hrun) ?_
  simp [split, List.splitOnP_ne_nil]

/-! ### Printed segments -/

theorem blank_of_isBreak (h : isBreak c = true) : c ≤ ' ' := by
  simp only [isBreak, Bool.or_eq_true, beq_iff_eq] at h
  rcases h with (rfl | rfl) | rfl
  all_goals decide

theorem not_break_of_clear (h : Percent.Clear Percent.inPath s) : Percent.Clear isBreak s := by
  intro c hc
  refine eq_false_of_ne_true fun hbreak => ?_
  have hin := h c hc
  rw [Percent.inPath_of_blank (blank_of_isBreak hbreak)] at hin
  cases hin

theorem IsPlain.runs (h : IsPlain s) :
    (s.splitOnP isBreak).map (Percent.encode Percent.inPath) = [s] := by
  rw [List.splitOnP_eq_singleton (not_break_of_clear h.clear), List.map_singleton,
    Percent.encode_of_clear h.clear]

/-- Printed segments are read one by one. -/
theorem split_renderSegments (h : Plain (segment :: segments)) :
    split true (segment ++ UrlPath.renderSegments segments) =
      (segment :: segments).map ([·]) := by
  induction segments generalizing segment with
  | nil =>
    have hplain := h segment List.mem_cons_self
    simp [split, UrlPath.renderSegments, List.splitOnP_eq_singleton hplain.whole, hplain.runs]
  | cons next rest ih =>
    obtain ⟨hplain, hrest⟩ := List.forall_mem_cons.1 h
    have hprinted : UrlPath.renderSegments (next :: rest) =
        '/' :: (next ++ UrlPath.renderSegments rest) := by
      simp [UrlPath.renderSegments]
    rw [hprinted, split, List.splitOnP_append_cons_of_forall_mem hplain.whole '/' (by rfl),
      List.map_cons, hplain.runs, List.map_cons]
    exact congrArg ([segment] :: ·) (ih hrest)

theorem append_plain (h : Plain segments) (done : List (List Char)) :
    append false done (segments.map ([·])) = done ++ segments := by
  induction segments generalizing done with
  | nil => simp [append]
  | cons segment segments ih =>
    obtain ⟨hplain, hrest⟩ := List.forall_mem_cons.1 h
    have hstep (done : List (List Char)) : step false done [segment] = done ++ [segment] := by
      simp [step, hplain.single, hplain.double, place_eq]
    cases segments with
    | nil => simp [append, finish, hplain.single, hplain.double, hstep]
    | cons next rest =>
      have hnext := ih hrest (done ++ [segment])
      rw [List.map_cons] at hnext
      rw [List.map_cons, List.map_cons, append, hstep, hnext, List.append_assoc]
      rfl

/-- A plain path that is printed is resolved to itself. -/
theorem resolve_renderSegments (hspecial : isSpecialScheme scheme = true)
    (hfile : isFileScheme scheme = false) (h : Plain (segment :: segments)) :
    resolve scheme [] (segment ++ UrlPath.renderSegments segments) = segment :: segments := by
  simp only [resolve, hspecial, hfile, Bool.false_eq_true, if_false, split_renderSegments h]
  exact append_plain h []

end ClusterConsole.Segments
