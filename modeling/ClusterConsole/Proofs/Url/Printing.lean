import ClusterConsole.Proofs.Url.Authority
import ClusterConsole.Proofs.Url.Origin
import ClusterConsole.Proofs.Url.Path

/-! URLs that are printed and read again. Whatever reference led to it, a URL with the scheme of a
server is plain: its authority and its path are, and its query and its fragment are encoded. A
plain URL that is printed and joined to any other is the URL it was. -/

namespace ClusterConsole.Url

open Percent (Clear)

variable {base u : Url} {scheme s : List Char} {r : Reference} {segments : List (List Char)}
  {c : Char}

/-! ### Plain URLs -/

/-- Whether a scheme speaks to a server. -/
def isServerScheme (scheme : List Char) : Bool := (defaultPort? scheme).isSome

theorem special_of_server (h : isServerScheme scheme = true) : isSpecialScheme scheme = true := by
  rw [isSpecialScheme]
  exact Bool.or_eq_true_iff.2 (.inr h)

theorem not_file_of_server (h : isServerScheme scheme = true) : isFileScheme scheme = false := by
  refine eq_false_of_ne_true fun hfile => ?_
  rw [isFileScheme_iff.1 hfile] at h
  cases h

/-- A URL as it is printed. -/
structure Plain (u : Url) : Prop where
  scheme : isServerScheme u.scheme = true
  authority : ∃ a, u.authority = some a ∧ a.Plain u.scheme
  path : ∃ segments, u.path = .rooted segments ∧ segments ≠ [] ∧ Segments.Plain segments
  query : ∀ q ∈ u.query, Clear Percent.inSpecialQuery q
  fragment : ∀ f ∈ u.fragment, Clear Percent.inFragment f

/-- With the scheme of a server the URL is plain. -/
def Settled (u : Url) : Prop := isServerScheme u.scheme = true → u.Plain

theorem settled_of_not_server (h : isServerScheme u.scheme = false) : u.Settled :=
  fun hserver => absurd hserver (by simp [h])

/-! ### Where a reference leads -/

theorem keepsEscapes_inSpecialQuery : Percent.KeepsEscapes Percent.inSpecialQuery := by decide

theorem keepsEscapes_inFragment : Percent.KeepsEscapes Percent.inFragment := by decide

theorem clear_encodeQuery (hserver : isServerScheme scheme = true) (s : List Char) :
    Clear Percent.inSpecialQuery (encodeQuery scheme s) := by
  rw [encodeQuery, if_pos (special_of_server hserver)]
  exact Percent.clear_encode keepsEscapes_inSpecialQuery s

theorem clear_encodeFragment (s : List Char) : Clear Percent.inFragment (encodeFragment s) :=
  Percent.clear_encode keepsEscapes_inFragment s

theorem settled_build {authority : Option Authority}
    (hauthority : isServerScheme scheme = true → ∃ a, authority = some a ∧ a.Plain scheme)
    (hpath : isServerScheme scheme = true → segments ≠ [] ∧ Segments.Plain segments) :
    (build scheme authority (.rooted segments) r).Settled := by
  intro hserver
  refine ⟨hserver, hauthority hserver, ⟨segments, rfl, hpath hserver⟩, ?_, ?_⟩
  · rintro q hq
    obtain ⟨text, -, rfl⟩ := Option.map_eq_some_iff.1 hq
    exact clear_encodeQuery hserver text
  · rintro f hf
    obtain ⟨text, -, rfl⟩ := Option.map_eq_some_iff.1 hf
    exact clear_encodeFragment text

theorem Settled.keepPath (h : base.Settled) (r : Reference) : (keepPath base r).Settled := by
  intro hserver
  have hplain := h hserver
  refine ⟨hserver, hplain.authority, hplain.path, ?_, ?_⟩
  · intro q hq
    simp only [Url.keepPath] at hq
    cases hquery : r.query with
    | none =>
      rw [hquery] at hq
      exact hplain.query q hq
    | some text =>
      rw [hquery] at hq
      cases hq
      exact clear_encodeQuery hserver text
  · rintro f hf
    obtain ⟨text, -, rfl⟩ := Option.map_eq_some_iff.1 hf
    exact clear_encodeFragment text

theorem plain_segments (hserver : isServerScheme scheme = true) {done : List (List Char)}
    (h : Segments.Plain done) (s : List Char) :
    Segments.resolve scheme done s ≠ [] ∧ Segments.Plain (Segments.resolve scheme done s) :=
  (Segments.plain_resolve (special_of_server hserver) (not_file_of_server hserver) h s).symm

theorem plain_nil : Segments.Plain [] := fun _ hs => absurd hs List.not_mem_nil

theorem plain_pathAfterAuthority (hserver : isServerScheme scheme = true) (s : List Char) :
    pathAfterAuthority scheme s ≠ [] ∧ Segments.Plain (pathAfterAuthority scheme s) := by
  have htext : ∃ text, pathText? scheme s = some text := by
    unfold pathText?
    split
    · exact ⟨[], if_pos (special_of_server hserver)⟩
    · split
      · exact ⟨_, rfl⟩
      · exact ⟨_, rfl⟩
  obtain ⟨text, htext⟩ := htext
  rw [pathAfterAuthority, htext]
  exact plain_segments hserver plain_nil text

theorem Plain.dropLast (h : base.Plain) : Segments.Plain (baseSegments base).dropLast := by
  obtain ⟨segments, hpath, -, hplain⟩ := h.path
  rw [baseSegments, hpath]
  exact fun s hs => hplain s ((List.dropLast_sublist segments).mem hs)

theorem settled_withAuthority (h : withAuthority scheme s r = .ok u) : u.Settled := by
  unfold withAuthority at h
  simp only [bind, Except.bind] at h
  split at h
  · cases h
  · next read hread =>
    cases h
    refine settled_build (fun hserver => ?_) (fun hserver => ?_)
    · exact ⟨_, rfl, Authority.plain_readAuthority (special_of_server hserver) hread⟩
    · exact plain_pathAfterAuthority hserver _

theorem Settled.relative (hb : base.Settled) (h : relative base s r = .ok u) : u.Settled := by
  have hkeep : isServerScheme base.scheme = true →
      ∃ a, base.authority = some a ∧ a.Plain base.scheme :=
    fun hserver => (hb hserver).authority
  unfold Url.relative at h
  split at h
  · cases h
    exact hb.keepPath r
  · split at h
    · split at h
      · exact settled_withAuthority h
      · split at h
        · exact settled_withAuthority h
        · cases h
          exact settled_build hkeep fun hserver => plain_segments hserver plain_nil _
    · cases h
      exact settled_build hkeep fun hserver => plain_segments hserver (hb hserver).dropLast _

theorem settled_absolute {base : Option Url} (hb : ∀ b ∈ base, b.Settled)
    (h : absolute base scheme s r = .ok u) : u.Settled := by
  unfold absolute at h
  split at h
  · split at h
    · next b =>
      split at h
      · exact (hb b rfl).relative h
      · exact settled_withAuthority h
    · exact settled_withAuthority h
  · next hs =>
    have hother : isServerScheme scheme = false :=
      eq_false_of_ne_true fun hserver => hs (special_of_server hserver)
    split at h
    · exact settled_withAuthority h
    · cases h
      exact settled_of_not_server hother
    · cases h
      exact settled_of_not_server hother

/-- A file has no server. -/
theorem settled_file {base : Option Url} (hb : ∀ b ∈ base, isFileScheme b.scheme = true)
    (h : file base s r = .ok u) : u.Settled := by
  have hscheme := scheme_file (fun b hmem => isFileScheme_iff.1 (hb b hmem)) h
  exact settled_of_not_server (by rw [hscheme]; rfl)

theorem Settled.reference (hb : base.Settled) (h : reference base r = .ok u) : u.Settled := by
  unfold Url.reference at h
  split at h
  · split at h
    · cases h
      exact hb.keepPath r
    · cases h
  · split at h
    · next hfile => exact settled_file (by simpa using hfile) h
    · exact hb.relative h

theorem settled_resolve {base : Option Url} (hb : ∀ b ∈ base, b.Settled)
    (h : resolve base s = .ok u) : u.Settled := by
  unfold resolve at h
  simp only at h
  split at h
  · split at h
    · exact settled_file (fun b hmem => (Option.mem_filter_iff.1 hmem).2) h
    · exact settled_absolute hb h
  · split at h
    · next b => exact (hb b rfl).reference h
    · cases h

theorem settled_parse {s : String} (h : parse s = .ok u) : u.Settled :=
  settled_resolve (by simp) h

theorem Settled.join (hb : base.Settled) {s : String} (h : base.join s = .ok u) : u.Settled :=
  settled_resolve (by simpa using hb) h

/-! ### Texts without blanks -/

theorem trim_of_clear (h : Clear isBlank s) : trim s = s := by
  have hkeep {t : List Char} (ht : Clear isBlank t) : t.dropWhile isBlank = t := by
    cases t with
    | nil => rfl
    | cons c t => exact List.dropWhile_cons_of_neg (by simp [ht c List.mem_cons_self])
  have hreverse : Clear isBlank s.reverse := fun c hc => h c (List.mem_reverse.1 hc)
  rw [trim, hkeep h, hkeep hreverse, List.reverse_reverse]

theorem clean_of_clear (h : Clear isBlank s) : clean s = s := by
  refine List.filter_eq_self.2 fun c hc => ?_
  rw [Bool.not_eq_true']
  refine eq_false_of_ne_true fun hbreak => ?_
  exact absurd (Segments.blank_of_isBreak hbreak) (of_decide_eq_false (h c hc))

theorem cut_elim {mark : Char} (h : mark ∉ s) (rest : Option (List Char)) :
    cut mark (s ++ rest.elim [] (mark :: ·)) = (s, rest) := by
  cases rest with
  | none => rw [Option.elim_none, List.append_nil, cut_of_not_mem h]
  | some t => exact cut_append h t

/-! ### The schemes of servers -/

theorem server_cases (h : isServerScheme scheme = true) :
    scheme = "http".toList ∨ scheme = "ws".toList ∨ scheme = "https".toList ∨
      scheme = "wss".toList ∨ scheme = "ftp".toList := by
  unfold isServerScheme defaultPort? at h
  split at h
  · next hscheme => simp at hscheme; tauto
  · split at h
    · next hscheme => simp at hscheme; tauto
    · split at h
      · next hscheme => exact .inr (.inr (.inr (.inr hscheme)))
      · cases h

theorem splitScheme_append (h : isServerScheme scheme = true) (s : List Char) :
    splitScheme (scheme ++ ':' :: s) = some (scheme, s) := by
  rcases server_cases h with rfl | rfl | rfl | rfl | rfl
  all_goals rfl

theorem clear_server (h : isServerScheme scheme = true) : Clear Authority.isOutside scheme := by
  rcases server_cases h with rfl | rfl | rfl | rfl | rfl
  all_goals decide

/-- After the scheme of a server come two slashes, whatever the base. -/
theorem absolute_server (hserver : isServerScheme scheme = true) (base : Option Url)
    (hs : s.head?.any isSlash = false) :
    absolute base scheme ('/' :: '/' :: s) r = withAuthority scheme s r := by
  have hdrop : ('/' :: '/' :: s).dropWhile isSlash = s := by
    rw [List.dropWhile_cons_of_pos (by rfl), List.dropWhile_cons_of_pos (by rfl)]
    cases s with
    | nil => rfl
    | cons c s => exact List.dropWhile_cons_of_neg (by simpa using hs)
  have htwo : ¬ (('/' :: '/' :: s).takeWhile isSlash).length < 2 := by
    rw [List.takeWhile_cons_of_pos (by rfl), List.takeWhile_cons_of_pos (by rfl)]
    simp
  rw [absolute.eq_def, if_pos (special_of_server hserver), hdrop]
  cases base with
  | none => rfl
  | some b => exact if_neg fun hsame => htwo hsame.2

/-! ### Printing -/

/-- What is printed before the query. -/
def renderMain (u : Url) : List Char := u.scheme ++ ':' :: u.renderHierarchy

theorem render_eq (u : Url) : u.render = u.renderMain ++ u.renderQuery ++ u.renderFragment := rfl

/-- What ends a path, or is left out of a URL. -/
def endsPath (c : Char) : Bool := isBlank c || c == '?' || c == '#'

theorem not_endsPath_of_not_outside (h : Authority.isOutside c = false) : endsPath c = false := by
  simp only [Authority.isOutside, Bool.or_eq_false_iff] at h
  simp [endsPath, isBlank, h]

theorem not_blank_of_not_endsPath (h : endsPath c = false) : isBlank c = false := by
  simp only [endsPath, Bool.or_eq_false_iff] at h
  exact h.1.1

theorem not_endsPath_of_inPath (h : Percent.inPath c = false) : endsPath c = false := by
  have hblank : ¬ c ≤ ' ' := by
    intro hblank
    rw [Percent.inPath_of_blank hblank] at h
    cases h
  simp only [Percent.inPath, Bool.or_eq_false_iff] at h
  simp [endsPath, isBlank, hblank, h]

theorem Plain.renderHierarchy (h : u.Plain) : ∃ a segment segments, u.authority = some a ∧
    a.Plain u.scheme ∧ u.path = .rooted (segment :: segments) ∧
    Segments.Plain (segment :: segments) ∧ u.renderHierarchy =
      '/' :: '/' :: (a.render ++ UrlPath.renderSegments (segment :: segments)) := by
  obtain ⟨a, ha, hplain⟩ := h.authority
  obtain ⟨segments, hpath, hne, hsegments⟩ := h.path
  cases segments with
  | nil => exact absurd rfl hne
  | cons segment segments =>
    refine ⟨a, segment, segments, ha, hplain, hpath, hsegments, ?_⟩
    simp [Url.renderHierarchy, ha, hpath, UrlPath.render]

theorem Plain.clear_main (h : u.Plain) : Clear endsPath u.renderMain := by
  obtain ⟨a, segment, segments, -, hplain, -, hsegments, hhierarchy⟩ := h.renderHierarchy
  intro c hc
  simp only [renderMain, hhierarchy, List.mem_append, List.mem_cons] at hc
  rcases hc with hscheme | rfl | rfl | rfl | hauthority | hpath
  · exact not_endsPath_of_not_outside (clear_server h.scheme c hscheme)
  · rfl
  · rfl
  · rfl
  · exact not_endsPath_of_not_outside (hplain.clear c hauthority)
  · obtain ⟨segment', hsegment, hmem⟩ := List.mem_flatMap.1 hpath
    rcases List.mem_cons.1 hmem with rfl | hmem
    · rfl
    · exact not_endsPath_of_inPath ((hsegments _ hsegment).clear c hmem)

theorem Plain.clear_query (h : u.Plain) : Clear (fun c => isBlank c || c == '#') u.renderQuery := by
  intro c hc
  unfold renderQuery at hc
  cases hquery : u.query with
  | none => simp [hquery] at hc
  | some q =>
    rw [hquery] at hc
    rcases List.mem_cons.1 hc with rfl | hc
    · rfl
    · have hclear := h.query q hquery c hc
      have hblank : ¬ c ≤ ' ' := by
        intro hblank
        simp [Percent.inSpecialQuery, Percent.inQuery_of_blank hblank] at hclear
      simp only [Percent.inSpecialQuery, Percent.inQuery, Bool.or_eq_false_iff] at hclear
      simp [isBlank, hblank, hclear]

theorem Plain.clear_fragment (h : u.Plain) : Clear isBlank u.renderFragment := by
  intro c hc
  unfold renderFragment at hc
  cases hfragment : u.fragment with
  | none => simp [hfragment] at hc
  | some f =>
    rw [hfragment] at hc
    rcases List.mem_cons.1 hc with rfl | hc
    · rfl
    · have hclear := h.fragment f hfragment c hc
      refine decide_eq_false fun hblank => ?_
      rw [Percent.inFragment_of_blank hblank] at hclear
      cases hclear

theorem Plain.clear_render (h : u.Plain) : Clear isBlank u.render := by
  have hmain : Clear isBlank u.renderMain :=
    fun c hc => not_blank_of_not_endsPath (h.clear_main c hc)
  have hquery : Clear isBlank u.renderQuery :=
    fun c hc => (Bool.or_eq_false_iff.1 (h.clear_query c hc)).1
  rw [render_eq]
  exact List.forall_mem_append.2 ⟨List.forall_mem_append.2 ⟨hmain, hquery⟩, h.clear_fragment⟩

theorem map_clean {part : Option (List Char)} (h : ∀ s ∈ part, Clear isBlank s) :
    part.map clean = part := by
  cases part with
  | none => rfl
  | some s => rw [Option.map_some, clean_of_clear (h s rfl)]

/-- A printed URL is cut up into what it was printed from. -/
theorem Plain.ofText (h : u.Plain) :
    Reference.ofText u.render = ⟨u.renderMain, u.query, u.fragment⟩ := by
  have hhash : '#' ∉ u.renderMain ++ u.renderQuery := by
    rw [List.mem_append, not_or]
    exact ⟨h.clear_main.not_mem rfl, h.clear_query.not_mem rfl⟩
  have hmark : '?' ∉ u.renderMain := h.clear_main.not_mem rfl
  have hfragment : cut '#' u.render = (u.renderMain ++ u.renderQuery, u.fragment) :=
    cut_elim hhash u.fragment
  have hquery : cut '?' (u.renderMain ++ u.renderQuery) = (u.renderMain, u.query) :=
    cut_elim hmark u.query
  have hcleanQuery : ∀ q ∈ u.query, Clear isBlank q := fun q hq c hc =>
    h.clear_render c (by simp [render, renderQuery, Option.mem_def.1 hq, hc])
  have hcleanFragment : ∀ f ∈ u.fragment, Clear isBlank f := fun f hf c hc =>
    h.clear_render c (by simp [render, renderFragment, Option.mem_def.1 hf, hc])
  rw [Reference.ofText, trim_of_clear h.clear_render]
  simp only [hfragment, hquery, map_clean hcleanQuery, map_clean hcleanFragment]

theorem Plain.withAuthority (h : u.Plain) {a : Authority} {segment : List Char}
    (ha : u.authority = some a) (hplain : a.Plain u.scheme)
    (hpath : u.path = .rooted (segment :: segments))
    (hsegments : Segments.Plain (segment :: segments)) (main : List Char) :
    withAuthority u.scheme (a.render ++ UrlPath.renderSegments (segment :: segments))
      ⟨main, u.query, u.fragment⟩ = .ok u := by
  have hspecial := special_of_server h.scheme
  have hprinted : UrlPath.renderSegments (segment :: segments) =
      '/' :: (segment ++ UrlPath.renderSegments segments) := by simp [UrlPath.renderSegments]
  have hspan : (a.render ++ UrlPath.renderSegments (segment :: segments)).span
      (!Segments.isSeparator true ·) =
        (a.render, UrlPath.renderSegments (segment :: segments)) := by
    have hall : ∀ c ∈ a.render, (!Segments.isSeparator true c) = true := by
      intro c hc
      have hinside := hplain.clear c hc
      simp only [Authority.isOutside, Bool.or_eq_false_iff] at hinside
      simp [Segments.isSeparator, hinside]
    rw [List.span_eq_takeWhile_dropWhile, List.takeWhile_append_of_pos hall,
      List.dropWhile_append_of_pos hall, hprinted, List.takeWhile_cons_of_neg (by decide),
      List.dropWhile_cons_of_neg (by decide), List.append_nil]
  have hresolve : pathAfterAuthority u.scheme (UrlPath.renderSegments (segment :: segments)) =
      segment :: segments := by
    rw [pathAfterAuthority, hprinted, pathText?, hspecial, if_pos (by rfl), Option.elim_some]
    exact Segments.resolve_renderSegments hspecial (not_file_of_server h.scheme) hsegments
  have hquery : u.query.map (encodeQuery u.scheme) = u.query := by
    cases hq : u.query with
    | none => rfl
    | some q =>
      rw [Option.map_some, encodeQuery, if_pos hspecial, Percent.encode_of_clear (h.query q hq)]
  have hfragment : u.fragment.map encodeFragment = u.fragment := by
    cases hf : u.fragment with
    | none => rfl
    | some f => rw [Option.map_some, encodeFragment, Percent.encode_of_clear (h.fragment f hf)]
  unfold Url.withAuthority
  simp only [hspecial, hspan, hplain.readAuthority hspecial, bind, Except.bind, pure, Except.pure,
    List.nil_append, hresolve, build, hquery, hfragment, ← ha, ← hpath]

theorem Plain.resolve (h : u.Plain) (base : Option Url) : resolve base u.render = .ok u := by
  obtain ⟨a, segment, segments, ha, hplain, hpath, hsegments, hhierarchy⟩ := h.renderHierarchy
  have hclean : clean u.renderHierarchy = u.renderHierarchy := by
    refine clean_of_clear fun c hc => not_blank_of_not_endsPath (h.clear_main c ?_)
    rw [renderMain, List.mem_append, List.mem_cons]
    exact .inr (.inr hc)
  have hslash :
      (a.render ++ UrlPath.renderSegments (segment :: segments)).head?.any isSlash = false := by
    cases hrender : a.render with
    | nil => exact absurd hrender hplain.render_ne_nil
    | cons c rest =>
      have hinside := hplain.clear c (by simp [hrender])
      simp only [Authority.isOutside, Bool.or_eq_false_iff] at hinside
      simp [isSlash, hinside]
  simp only [Url.resolve, h.ofText]
  rw [renderMain, splitScheme_append h.scheme]
  simp only [not_file_of_server h.scheme, Bool.false_eq_true, if_false]
  rw [hclean, hhierarchy, absolute_server h.scheme base hslash]
  exact h.withAuthority ha hplain hpath hsegments _

/-- A plain URL that is printed and joined to any other is the URL it was. -/
theorem Plain.join (h : u.Plain) (base : Url) : base.join u.text = .ok u := by
  rw [Url.join, text, String.toList_ofList]
  exact h.resolve (some base)

end ClusterConsole.Url
