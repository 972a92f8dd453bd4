import ClusterConsole.Proofs.Form.Editing

/-! Which forms a guard validates. A guard remembers identifiers and a submission gets at the first
form with one. The form that it gets at is therefore validated if it was to be validated when the
guard was installed, and also if it was not and a later form with its identifier was. No form that
came after the guard is ever validated, for the ones before it with its identifier come first. -/

namespace ClusterConsole

namespace Document

variable {d d₀ : Document} {id : FormId} {f f₀ : Form} {i k : Nat}
  {es : List (FormGuard × Edit)}

/-! ### Tagged forms -/

/-- The form at a position is to be validated. -/
def IsTagged (d : Document) (i : Nat) : Prop :=
  ∃ f, d.forms[i]? = some f ∧ needsValidation ∈ f.classes

/-- The form at a position need not be validated, but a later one with its identifier has to be. -/
def HasTaggedNamesake (d : Document) (i : Nat) : Prop :=
  ∃ f k f', d.forms[i]? = some f ∧ needsValidation ∉ f.classes ∧ i < k ∧
    d.forms[k]? = some f' ∧ f'.id = f.id ∧ needsValidation ∈ f'.classes

theorem HasTaggedNamesake.not_isTagged (h : d.HasTaggedNamesake i) : ¬ d.IsTagged i := by
  obtain ⟨f, -, -, hf, hno, -⟩ := h
  rintro ⟨f₁, hf₁, hmem⟩
  obtain rfl : f = f₁ := Option.some.inj (hf.symm.trans hf₁)
  exact hno hmem

/-- There are no namesakes where no identifier comes twice. -/
theorem not_hasTaggedNamesake (h : (d.forms.map Form.id).Nodup) (i : Nat) :
    ¬ d.HasTaggedNamesake i := by
  rintro ⟨f, k, f', hf, -, hik, hf', hid, -⟩
  have hat : (d.forms.map Form.id)[i]? = (d.forms.map Form.id)[k]? := by
    rw [List.getElem?_map, List.getElem?_map, hf, hf', Option.map_some, Option.map_some, hid]
  have hlt : k < (d.forms.map Form.id).length := by
    rw [List.length_map]
    exact (List.getElem?_eq_some_iff.1 hf').1
  exact List.nodup_iff_getElem?_ne_getElem?.1 h i k hik hlt hat

theorem lt_of_tagged (h : d.IsTagged i ∨ d.HasTaggedNamesake i) : i < d.forms.length := by
  rcases h with ⟨f, hf, -⟩ | ⟨f, -, -, hf, -⟩
  · exact (List.getElem?_eq_some_iff.1 hf).1
  · exact (List.getElem?_eq_some_iff.1 hf).1

/-! ### Guarded forms -/

/-- The first form with an identifier had it from the start if it was there at all. -/
theorem First.id_before (h : (d₀.after es).First id i f) (hf₀ : d₀.forms[i]? = some f₀) :
    f₀.id = id := by
  obtain ⟨f', hf', hid, -⟩ := exists_after hf₀ es
  obtain rfl : f = f' := Option.some.inj (h.here.symm.trans hf')
  exact hid.symm.trans h.id_eq

/-- No form that was there with the identifier comes before the first one. -/
theorem First.le (h : (d₀.after es).First id i f) (hf₀ : d₀.forms[k]? = some f₀)
    (hid : f₀.id = id) : i ≤ k := by
  obtain ⟨f', hf', hid', -⟩ := exists_after hf₀ es
  refine Nat.le_of_not_lt fun hlt => ?_
  have hother : (f'.id == id) = false := h.before k f' hlt hf'
  simp [hid', hid] at hother

/-- The form that a submission gets at is guarded if it was tagged, or a namesake of it was. -/
theorem First.guards_iff (h : (d₀.after es).First id i f) :
    (FormGuard.install d₀).guards id = true ↔ d₀.IsTagged i ∨ d₀.HasTaggedNamesake i := by
  rw [FormGuard.guards_install]
  constructor
  · -- The guard has only the identifier, so that the form it has it from may come later.
    rintro ⟨f', hf', hid, hmem⟩
    obtain ⟨k, hk⟩ := List.mem_iff_getElem?.1 hf'
    rcases Nat.eq_or_lt_of_le (h.le hk hid) with rfl | hik
    · exact .inl ⟨f', hk, hmem⟩
    · have hlt : i < d₀.forms.length := Nat.lt_trans hik (List.getElem?_eq_some_iff.1 hk).1
      have hi : d₀.forms[i]? = some d₀.forms[i] := List.getElem?_eq_getElem hlt
      by_cases htag : needsValidation ∈ d₀.forms[i].classes
      · exact .inl ⟨_, hi, htag⟩
      · exact .inr ⟨_, k, f', hi, htag, hik, hk, hid.trans (h.id_before hi).symm, hmem⟩
  · rintro (⟨f₀, hf₀, hmem⟩ | ⟨f₀, k, f', hf₀, -, -, hf', hid, hmem⟩)
    · exact ⟨f₀, List.mem_of_getElem? hf₀, h.id_before hf₀, hmem⟩
    · exact ⟨f', List.mem_of_getElem? hf', hid.trans (h.id_before hf₀), hmem⟩

theorem First.submit_of_tagged (h : (d₀.after es).First id i f)
    (htag : d₀.IsTagged i ∨ d₀.HasTaggedNamesake i) :
    (⟨d₀.after es, .install d₀⟩ : Editor).apply (.submit id) =
      (⟨⟨(d₀.after es).forms.set i (f.addClass wasValidated)⟩, .install d₀⟩,
        .event (FormGuard.judge f {})) := by
  obtain rfl : f.id = id := h.id_eq
  have hguards : (FormGuard.install d₀).guards f.id = true := h.guards_iff.2 htag
  rw [Editor.submit_first h, FormGuard.submitted_of_guarded hguards]
  congr 2
  rw [FormGuard.verdict, FormGuard.judge, hguards]
  cases f.isValid <;> rfl

theorem First.submit_of_untagged (h : (d₀.after es).First id i f)
    (htag : ¬ (d₀.IsTagged i ∨ d₀.HasTaggedNamesake i)) :
    (⟨d₀.after es, .install d₀⟩ : Editor).apply (.submit id) =
      (⟨d₀.after es, .install d₀⟩, .event {}) := by
  obtain rfl : f.id = id := h.id_eq
  have hguards : (FormGuard.install d₀).guards f.id = false :=
    Bool.eq_false_iff.2 fun hyes => htag (h.guards_iff.1 hyes)
  have hset : (d₀.after es).forms.set i f = (d₀.after es).forms := by
    obtain ⟨hlt, rfl⟩ := List.getElem?_eq_some_iff.1 h.here
    exact List.set_getElem_self hlt
  rw [Editor.submit_first h, FormGuard.submitted_of_unguarded hguards, hset, FormGuard.verdict,
    hguards]
  rfl

/-! ### The law -/

/-- Somebody other than a submission marked the form at a position. -/
def MarkedByHand (d₀ : Document) (es : List (FormGuard × Edit)) (i : Nat) : Prop :=
  d₀.IsMarked i ∨ ∃ pre g e post, es = pre ++ (g, e) :: post ∧ (∀ id, e ≠ .submit id) ∧
    (d₀.after pre).Marks g i e

/-- What the guard that is installed on a document does there, however it is edited later. -/
structure Supervised (d₀ : Document) : Prop where
  /-- A submission validates the form that it gets at if that was tagged, or a namesake of it was.
  It is stopped exactly if the form is not valid, and no other form changes. -/
  validates : ∀ (es : List (FormGuard × Edit)) (id : FormId) (i : Nat) (f : Form),
    (d₀.after es).First id i f → d₀.IsTagged i ∨ d₀.HasTaggedNamesake i →
    ∃ event, (⟨d₀.after es, .install d₀⟩ : Editor).apply (.submit id) =
        (⟨⟨(d₀.after es).forms.set i (f.addClass wasValidated)⟩, .install d₀⟩, .event event) ∧
      (event.defaultPrevented = true ↔ f.Invalid) ∧ (event.propagationStopped = true ↔ f.Invalid)
  /-- Any other submission is let through, and changes nothing. -/
  passes : ∀ (es : List (FormGuard × Edit)) (id : FormId) (i : Nat) (f : Form),
    (d₀.after es).First id i f → ¬ (d₀.IsTagged i ∨ d₀.HasTaggedNamesake i) →
    (⟨d₀.after es, .install d₀⟩ : Editor).apply (.submit id) =
      (⟨d₀.after es, .install d₀⟩, .event {})
  /-- A form that came after the guard was not tagged, nor was a namesake of it. -/
  unborn : ∀ i, d₀.forms.length ≤ i → ¬ (d₀.IsTagged i ∨ d₀.HasTaggedNamesake i)
  /-- A form that has a tagged namesake was itself not tagged. -/
  stray : ∀ i, d₀.HasTaggedNamesake i → ¬ d₀.IsTagged i
  /-- Where no identifier came twice the tagged forms are all that is validated. -/
  distinct : (d₀.forms.map Form.id).Nodup → ∀ i, ¬ d₀.HasTaggedNamesake i
  /-- Over a whole run of edits under this guard no submission marks any other form. -/
  unmarked : ∀ (es : List (FormGuard × Edit)) (i : Nat),
    (∀ g id, (g, .submit id) ∈ es → g = .install d₀) →
    ¬ (d₀.IsTagged i ∨ d₀.HasTaggedNamesake i) →
    ((d₀.after es).IsMarked i ↔ d₀.MarkedByHand es i)

theorem isMarked_iff_byHand (hguard : ∀ g id, (g, .submit id) ∈ es → g = .install d₀)
    (htag : ¬ (d₀.IsTagged i ∨ d₀.HasTaggedNamesake i)) :
    (d₀.after es).IsMarked i ↔ d₀.MarkedByHand es i := by
  rw [isMarked_after]
  refine or_congr_right ⟨?_, ?_⟩
  · rintro ⟨pre, g, e, post, hsplit, hmarks⟩
    refine ⟨pre, g, e, post, hsplit, ?_, hmarks⟩
    rintro id rfl
    obtain ⟨hguards, f, hfirst⟩ := hmarks
    obtain rfl : g = .install d₀ := hguard g id (by simp [hsplit])
    exact htag (hfirst.guards_iff.1 hguards)
  · rintro ⟨pre, g, e, post, hsplit, -, hmarks⟩
    exact ⟨pre, g, e, post, hsplit, hmarks⟩

/-- Every document obeys the law of the guard that is installed on it. -/
theorem supervised_install (d₀ : Document) : d₀.Supervised := by
  constructor
  case validates =>
    intro es id i f hfirst htag
    refine ⟨_, hfirst.submit_of_tagged htag, ?_, ?_⟩
    · simpa using (FormGuard.judge_flags f {}).1
    · simpa using (FormGuard.judge_flags f {}).2
  case passes => exact fun es id i f hfirst htag => hfirst.submit_of_untagged htag
  case unborn => exact fun i hle htag => absurd (lt_of_tagged htag) (Nat.not_lt.2 hle)
  case stray => exact fun i h => h.not_isTagged
  case distinct => exact not_hasTaggedNamesake
  case unmarked => exact fun es i hguard htag => isMarked_iff_byHand hguard htag

/-- A form that was never tagged is stopped and marked if a later one has its identifier. -/
example :
    let empty : Field := { name := "q", value := "", constraints := [.required] }
    let d : Document := ⟨[{ id := ⟨"search"⟩, fields := [empty] },
      { id := ⟨"search"⟩, classes := [needsValidation], fields := [empty] }]⟩
    let s := (⟨d, .install d⟩ : Editor).apply (.submit ⟨"search"⟩)
    s.2 = .event ⟨true, true⟩ ∧
      s.1.document.forms.map Form.classes = [[wasValidated], [needsValidation]] := by
  decide

end Document

end ClusterConsole
