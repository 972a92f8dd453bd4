import ClusterConsole.Proofs.Form.Editing
import ClusterConsole.Proofs.Form.Validity

/-! What comes of a form whose reported failures are acted upon. A form reports each field that is
not valid by its name, and a value is set by name too, on the first field that has it. A field
that is not valid therefore stays so exactly if an earlier one has its name, and a guard stops
the form as long as there is one. -/

namespace ClusterConsole

namespace Form

variable {f : Form} {x : Field} {i : Nat} {name value : String} {values : List (String × String)}
  {v : String × String}

/-! ### Values by name -/

/-- Fields get values by their names, one after the other. -/
def setValues (f : Form) (values : List (String × String)) : Form :=
  values.foldl (fun f v => f.setValue v.1 v.2) f

theorem setValues_concat :
    f.setValues (values ++ [v]) = (f.setValues values).setValue v.1 v.2 :=
  List.foldl_append

/-- No field before the one at a position has its name. -/
def IsFirst (f : Form) (i : Nat) : Prop :=
  ∀ k < i, (f.fields.map Field.name)[k]? ≠ (f.fields.map Field.name)[i]?

/-- A look-up by name finds the fields that are the first ones. -/
theorem isFirst_iff (h : f.fields[i]? = some x) :
    f.IsFirst i ↔ FirstAt (·.name == x.name) f.fields i x := by
  simp only [IsFirst, List.getElem?_map, h, Option.map_some]
  constructor
  · intro hfirst
    refine ⟨h, by simp, fun k y hk hy => ?_⟩
    have hne := hfirst k hk
    rw [hy, Option.map_some] at hne
    simpa using hne
  · intro hfirst k hk
    cases hy : f.fields[k]? with
    | none => simp
    | some y => simpa using hfirst.before k y hk hy

theorem field?_of_isFirst (h : f.fields[i]? = some x) (hfirst : f.IsFirst i) :
    f.field? x.name = some x :=
  ((isFirst_iff h).1 hfirst).find?

theorem names_setValue (f : Form) (name value : String) :
    (f.setValue name value).fields.map Field.name = f.fields.map Field.name :=
  map_modifyFirst (f := (·.setValue value)) (fun _ => rfl) f.fields

theorem names_setValues (f : Form) (values : List (String × String)) :
    (f.setValues values).fields.map Field.name = f.fields.map Field.name := by
  induction values generalizing f with
  | nil => rfl
  | cons v values ih => exact (ih (f.setValue v.1 v.2)).trans (names_setValue f v.1 v.2)

theorem isFirst_setValues : (f.setValues values).IsFirst i ↔ f.IsFirst i := by
  simp only [IsFirst, names_setValues]

/-- A value reaches the first field with the name. -/
theorem getElem?_setValue (h : f.fields[i]? = some x) (hfirst : f.IsFirst i) (value : String) :
    (f.setValue x.name value).fields[i]? = some (x.setValue value) := by
  have hset : (f.setValue x.name value).fields = f.fields.set i (x.setValue value) :=
    ((isFirst_iff h).1 hfirst).modifyFirst_eq
  rw [hset, List.getElem?_set_self (List.getElem?_eq_some_iff.1 h).1]

/-- All other fields are left as they are. -/
theorem getElem?_setValue_of_not (h : f.fields[i]? = some x)
    (hno : ¬ (f.IsFirst i ∧ x.name = name)) (value : String) :
    (f.setValue name value).fields[i]? = some x := by
  refine getElem?_modifyFirst_of_not h fun hfirst => hno ?_
  obtain rfl : x.name = name := by simpa using hfirst.holds
  exact ⟨(isFirst_iff h).2 hfirst, rfl⟩

/-- Of several values for one name the last one stays. -/
theorem getElem?_setValues (h : f.fields[i]? = some x) (values : List (String × String)) :
    (f.IsFirst i ∧ ∃ v ∈ values, v.1 = x.name ∧
        (f.setValues values).fields[i]? = some (x.setValue v.2)) ∨
      ¬ (f.IsFirst i ∧ x.name ∈ values.map Prod.fst) ∧
        (f.setValues values).fields[i]? = some x := by
  induction values using List.reverseRecOn with
  | nil => exact .inr ⟨by simp, h⟩
  | append_singleton values v ih =>
    rw [setValues_concat]
    by_cases hv : f.IsFirst i ∧ x.name = v.1
    · -- The last value is for this field, whatever it had before.
      obtain ⟨hfirst, hname⟩ := hv
      have hfirst' : (f.setValues values).IsFirst i := isFirst_setValues.2 hfirst
      refine .inl ⟨hfirst, v, by simp, hname.symm, ?_⟩
      rw [← hname]
      rcases ih with ⟨-, w, -, -, hvalue⟩ | ⟨-, hsame⟩
      · exact getElem?_setValue hvalue hfirst' v.2
      · exact getElem?_setValue hsame hfirst' v.2
    · have hv' : ¬ ((f.setValues values).IsFirst i ∧ x.name = v.1) := by rwa [isFirst_setValues]
      rcases ih with ⟨hfirst, w, hw, hname, hvalue⟩ | ⟨hno, hsame⟩
      · exact .inl ⟨hfirst, w, by simp [hw], hname, getElem?_setValue_of_not hvalue hv' v.2⟩
      · refine .inr ⟨?_, getElem?_setValue_of_not hsame hv' v.2⟩
        rintro ⟨hfirst, hmem⟩
        rw [List.map_append, List.mem_append, List.map_singleton, List.mem_singleton] at hmem
        rcases hmem with hmem | hmem
        · exact hno ⟨hfirst, hmem⟩
        · exact hv ⟨hfirst, hmem⟩

/-! ### Repairs -/

/-- The fields that are reported, and no others, are given values that suit the field that is
found by the name. -/
structure Repairs (f : Form) (values : List (String × String)) : Prop where
  reported : ∀ name, name ∈ values.map Prod.fst ↔ name ∈ f.invalidFields.map Prod.fst
  suits : ∀ v ∈ values, ∀ x, f.field? v.1 = some x →
    (Bounds.ofConstraints x.constraints).Admits v.2

/-- The field at a position is not valid, and an earlier one has its name. -/
def Hides (f : Form) (i : Nat) : Prop :=
  ∃ x k y, f.fields[i]? = some x ∧ x.isValid = false ∧ k < i ∧ f.fields[k]? = some y ∧
    y.name = x.name

theorem hides_iff (h : f.fields[i]? = some x) :
    f.Hides i ↔ x.isValid = false ∧ ¬ f.IsFirst i := by
  constructor
  · rintro ⟨x', k, y, hx', hinvalid, hk, hy, hname⟩
    obtain rfl : x = x' := Option.some.inj (h.symm.trans hx')
    refine ⟨hinvalid, fun hfirst => hfirst k hk ?_⟩
    rw [List.getElem?_map, List.getElem?_map, hy, h, Option.map_some, Option.map_some, hname]
  · rintro ⟨hinvalid, hno⟩
    simp only [IsFirst, not_forall, not_not, List.getElem?_map, h, Option.map_some,
      Option.map_eq_some_iff] at hno
    obtain ⟨k, hk, y, hy, hname⟩ := hno
    exact ⟨x, k, y, h, hinvalid, hk, hy, hname⟩

theorem not_hides_of_nodup (h : (f.fields.map Field.name).Nodup) (i : Nat) : ¬ f.Hides i := by
  rintro ⟨x, k, y, hx, -, hk, hy, hname⟩
  have hlt : i < (f.fields.map Field.name).length := by
    rw [List.length_map]
    exact (List.getElem?_eq_some_iff.1 hx).1
  apply List.nodup_iff_getElem?_ne_getElem?.1 h k i hk hlt
  rw [List.getElem?_map, List.getElem?_map, hx, hy, Option.map_some, Option.map_some, hname]

theorem isValid_eq_false_iff_exists :
    f.isValid = false ↔ ∃ (i : Nat) (x : Field), f.fields[i]? = some x ∧ x.isValid = false := by
  simp only [isValid, List.all_eq_false, Bool.not_eq_true, List.mem_iff_getElem?]
  constructor
  · rintro ⟨x, ⟨i, hi⟩, hx⟩
    exact ⟨i, x, hi, hx⟩
  · rintro ⟨i, x, hi, hx⟩
    exact ⟨x, ⟨i, hi⟩, hx⟩

theorem mem_reported (h : f.fields[i]? = some x) (hinvalid : x.isValid = false) :
    x.name ∈ f.invalidFields.map Prod.fst := by
  obtain ⟨text, htext⟩ : ∃ text, x.message? = some text := by
    cases hmessage : x.message? with
    | some text => exact ⟨text, rfl⟩
    | none => simp [Field.isValid, hmessage] at hinvalid
  refine List.mem_map.2 ⟨(x.name, text), ?_, rfl⟩
  exact List.mem_filterMap.2 ⟨x, List.mem_of_getElem? h, by rw [htext]; rfl⟩

/-- After a repair the field at a position is not valid exactly if it was hidden, and then it is
as it was. -/
theorem Repairs.field (h : f.Repairs values) (hx : f.fields[i]? = some x) :
    ∃ y, (f.setValues values).fields[i]? = some y ∧ (y.isValid = false ↔ f.Hides i) ∧
      (f.Hides i → y = x) := by
  rw [hides_iff hx]
  rcases getElem?_setValues hx values with ⟨hfirst, v, hv, hname, hy⟩ | ⟨hno, hy⟩
  · refine ⟨_, hy, ?_, fun hhides => absurd hfirst hhides.2⟩
    have hfield : f.field? v.1 = some x := hname ▸ field?_of_isFirst hx hfirst
    have hvalid : (x.setValue v.2).isValid = true :=
      Field.isValid_iff_admits.2 (h.suits v hv x hfield)
    simp [hvalid, hfirst]
  · refine ⟨x, hy, ⟨fun hinvalid => ⟨hinvalid, fun hfirst => ?_⟩, And.left⟩, fun _ => rfl⟩
    exact hno ⟨hfirst, (h.reported x.name).2 (mem_reported hx hinvalid)⟩

theorem Repairs.isValid_eq_false_iff (h : f.Repairs values) :
    (f.setValues values).isValid = false ↔ ∃ i, f.Hides i := by
  rw [isValid_eq_false_iff_exists]
  constructor
  · rintro ⟨i, y, hy, hinvalid⟩
    have hlength := congrArg List.length (names_setValues f values)
    have hlt := (List.getElem?_eq_some_iff.1 hy).1
    simp only [List.length_map] at hlength
    obtain ⟨y', hy', hiff, -⟩ := h.field (List.getElem?_eq_getElem (hlength ▸ hlt))
    obtain rfl : y = y' := Option.some.inj (hy.symm.trans hy')
    exact ⟨i, hiff.1 hinvalid⟩
  · rintro ⟨i, hhides⟩
    have hthere := hhides
    obtain ⟨x, -, -, hx, -⟩ := hthere
    obtain ⟨y, hy, hiff, -⟩ := h.field hx
    exact ⟨i, y, hy, hiff.2 hhides⟩

/-! ### Documents -/

theorem id_setValues : (f.setValues values).id = f.id := by
  induction values generalizing f with
  | nil => rfl
  | cons v values ih => exact ih (f := f.setValue v.1 v.2)

theorem apply_setValue {s : Editor} {d : Nat} (h : s.document.First f.id d f)
    (name value : String) : (s.apply (.setValue f.id name value)).1 =
      { s with document := ⟨s.document.forms.set d (f.setValue name value)⟩ } := by
  have hsome : s.document.form? f.id = some f := h.find?
  have hforms : s.document.modifyForm f.id (·.setValue name value) =
      ⟨s.document.forms.set d (f.setValue name value)⟩ := congrArg Document.mk h.modifyFirst_eq
  simp only [Editor.apply, Editor.onForm, hsome, hforms]

/-- Values that are set one by one in a document come to the form that has the identifier. -/
theorem run_setValues {s : Editor} {d : Nat} (h : s.document.First f.id d f)
    (values : List (String × String)) :
    s.run (values.map fun v => .setValue f.id v.1 v.2) =
      { s with document := ⟨s.document.forms.set d (f.setValues values)⟩ } := by
  induction values using List.reverseRecOn with
  | nil =>
    obtain ⟨hlt, hf⟩ := List.getElem?_eq_some_iff.1 h.here
    have hsame : s.document.forms.set d f = s.document.forms := by
      rw [← hf, List.set_getElem_self]
    exact congrArg (fun forms => { s with document := ⟨forms⟩ }) hsame.symm
  | append_singleton values v ih =>
    have hfirst : Document.First ⟨s.document.forms.set d (f.setValues values)⟩
        (f.setValues values).id d (f.setValues values) := by
      rw [id_setValues]
      exact FirstAt.set h (by simp [id_setValues])
    rw [setValues_concat, List.map_append, Editor.run, List.foldl_append]
    refine (congrArg (fun s : Editor => (s.apply (.setValue f.id v.1 v.2)).1) ih).trans ?_
    have hid : (f.setValues values).id = f.id := id_setValues
    rw [← hid, apply_setValue hfirst, List.set_set]

/-! ### The law -/

/-- What comes of a form of which the reported failures were acted upon. -/
structure Repaired (f : Form) (values : List (String × String)) : Prop where
  /-- A field is not valid then exactly if it was not before, and an earlier one has its name. -/
  invalid : ∀ i x, f.fields[i]? = some x → ∃ y, (f.setValues values).fields[i]? = some y ∧
    (y.isValid = false ↔ f.Hides i) ∧ (f.Hides i → y = x)
  /-- So the form is valid unless there is such a field. -/
  valid : (f.setValues values).isValid = true ↔ ∀ i, ¬ f.Hides i
  /-- Where no name comes twice the form is valid. -/
  distinct : (f.fields.map Field.name).Nodup → (f.setValues values).isValid = true
  /-- A guarded submission of it is let through exactly if it is valid. -/
  submits : ∀ (s : Editor) (d : Nat), s.document.First f.id d f → s.guard.guards f.id = true →
    ∃ event, ((s.run (values.map fun v => .setValue f.id v.1 v.2)).apply (.submit f.id)).2 =
        .event event ∧ (event.defaultPrevented = false ↔ ∀ i, ¬ f.Hides i)

/-- To act on what a form reports makes it valid unless a field with a failure is not the first
with its name. -/
theorem repaired_of_repairs (h : f.Repairs values) : f.Repaired values := by
  have hvalid : (f.setValues values).isValid = true ↔ ∀ i, ¬ f.Hides i := by
    rw [← not_exists, ← h.isValid_eq_false_iff, Bool.not_eq_false]
  constructor
  case invalid => exact fun i x hx => h.field hx
  case valid => exact hvalid
  case distinct => exact fun hnodup => hvalid.2 (not_hides_of_nodup hnodup)
  case submits =>
    intro s d hfirst hguards
    have hset : Document.First ⟨s.document.forms.set d (f.setValues values)⟩ f.id d
        (f.setValues values) := FirstAt.set hfirst (by simp [id_setValues])
    rw [run_setValues hfirst, Editor.submit_first hset]
    refine ⟨_, rfl, ?_⟩
    rw [← hvalid]
    simp [FormGuard.verdict, id_setValues, hguards]

/-- Two fields have one name, and only the second of them is not valid. -/
def doubled : Form :=
  { id := ⟨"command-form"⟩, classes := [needsValidation]
    fields := [{ name := "q", value := "x", constraints := [.required] },
      { name := "q", value := "", constraints := [.required] }] }

theorem repaired_of_repairs_doubled :
    let d : Document := ⟨[doubled]⟩
    let s := (⟨d, .install d⟩ : Editor).run [.setValue doubled.id "q" "y"]
    doubled.invalidFields = [("q", "a value is required")] ∧
      s.document.forms.map Form.invalidFields = [[("q", "a value is required")]] ∧
      (s.apply (.submit doubled.id)).2 = .event ⟨true, true⟩ ∧
      doubled.Repaired [("q", "y")] := by
  have hreport : doubled.invalidFields = [("q", "a value is required")] := by decide
  refine ⟨hreport, by decide, by decide, repaired_of_repairs ?_⟩
  constructor
  case reported => simp [hreport]
  case suits => decide

end Form

end ClusterConsole
