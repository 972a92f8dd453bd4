import Mathlib.Data.List.Forall2
import ClusterConsole.Proofs.Form.Document

/-! When a field is valid, and what a form reports of its fields. Of all the constraints of a
field three things count: whether a value is required, the largest minimum and the smallest
maximum. Order and repetition only decide which message a field gets that is not valid. -/

namespace ClusterConsole

namespace Constraint

variable {c : Constraint} {value : String}

/-- What a constraint demands of a value. A minimum demands nothing of an empty one. -/
def Meets (value : String) : Constraint → Prop
  | required => value ≠ ""
  | minLength n => value ≠ "" → n ≤ value.length
  | maxLength n => value.length ≤ n

theorem isViolatedBy_eq_false_iff : c.isViolatedBy value = false ↔ c.Meets value := by
  have hempty : value.length = 0 ↔ value = "" := String.length_eq_zero_iff
  cases c with
  | required => simp [isViolatedBy, Meets]
  | minLength n =>
    by_cases h : value = ""
    · simp [isViolatedBy, Meets, h]
    · have hpos : 0 < value.length := Nat.pos_of_ne_zero fun hzero => h (hempty.1 hzero)
      simp [isViolatedBy, Meets, h, hpos]
  | maxLength n => simp [isViolatedBy, Meets]

def minimum? : Constraint → Option Nat
  | minLength n => some n
  | _ => none

def maximum? : Constraint → Option Nat
  | maxLength n => some n
  | _ => none

@[simp] theorem minimum?_eq_some_iff {n : Nat} : c.minimum? = some n ↔ c = minLength n := by
  cases c <;> simp [minimum?]

@[simp] theorem maximum?_eq_some_iff {n : Nat} : c.maximum? = some n ↔ c = maxLength n := by
  cases c <;> simp [maximum?]

end Constraint

/-! ### Bounds -/

/-- What the constraints of a field come to. -/
structure Bounds where
  required : Bool
  minimum : Option Nat
  maximum : Option Nat
  deriving DecidableEq, Repr

namespace Bounds

variable {b : Bounds} {cs : List Constraint} {value : String} {n : Nat}

/-- A value is required if that is said at all, and of several bounds the tightest counts. -/
def ofConstraints (cs : List Constraint) : Bounds where
  required := cs.contains .required
  minimum := (cs.filterMap Constraint.minimum?).max?
  maximum := (cs.filterMap Constraint.maximum?).min?

/-- The bounds as constraints, each of them at most once. -/
def constraints (b : Bounds) : List Constraint :=
  (if b.required then [.required] else []) ++ (b.minimum.map .minLength).toList ++
    (b.maximum.map .maxLength).toList

/-- The value keeps to the bounds. Only a value that is there can be too short. -/
structure Admits (b : Bounds) (value : String) : Prop where
  present : b.required = true → value ≠ ""
  long : ∀ n ∈ b.minimum, value ≠ "" → n ≤ value.length
  short : ∀ n ∈ b.maximum, value.length ≤ n

theorem admits_iff : b.Admits value ↔ (b.required = true → value ≠ "") ∧
    (∀ n ∈ b.minimum, value ≠ "" → n ≤ value.length) ∧ ∀ n ∈ b.maximum, value.length ≤ n :=
  ⟨fun h => ⟨h.present, h.long, h.short⟩, fun h => ⟨h.1, h.2.1, h.2.2⟩⟩

instance : Decidable (b.Admits value) := decidable_of_iff _ admits_iff.symm

theorem required_ofConstraints : (ofConstraints cs).required = true ↔ .required ∈ cs := by
  simp [ofConstraints]

/-- The largest minimum is met exactly if all of them are. -/
theorem minimum_le_iff :
    (∀ m ∈ (ofConstraints cs).minimum, m ≤ n) ↔ ∀ m, .minLength m ∈ cs → m ≤ n := by
  have hmem (m : Nat) : m ∈ cs.filterMap Constraint.minimum? ↔ .minLength m ∈ cs := by
    simp [List.mem_filterMap]
  simp only [ofConstraints, ← hmem]
  cases hmax : (cs.filterMap Constraint.minimum?).max? with
  | none => simp [List.max?_eq_none_iff.1 hmax]
  | some m => simpa using List.max?_le_iff hmax

/-- The smallest maximum is met exactly if all of them are. -/
theorem le_maximum_iff :
    (∀ m ∈ (ofConstraints cs).maximum, n ≤ m) ↔ ∀ m, .maxLength m ∈ cs → n ≤ m := by
  have hmem (m : Nat) : m ∈ cs.filterMap Constraint.maximum? ↔ .maxLength m ∈ cs := by
    simp [List.mem_filterMap]
  simp only [ofConstraints, ← hmem]
  cases hmin : (cs.filterMap Constraint.maximum?).min? with
  | none => simp [List.min?_eq_none_iff.1 hmin]
  | some m => simpa using List.le_min?_iff hmin

/-- A value keeps to the bounds exactly if it meets every constraint. -/
theorem admits_ofConstraints :
    (ofConstraints cs).Admits value ↔ ∀ c ∈ cs, c.Meets value := by
  constructor
  · intro h c hc
    cases c with
    | required => exact h.present (required_ofConstraints.2 hc)
    | minLength n =>
      intro hvalue
      exact minimum_le_iff.1 (fun m hm => h.long m hm hvalue) n hc
    | maxLength n => exact le_maximum_iff.1 h.short n hc
  · intro h
    constructor
    case present => exact fun hrequired => h _ (required_ofConstraints.1 hrequired)
    case long =>
      intro n hn hvalue
      exact minimum_le_iff.2 (fun m hm => h _ hm hvalue) n hn
    case short => exact le_maximum_iff.2 fun m hm => h _ hm

theorem ofConstraints_constraints (b : Bounds) : ofConstraints b.constraints = b := by
  obtain ⟨required, minimum, maximum⟩ := b
  cases required <;> cases minimum <;> cases maximum <;> rfl

end Bounds

/-! ### Fields -/

namespace Field

variable {x : Field} {cs : List Constraint} {value text : String}

theorem isValid_iff : x.isValid = true ↔ ∀ c ∈ x.constraints, c.Meets x.value := by
  simp [isValid, message?, violated?, Constraint.isViolatedBy_eq_false_iff]

theorem isValid_iff_admits :
    x.isValid = true ↔ (Bounds.ofConstraints x.constraints).Admits x.value :=
  isValid_iff.trans Bounds.admits_ofConstraints.symm

/-- Lists with the same constraints in them come to the same. -/
theorem isValid_congr (h : ∀ c, c ∈ cs ↔ c ∈ x.constraints) :
    { x with constraints := cs }.isValid = x.isValid := by
  rw [Bool.eq_iff_iff, isValid_iff, isValid_iff]
  simp only [h]

theorem isValid_bounds (x : Field) :
    { x with constraints := (Bounds.ofConstraints x.constraints).constraints }.isValid =
      x.isValid := by
  rw [Bool.eq_iff_iff, isValid_iff_admits, isValid_iff_admits, Bounds.ofConstraints_constraints]

/-- The constraint at a position is the first that the value does not meet. -/
structure FailsAt (x : Field) (i : Nat) (c : Constraint) : Prop where
  here : x.constraints[i]? = some c
  fails : ¬ c.Meets x.value
  before : ∀ k d, k < i → x.constraints[k]? = some d → d.Meets x.value

theorem failsAt_iff {i : Nat} {c : Constraint} :
    x.FailsAt i c ↔ FirstAt (Constraint.isViolatedBy x.value) x.constraints i c := by
  constructor
  · intro h
    constructor
    case here => exact h.here
    case holds =>
      by_contra hno
      exact h.fails (Constraint.isViolatedBy_eq_false_iff.1 (eq_false_of_ne_true hno))
    case before =>
      intro k d hk hd
      exact Constraint.isViolatedBy_eq_false_iff.2 (h.before k d hk hd)
  · intro h
    constructor
    case here => exact h.here
    case fails =>
      intro hmeets
      have hno := Constraint.isViolatedBy_eq_false_iff.2 hmeets
      simp [h.holds] at hno
    case before =>
      intro k d hk hd
      exact Constraint.isViolatedBy_eq_false_iff.1 (h.before k d hk hd)

theorem message?_eq_some_iff :
    x.message? = some text ↔ ∃ i c, x.FailsAt i c ∧ c.message = text := by
  unfold message? violated?
  simp only [failsAt_iff, Option.map_eq_some_iff]
  constructor
  · rintro ⟨c, hfind, hmessage⟩
    obtain ⟨i, hfirst⟩ := exists_firstAt hfind
    exact ⟨i, c, hfirst, hmessage⟩
  · rintro ⟨i, c, hfirst, hmessage⟩
    exact ⟨c, hfirst.find?, hmessage⟩

/-- The law of a field. -/
structure Judged (x : Field) : Prop where
  /-- It is valid exactly if its value keeps to the bounds that its constraints come to. -/
  bounds : x.isValid = true ↔ (Bounds.ofConstraints x.constraints).Admits x.value
  /-- With these bounds as its constraints it is as valid as before. -/
  normal : { x with constraints := (Bounds.ofConstraints x.constraints).constraints }.isValid =
    x.isValid
  /-- So it is with its constraints in any order and any number. -/
  order : ∀ cs, (∀ c, c ∈ cs ↔ c ∈ x.constraints) →
    { x with constraints := cs }.isValid = x.isValid
  /-- Its message is that of the first constraint that its value does not meet. -/
  message : ∀ text, x.message? = some text ↔ ∃ i c, x.FailsAt i c ∧ c.message = text

theorem judged (x : Field) : x.Judged where
  bounds := isValid_iff_admits
  normal := isValid_bounds x
  order _ := isValid_congr
  message _ := message?_eq_some_iff

end Field

/-! ### Forms -/

namespace Form

variable {f : Form}

/-- A report names the field, and tells its message. -/
def Tells (x : Field) (report : String × String) : Prop :=
  report.1 = x.name ∧ x.message? = some report.2

theorem forall₂_reports (xs : List Field) :
    List.Forall₂ Tells (xs.filter fun x => ¬ (Bounds.ofConstraints x.constraints).Admits x.value)
      (xs.filterMap fun x => x.message?.map (x.name, ·)) := by
  induction xs with
  | nil => exact .nil
  | cons x xs ih =>
    have hadmits : x.message? = none ↔ (Bounds.ofConstraints x.constraints).Admits x.value := by
      rw [← Field.isValid_iff_admits, Field.isValid, Option.isNone_iff_eq_none]
    cases hmessage : x.message? with
    | none =>
      rw [List.filter_cons_of_neg (by simpa using hadmits.1 hmessage),
        List.filterMap_cons_none (by rw [hmessage]; rfl)]
      exact ih
    | some text =>
      have hno : ¬ (Bounds.ofConstraints x.constraints).Admits x.value := by
        rw [← hadmits, hmessage]
        simp
      rw [List.filter_cons_of_pos (by simpa using hno),
        List.filterMap_cons_some (by rw [hmessage]; rfl)]
      exact .cons ⟨rfl, hmessage⟩ ih

theorem isValid_iff_invalidFields : f.isValid = true ↔ f.invalidFields = [] := by
  simp [isValid, invalidFields, Field.isValid]

/-- What a form reports. -/
structure Reports (f : Form) : Prop where
  /-- It is valid exactly if it reports nothing. -/
  valid : f.isValid = true ↔ f.invalidFields = []
  /-- It reports its fields whose values do not keep to their bounds, and no others, in order. -/
  invalid : List.Forall₂ Tells
    (f.fields.filter fun x => ¬ (Bounds.ofConstraints x.constraints).Admits x.value) f.invalidFields

/-- Every field and every form obeys the law. -/
theorem judged_reports (x : Field) (f : Form) : x.Judged ∧ f.Reports :=
  ⟨x.judged, isValid_iff_invalidFields, forall₂_reports f.fields⟩

/-- Bounds that contradict each other admit the empty value only, and the first tells why another
one is refused. -/
example :
    let x : Field := { name := "n", value := "four", constraints := [.minLength 5, .maxLength 3] }
    x.message? = some "must be at least 5 characters" ∧ (x.setValue "").isValid = true ∧
      { x with constraints := x.constraints.reverse }.message? =
        some "must be at most 3 characters" := by
  decide +kernel

end Form

end ClusterConsole
