import Mathlib.Data.List.Nodup
import ClusterConsole.Form.Document

/-! The first element of a list that satisfies a condition, and what a change of it leaves alone.
From this follow the laws of forms: an identifier stands for one form of a document, and a class
that is added comes at the end, unless it was there before. -/

namespace ClusterConsole

/-! ### First elements -/

section First

variable {α : Type} {p : α → Bool} {f : α → α} {as : List α} {a b : α} {i k : Nat}

/-- The element at a position is the first that satisfies the condition. -/
structure FirstAt (p : α → Bool) (as : List α) (i : Nat) (a : α) : Prop where
  here : as[i]? = some a
  holds : p a = true
  before : ∀ k b, k < i → as[k]? = some b → p b = false

theorem FirstAt.succ (hb : p b = false) (h : FirstAt p as i a) : FirstAt p (b :: as) (i + 1) a where
  here := by simpa using h.here
  holds := h.holds
  before k c hk hc := by
    cases k with
    | zero =>
      obtain rfl : b = c := by simpa using hc
      exact hb
    | succ k => exact h.before k c (by omega) (by simpa using hc)

theorem exists_firstAt (h : as.find? p = some a) : ∃ i, FirstAt p as i a := by
  induction as with
  | nil => cases h
  | cons b as ih =>
    cases hb : p b with
    | true =>
      rw [List.find?_cons_of_pos hb] at h
      cases h
      exact ⟨0, rfl, hb, fun k c hk => absurd hk (Nat.not_lt_zero k)⟩
    | false =>
      rw [List.find?_cons_of_neg (by simp [hb])] at h
      obtain ⟨i, hi⟩ := ih h
      exact ⟨i + 1, hi.succ hb⟩

/-- A condition is satisfied first at one position only. -/
theorem FirstAt.unique (h : FirstAt p as i a) (h' : FirstAt p as k b) : i = k ∧ a = b := by
  have hik : i = k := by
    rcases Nat.lt_trichotomy i k with hlt | heq | hgt
    · have hno := h'.before i a hlt h.here
      simp [h.holds] at hno
    · exact heq
    · have hno := h.before k b hgt h'.here
      simp [h'.holds] at hno
  subst hik
  exact ⟨rfl, Option.some.inj (h.here.symm.trans h'.here)⟩

theorem FirstAt.find? (h : FirstAt p as i a) : as.find? p = some a := by
  cases hfind : as.find? p with
  | none =>
    have hnone := List.find?_eq_none.1 hfind a (List.mem_of_getElem? h.here)
    exact absurd h.holds hnone
  | some b =>
    obtain ⟨k, hk⟩ := exists_firstAt hfind
    rw [(hk.unique h).2]

/-- To change the first element is to change the one at its position. -/
theorem FirstAt.modifyFirst_eq (h : FirstAt p as i a) : modifyFirst p f as = as.set i (f a) := by
  induction as generalizing i with
  | nil => cases h.here
  | cons b as ih =>
    cases i with
    | zero =>
      obtain rfl : b = a := by simpa using h.here
      simp [modifyFirst, h.holds]
    | succ i =>
      have hb : p b = false := h.before 0 b (by omega) rfl
      have htail : FirstAt p as i a := by
        refine ⟨by simpa using h.here, h.holds, ?_⟩
        intro k c hk hc
        exact h.before (k + 1) c (by omega) (by simpa using hc)
      simp [modifyFirst, hb, ih htail]

/-- Once changed the element is still the first if it satisfies the condition. -/
theorem FirstAt.set (h : FirstAt p as i a) (hb : p b = true) : FirstAt p (as.set i b) i b where
  here := List.getElem?_set_self (List.getElem?_eq_some_iff.1 h.here).1
  holds := hb
  before k c hk hc := by
    rw [List.getElem?_set_ne (by omega)] at hc
    exact h.before k c hk hc

/-- Where no element satisfies the condition nothing changes. -/
theorem modifyFirst_of_none (h : as.find? p = none) : modifyFirst p f as = as := by
  induction as with
  | nil => rfl
  | cons a as ih =>
    have hno : p a = false := by simpa using List.find?_eq_none.1 h a List.mem_cons_self
    rw [List.find?_cons_of_neg (by simp [hno])] at h
    simp [modifyFirst, hno, ih h]

/-- All elements but the first are left as they are. -/
theorem getElem?_modifyFirst_of_not (h : as[i]? = some a) (hno : ¬ FirstAt p as i a) :
    (modifyFirst p f as)[i]? = some a := by
  cases hfind : as.find? p with
  | none => rwa [modifyFirst_of_none hfind]
  | some b =>
    obtain ⟨k, hk⟩ := exists_firstAt hfind
    have hne : k ≠ i := by
      rintro rfl
      obtain rfl : b = a := Option.some.inj (hk.here.symm.trans h)
      exact hno hk
    rw [hk.modifyFirst_eq, List.getElem?_set_ne hne, h]

/-- What the change keeps of every element it keeps of the list. -/
theorem map_modifyFirst {β : Type} {g : α → β} (h : ∀ a, g (f a) = g a) (as : List α) :
    (modifyFirst p f as).map g = as.map g := by
  induction as with
  | nil => rfl
  | cons a as ih =>
    cases hp : p a with
    | true => simp [modifyFirst, hp, h]
    | false => simp [modifyFirst, hp, ih]

end First

namespace Form

variable {f : Form} {c d : String} {cs : List String}

/-! ### Classes -/

theorem hasClass_iff : f.hasClass c = true ↔ c ∈ f.classes := by simp [hasClass]

theorem addClass_of_mem (h : c ∈ f.classes) : f.addClass c = f := if_pos (hasClass_iff.2 h)

theorem addClass_of_not_mem (h : c ∉ f.classes) :
    f.addClass c = { f with classes := f.classes ++ [c] } :=
  if_neg fun hc => h (hasClass_iff.1 hc)

theorem addClass_eq (f : Form) (c : String) : f.addClass c =
    { f with classes := if c ∈ f.classes then f.classes else f.classes ++ [c] } := by
  by_cases h : c ∈ f.classes
  · rw [addClass_of_mem h, if_pos h]
  · rw [addClass_of_not_mem h, if_neg h]

@[simp] theorem addClass_id : (f.addClass c).id = f.id := by rw [addClass_eq]

@[simp] theorem mem_addClass : d ∈ (f.addClass c).classes ↔ d ∈ f.classes ∨ d = c := by
  by_cases h : c ∈ f.classes
  · rw [addClass_of_mem h]
    exact (or_iff_left_of_imp fun hd => hd ▸ h).symm
  · simp [addClass_of_not_mem h]

theorem prefix_addClass (f : Form) (c : String) : f.classes <+: (f.addClass c).classes := by
  by_cases h : c ∈ f.classes
  · simp [addClass_of_mem h]
  · simp [addClass_of_not_mem h]

theorem nodup_addClass (h : f.classes.Nodup) (c : String) : (f.addClass c).classes.Nodup := by
  by_cases hc : c ∈ f.classes
  · rwa [addClass_of_mem hc]
  · rw [addClass_of_not_mem hc]
    simpa using h.concat hc

/-- Adding a class again changes nothing. -/
theorem addClass_addClass (f : Form) (c : String) : (f.addClass c).addClass c = f.addClass c :=
  addClass_of_mem (mem_addClass.2 (.inr rfl))

theorem nodup_addClasses (h : f.classes.Nodup) (cs : List String) :
    (f.addClasses cs).classes.Nodup := by
  unfold addClasses
  induction cs generalizing f with
  | nil => exact h
  | cons c cs ih => exact ih (nodup_addClass h c)

/-- The classes of the form were added, one after the other. -/
def Built (f : Form) : Prop := ∃ cs, addClasses { f with classes := [] } cs = f

theorem Built.nodup (h : f.Built) : f.classes.Nodup := by
  obtain ⟨cs, hcs⟩ := h
  rw [← hcs]
  exact nodup_addClasses List.nodup_nil cs

/-! ### Validity -/

/-- A field violates one of its constraints. -/
def Invalid (f : Form) : Prop :=
  ∃ field ∈ f.fields, ∃ k ∈ field.constraints, k.isViolatedBy field.value = true

theorem isValid_eq_false_iff : f.isValid = false ↔ f.Invalid := by
  simp [isValid, Invalid, Field.isValid, Field.message?, Field.violated?]

end Form

end ClusterConsole
