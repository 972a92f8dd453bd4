import ClusterConsole.Proofs.Json.Held
import ClusterConsole.Proofs.Json.Printing

/-! A value that was read and holds no floating-point number is written so that reading gives it
back. What the printer writes is a text of a tree with this value, by induction on what makes a
value one that can be held. -/

namespace ClusterConsole.Json

variable {levels outer : Nat} {v : Json} {x rest : Text}

/-! ### Integers -/

theorem digitChar_eq (d : Fin 10) : digitChar d = Nat.digitChar d.1 := by
  revert d
  decide

/-- The digits of a number, without zeros in front. -/
theorem exists_digits (k : Nat) : ∃ ds : Digits,
    ds.text = Nat.toDigits 10 k ∧ ds.total = k ∧ (ds.1.head? = some 0 → ds.1 = [0]) := by
  induction k using Nat.strongRecOn with
  | ind k ih =>
    by_cases hk : k < 10
    · refine ⟨⟨[⟨k, hk⟩], List.cons_ne_nil _ _⟩, ?_, ?_, ?_⟩
      · rw [Nat.toDigits_of_lt_base hk, Digits.text, List.map_singleton, digitChar_eq]
      · simp [Digits.total, Digits.values]
      · intro hzero
        rw [← Option.some.inj hzero]
    · obtain ⟨⟨ds, hne⟩, htext, htotal, hzero⟩ := ih (k / 10) (by omega)
      have hlast : k % 10 < 10 := Nat.mod_lt k (by decide)
      refine ⟨⟨ds ++ [⟨k % 10, hlast⟩], by simp⟩, ?_, ?_, ?_⟩
      · rw [Nat.toDigits_of_base_le (by decide) (by omega), ← htext, Digits.text, Digits.text,
          List.map_append, List.map_singleton, digitChar_eq]
      · simp only [Digits.total, Digits.values, List.map_append, List.foldl_append] at htotal ⊢
        rw [htotal]
        simp
        omega
      · intro hhead
        rw [List.head?_append_of_ne_nil _ hne] at hhead
        -- A zero in front would leave no other digit before the last one.
        obtain rfl := hzero hhead
        have : k / 10 = 0 := htotal.symm
        omega

theorem le_foldl_digits (ds : List Nat) (k : Nat) : k ≤ ds.foldl (10 * · + ·) k := by
  induction ds generalizing k with
  | nil => exact Nat.le_refl k
  | cons d ds ih => exact Nat.le_trans (by omega) (ih (10 * k + d))

/-- No digit is left over of a number that fits. -/
theorem appendDigits_of_le {ds : List Nat} {k : Nat}
    (h : ds.foldl (10 * · + ·) k ≤ Number.maxSignificand) :
    Number.appendDigits k ds = (ds.foldl (10 * · + ·) k, 0) := by
  induction ds generalizing k with
  | nil => rfl
  | cons d ds ih =>
    rw [Number.appendDigits, if_pos (Nat.le_trans (le_foldl_digits ds _) h)]
    exact ih h

theorem ofInteger_natAbs {value : Int} (h : (Number.int value).Fits) :
    Number.ofInteger (decide (value < 0)) value.natAbs = .int value := by
  obtain ⟨hmin, -⟩ := h
  rw [Nat.pow_eq] at hmin
  unfold Number.ofInteger
  by_cases hneg : value < 0
  · have hbound : 0 < value.natAbs ∧ value.natAbs ≤ Nat.pow 2 63 := by
      rw [Nat.pow_eq]
      omega
    rw [decide_eq_true hneg, if_neg (by decide), if_pos hbound,
      Int.ofNat_natAbs_of_nonpos (Int.le_of_lt hneg), Int.neg_neg]
  · rw [decide_eq_false hneg, if_pos Bool.not_false, Int.natAbs_of_nonneg (by omega)]

theorem exists_numeral {value : Int} (h : (Number.int value).Fits) :
    ∃ n : Numeral, n.text = printInt value ∧ n.value = .ok (.int value) := by
  obtain ⟨ds, htext, htotal, hzero⟩ := exists_digits value.natAbs
  refine ⟨⟨decide (value < 0), ds, none, none, fun hhead => by rw [hzero hhead]; rfl⟩, ?_, ?_⟩
  · simp [Numeral.text, Numeral.unsigned, Numeral.fractionText, Numeral.exponentText, printInt,
      htext]
  · have hpow : Nat.pow 2 63 ≤ Number.maxSignificand := by decide
    have hle : ds.total ≤ Number.maxSignificand := by
      obtain ⟨hmin, hmax⟩ := h
      omega
    have happend : Number.appendDigits 0 ds.values = (value.natAbs, 0) := by
      rw [appendDigits_of_le hle, ← htotal]
      rfl
    simp only [Numeral.value, happend, Option.isNone_none, and_self, if_true,
      ofInteger_natAbs h]

/-! ### Values without floating-point numbers -/

mutual

/-- A floating-point number is a part of the value. -/
def hasFloat : Json → Bool
  | .number (.float _) => true
  | .array items => itemsHaveFloat items
  | .object members => membersHaveFloat members
  | _ => false

def itemsHaveFloat : List Json → Bool
  | [] => false
  | v :: vs => v.hasFloat || itemsHaveFloat vs

def membersHaveFloat : List (String × Json) → Bool
  | [] => false
  | (_, v) :: ms => v.hasFloat || membersHaveFloat ms

end

theorem itemsHaveFloat_eq_false {items : List Json} (h : itemsHaveFloat items = false) :
    ∀ v ∈ items, v.hasFloat = false := by
  induction items with
  | nil =>
    intro v hv
    cases hv
  | cons v items ih =>
    rw [itemsHaveFloat, Bool.or_eq_false_iff] at h
    exact List.forall_mem_cons.2 ⟨h.1, ih h.2⟩

theorem membersHaveFloat_eq_false {members : List (String × Json)}
    (h : membersHaveFloat members = false) : ∀ m ∈ members, m.2.hasFloat = false := by
  induction members with
  | nil =>
    intro m hm
    cases hm
  | cons m members ih =>
    rw [membersHaveFloat, Bool.or_eq_false_iff] at h
    exact List.forall_mem_cons.2 ⟨h.1, ih h.2⟩

/-! ### The tree of a value -/

theorem eq_string_of_value? {t : Tree} {text : String} (h : t.value? = some (.string text)) :
    ∃ ps, t = .string ps ∧ text? ps = some text := by
  cases t <;> simp [Tree.value?] at h ⊢
  exact h

theorem eq_object_of_value? {t : Tree} {members : List (String × Json)}
    (h : t.value? = some (.object members)) :
    ∃ ms, t = .object ms ∧ membersValue? ms = some members := by
  cases t <;> simp [Tree.value?] at h ⊢
  exact h

/-- The printer writes a text of the tree, and the tree has the value. -/
structure Prints (levels : Nat) (v : Json) (t : Tree) : Prop where
  written : Written t (print v)
  value : t.value? = some v
  levels_le : t.levels ≤ levels

theorem exists_forall₂ {α β : Type} {R : α → β → Prop} {as : List α} (h : ∀ a ∈ as, ∃ b, R a b) :
    ∃ bs, List.Forall₂ R as bs := by
  induction as with
  | nil => exact ⟨[], .nil⟩
  | cons a as ih =>
    obtain ⟨⟨b, hb⟩, has⟩ := List.forall_mem_cons.1 h
    obtain ⟨bs, hbs⟩ := ih has
    exact ⟨b :: bs, .cons hb hbs⟩

section
variable {t : Tree} {vs : List Json} {ts : List Tree}

/-- The items after the first, up to the closing bracket. -/
theorem itemsWritten_printItems (h : Prints levels v t) (hs : List.Forall₂ (Prints levels) vs ts) :
    ∃ text, ItemsWritten (t :: ts) text ∧ print v ++ printItems vs = text ++ [']'] := by
  induction hs generalizing v t with
  | nil =>
    refine ⟨_, .last blank_nil h.written blank_nil, ?_⟩
    rw [printItems, List.nil_append, List.append_nil]
  | cons hw _ ih =>
    obtain ⟨text, hwritten, htext⟩ := ih hw
    refine ⟨_, .cons blank_nil h.written blank_nil hwritten, ?_⟩
    rw [printItems, List.cons_append, htext]
    simp only [List.nil_append, List.append_assoc, List.cons_append]

theorem written_print_array (h : List.Forall₂ (Prints levels) vs ts) :
    Written (.array ts) (print (.array vs)) := by
  cases h with
  | nil => exact .noItems blank_nil
  | cons hv hs =>
    obtain ⟨text, hwritten, htext⟩ := itemsWritten_printItems hv hs
    rw [print, List.cons_append, htext]
    exact .array hwritten

theorem prints_array (h : List.Forall₂ (Prints levels) vs ts) :
    Prints (levels + 1) (.array vs) (.array ts) := by
  have hitems : itemsValue? ts = some vs ∧ itemsLevels ts ≤ levels := by
    induction h with
    | nil => exact ⟨rfl, Nat.zero_le _⟩
    | cons hv _ ih => exact ⟨by rw [itemsValue?, hv.value, ih.1], Nat.max_le.2 ⟨hv.levels_le, ih.2⟩⟩
  refine ⟨written_print_array h, ?_, Nat.succ_le_succ hitems.2⟩
  rw [Tree.value?, hitems.1, Option.map_some]

end

/-- The tree of a member has its name and the tree of its value. -/
def PrintsMember (levels : Nat) (m : String × Json) (m' : List Piece × Tree) : Prop :=
  m'.1 = pieces m.1 ∧ Prints levels m.2 m'.2

theorem prints_object {ms : List (String × Json)} {ts : List (List Piece × Tree)}
    (h : List.Forall₂ (PrintsMember levels) ms ts) :
    Prints (levels + 1) (.object ms) (.object ts) := by
  have hmembers : membersValue? ts = some ms ∧ membersLevels ts ≤ levels := by
    induction h with
    | nil => exact ⟨rfl, Nat.zero_le _⟩
    | @cons m m' ms ts hm _ ih =>
      obtain ⟨name, v⟩ := m
      obtain ⟨ps, t⟩ := m'
      obtain ⟨rfl, hv⟩ := hm
      refine ⟨?_, Nat.max_le.2 ⟨hv.levels_le, ih.2⟩⟩
      rw [membersValue?, pieces, text?_map_char, hv.value, ih.1]
  refine ⟨written_print_object (h.imp fun _ _ hm => ⟨hm.1, hm.2.written⟩), ?_,
    Nat.succ_le_succ hmembers.2⟩
  rw [Tree.value?, hmembers.1, Option.map_some]

theorem exists_prints (h : Held levels v) (hfloat : v.hasFloat = false) :
    ∃ t, Prints levels v t := by
  induction h with
  | null => exact ⟨.null, .null, rfl, Nat.zero_le _⟩
  | @bool _ b =>
    refine ⟨.bool b, ?_, rfl, Nat.zero_le _⟩
    cases b with
    | false => exact .bool false
    | true => exact .bool true
  | @number _ n hfits =>
    cases n with
    | int value =>
      obtain ⟨numeral, htext, hvalue⟩ := exists_numeral hfits
      refine ⟨.number numeral, ?_, ?_, Nat.zero_le _⟩
      · rw [print, Number.print, ← htext]
        exact .number numeral
      · rw [Tree.value?, hvalue]
        rfl
    | float value => cases hfloat
  | @string _ text =>
    refine ⟨.string (pieces text), written_printString text, ?_, Nat.zero_le _⟩
    rw [Tree.value?, pieces, text?_map_char, Option.map_some]
  | array _ ih =>
    obtain ⟨ts, hts⟩ := exists_forall₂ fun v hv => ih v hv (itemsHaveFloat_eq_false hfloat v hv)
    exact ⟨.array ts, prints_array hts⟩
  | object _ ih =>
    have htrees := exists_forall₂ (R := PrintsMember _) fun m hm => by
      obtain ⟨t, ht⟩ := ih m hm (membersHaveFloat_eq_false hfloat m hm)
      exact ⟨(pieces m.1, t), rfl, ht⟩
    obtain ⟨ts, hts⟩ := htrees
    exact ⟨.object ts, prints_object hts⟩

end ClusterConsole.Json
