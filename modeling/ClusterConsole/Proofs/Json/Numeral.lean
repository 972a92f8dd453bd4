import ClusterConsole.Proofs.Json.Tree

/-! A numeral is read as the number that it stands for, and skipped whatever its size, if
what follows it cannot be a part of it. -/

namespace ClusterConsole.Json

variable {rest : Text} {ds : Digits} {negative : Bool} {significand : Nat} {exponent : Int}

/-! ### Digits -/

theorem digit?_digitChar (d : Fin 10) : Number.digit? (digitChar d) = some d.1 := by
  revert d
  decide

theorem isDigit_digitChar (d : Fin 10) : (digitChar d).isDigit := by
  revert d
  decide

/-- The text does not start with a digit. -/
def NoDigit (s : Text) : Prop := ∀ c, s.head? = some (some c) → c.isDigit = false

/-- The text does not go on with a number. -/
structure Ends (s : Text) : Prop where
  noDigit : NoDigit s
  noPoint : s.head? ≠ some (some '.')
  noLower : s.head? ≠ some (some 'e')
  noUpper : s.head? ≠ some (some 'E')

theorem takeDigits_noDigit (h : NoDigit rest) : Number.takeDigits rest = ([], rest) := by
  match rest with
  | [] => rfl
  | none :: rest => rfl
  | some c :: rest =>
    have hc : Number.digit? c = none := by rw [Number.digit?, h c rfl, if_neg Bool.false_ne_true]
    simp only [Number.takeDigits, hc]

theorem takeDigits_map (ds : List (Fin 10)) (h : NoDigit rest) :
    Number.takeDigits ((ds.map digitChar).map some ++ rest) = (ds.map Fin.val, rest) := by
  induction ds with
  | nil => exact takeDigits_noDigit h
  | cons d ds ih =>
    simp only [List.map_cons, List.cons_append, Number.takeDigits, digit?_digitChar, ih]

namespace Digits

theorem takeDigits_text (ds : Digits) (h : NoDigit rest) :
    Number.takeDigits (ds.text.map some ++ rest) = (ds.values, rest) := takeDigits_map ds.1 h

theorem values_ne_nil (ds : Digits) : ds.values ≠ [] := by
  simpa [values] using ds.2

theorem exists_values (ds : Digits) : ∃ v vs, ds.values = v :: vs :=
  List.exists_cons_of_ne_nil (values_ne_nil ds)

/-- Digits come first in their text. -/
theorem isDigit_of_head {c : Char} {r : Text} (h : ds.text.map some ++ rest = some c :: r) :
    c.isDigit := by
  obtain ⟨_ | ⟨d, ds⟩, hds⟩ := ds
  · exact absurd rfl hds
  · rw [← Option.some.inj (List.cons.inj h).1]
    exact isDigit_digitChar d

end Digits

/-! ### Numbers that are kept -/

theorem readExponent_plus (h : NoDigit rest) :
    Number.readExponent negative significand exponent (some '+' :: (ds.text.map some ++ rest)) =
      (Number.ofParts negative significand (exponent + ds.total)).map (·, rest) := by
  obtain ⟨v, vs, hv⟩ := Digits.exists_values ds
  simp only [Number.readExponent, Digits.takeDigits_text ds h, Digits.total, hv]
  rfl

theorem readExponent_minus (h : NoDigit rest) :
    Number.readExponent negative significand exponent (some '-' :: (ds.text.map some ++ rest)) =
      (Number.ofParts negative significand (exponent - ds.total)).map (·, rest) := by
  obtain ⟨v, vs, hv⟩ := Digits.exists_values ds
  simp only [Number.readExponent, Digits.takeDigits_text ds h, Digits.total, hv]
  rfl

theorem readExponent_text (h : NoDigit rest) :
    Number.readExponent negative significand exponent (ds.text.map some ++ rest) =
      (Number.ofParts negative significand (exponent + ds.total)).map (·, rest) := by
  obtain ⟨v, vs, hv⟩ := Digits.exists_values ds
  unfold Number.readExponent
  split
  next down s heq =>
    split at heq
    · next hs => exact absurd (Digits.isDigit_of_head hs) (by decide)
    · next hs => exact absurd (Digits.isDigit_of_head hs) (by decide)
    · cases heq
      simp only [Digits.takeDigits_text ds h, Digits.total, hv]
      rfl

theorem readExponent_signed (e : Exponent) (h : NoDigit rest) :
    Number.readExponent negative significand exponent (e.signed.map some ++ rest) =
      (Number.ofParts negative significand (exponent + e.shift)).map (·, rest) := by
  obtain ⟨isUpper, _ | _ | _, ds⟩ := e
  · exact readExponent_text h
  · exact readExponent_plus h
  · exact readExponent_minus h

namespace Numeral

theorem noDigit_exponentText (e : Option Exponent) (h : Ends rest) :
    NoDigit ((exponentText e).map some ++ rest) := by
  intro c hc
  match e with
  | none => exact h.noDigit c hc
  | some ⟨false, _, _⟩ => cases hc; rfl
  | some ⟨true, _, _⟩ => cases hc; rfl

theorem noDigit_fractionText (fraction : Option Digits) (h : NoDigit rest) :
    NoDigit ((fractionText fraction).map some ++ rest) := by
  intro c hc
  match fraction with
  | none => exact h c hc
  | some ds => cases hc; rfl

theorem readFraction_text (ds : Digits) (e : Option Exponent) (h : Ends rest) :
    Number.readFraction negative significand exponent
        (ds.text.map some ++ ((exponentText e).map some ++ rest)) =
      (Number.ofParts negative (Number.appendDigits significand ds.values).1
        (exponent - (ds.values.length - (Number.appendDigits significand ds.values).2 : Nat) +
          e.elim 0 Exponent.shift)).map (·, rest) := by
  have hne := Digits.values_ne_nil ds
  unfold Number.readFraction
  rw [Digits.takeDigits_text ds (noDigit_exponentText e h)]
  split
  · next heq => exact absurd (Prod.mk.inj heq).1 hne
  · next heq => exact absurd (Prod.mk.inj heq).1 hne
  · next heq =>
    cases heq
    match e with
    | none =>
      simp only [exponentText, Option.elim, List.map_nil, List.nil_append]
      split
      · exact absurd rfl h.noLower
      · exact absurd rfl h.noUpper
      · rw [Int.add_zero]
    | some ⟨false, sign, ds⟩ => exact readExponent_signed ⟨false, sign, ds⟩ h.noDigit
    | some ⟨true, sign, ds⟩ => exact readExponent_signed ⟨true, sign, ds⟩ h.noDigit

theorem unsigned_append (n : Numeral) (rest : Text) :
    n.unsigned.map some ++ rest = n.whole.text.map some ++
      ((fractionText n.fraction).map some ++ ((exponentText n.exponent).map some ++ rest)) := by
  simp only [unsigned, List.map_append, List.append_assoc]

theorem unsigned_cons (n : Numeral) (rest : Text) :
    ∃ c r, c.isDigit ∧ n.unsigned.map some ++ rest = some c :: r := by
  obtain ⟨negative, ⟨_ | ⟨d, ds⟩, hds⟩, fraction, e, leading⟩ := n
  · exact absurd rfl hds
  · exact ⟨digitChar d, _, isDigit_digitChar d, rfl⟩

/-- No other digit follows a zero in front. -/
theorem whole_ne (n : Numeral) (d : Nat) (ds : List Nat) : n.whole.values ≠ 0 :: d :: ds := by
  intro h
  obtain ⟨x, y, hxy⟩ : ∃ x y, n.whole.1 = x :: y := List.exists_cons_of_ne_nil n.whole.2
  have hlength := n.leading
  simp only [Digits.values, hxy, List.map_cons] at h hlength
  have hx : x = 0 := Fin.ext (List.cons.inj h).1
  have hy := hlength (by rw [hx]; rfl)
  have := congrArg List.length (List.cons.inj h).2
  simp at hy this
  simp [hy] at this

theorem read_unsigned (n : Numeral) (h : Ends rest) :
    Number.read n.negative (n.unsigned.map some ++ rest) = n.value.map (·, rest) := by
  have hne := Digits.values_ne_nil n.whole
  rw [unsigned_append, Number.read, Digits.takeDigits_text n.whole
    (noDigit_fractionText n.fraction (noDigit_exponentText n.exponent h))]
  split
  · next heq => exact absurd (Prod.mk.inj heq).1 hne
  · next heq => exact absurd (Prod.mk.inj heq).1 hne
  · next heq => exact absurd (Prod.mk.inj heq).1 (n.whole_ne _ _)
  · next heq =>
    cases heq
    obtain ⟨negative, whole, fraction, e, leading⟩ := n
    match fraction, e with
    | none, none =>
      simp only [fractionText, exponentText, Option.elim, List.map_nil, List.nil_append]
      split
      · exact absurd rfl h.noPoint
      · exact absurd rfl h.noLower
      · exact absurd rfl h.noUpper
      · rw [value]
        simp only [Option.elim, Option.isNone_none, true_and, Number.appendDigits]
        split
        · rfl
        · simp
    | none, some ⟨false, sign, ds⟩ =>
      refine (readExponent_signed ⟨false, sign, ds⟩ h.noDigit).trans ?_
      simp [value, Number.appendDigits]
    | none, some ⟨true, sign, ds⟩ =>
      refine (readExponent_signed ⟨true, sign, ds⟩ h.noDigit).trans ?_
      simp [value, Number.appendDigits]
    | some ds, e =>
      refine (readFraction_text ds e h).trans ?_
      simp [value]

/-! ### Numbers that are skipped -/

theorem skipDigits_text (ds : Digits) (h : NoDigit rest) :
    Number.skipDigits (ds.text.map some ++ rest) = .ok rest := by
  have hne := Digits.values_ne_nil ds
  rw [Number.skipDigits, Digits.takeDigits_text ds h]
  split
  · next heq => exact absurd (Prod.mk.inj heq).1 hne
  · next heq => cases heq; rfl

theorem skipExponent_signed (e : Exponent) (h : NoDigit rest) :
    Number.skipExponent (e.signed.map some ++ rest) = .ok rest := by
  obtain ⟨isUpper, _ | _ | _, ds⟩ := e
  · unfold Number.skipExponent
    split
    · next hs => exact absurd (Digits.isDigit_of_head hs) (by decide)
    · next hs => exact absurd (Digits.isDigit_of_head hs) (by decide)
    · exact skipDigits_text ds h
  · exact skipDigits_text ds h
  · exact skipDigits_text ds h

/-- The text after a number, from after the digits before its point. -/
def skipTail : Text → Except Error Text
  | some '.' :: r =>
    match Number.skipDigits r with
    | .ok (some 'e' :: r) => Number.skipExponent r
    | .ok (some 'E' :: r) => Number.skipExponent r
    | x => x
  | some 'e' :: r => Number.skipExponent r
  | some 'E' :: r => Number.skipExponent r
  | r => .ok r

theorem skip_whole (n : Numeral) (h : NoDigit rest) :
    Number.skip (n.whole.text.map some ++ rest) = skipTail rest := by
  have hne := Digits.values_ne_nil n.whole
  rw [Number.skip, Digits.takeDigits_text n.whole h]
  split
  · next heq => exact absurd (Prod.mk.inj heq).1 hne
  · next heq => exact absurd (Prod.mk.inj heq).1 (n.whole_ne _ _)
  · next heq => cases heq; rfl
  · next heq => cases heq; rfl
  · next heq => cases heq; rfl
  · next hpoint hlower hupper heq =>
    cases heq
    unfold skipTail
    split
    · exact (hpoint _ rfl).elim
    · exact (hlower _ rfl).elim
    · exact (hupper _ rfl).elim
    · rfl

theorem skipTail_exponentText (e : Option Exponent) (h : Ends rest) :
    skipTail ((exponentText e).map some ++ rest) = .ok rest := by
  match e with
  | none =>
    simp only [exponentText, Option.elim, List.map_nil, List.nil_append]
    unfold skipTail
    split
    · exact absurd rfl h.noPoint
    · exact absurd rfl h.noLower
    · exact absurd rfl h.noUpper
    · rfl
  | some ⟨false, sign, ds⟩ => exact skipExponent_signed ⟨false, sign, ds⟩ h.noDigit
  | some ⟨true, sign, ds⟩ => exact skipExponent_signed ⟨true, sign, ds⟩ h.noDigit

theorem skip_unsigned (n : Numeral) (h : Ends rest) :
    Number.skip (n.unsigned.map some ++ rest) = .ok rest := by
  rw [unsigned_append, skip_whole n
    (noDigit_fractionText n.fraction (noDigit_exponentText n.exponent h))]
  obtain ⟨negative, whole, fraction, e, leading⟩ := n
  match fraction with
  | none => exact skipTail_exponentText e h
  | some ds =>
    simp only [fractionText, Option.elim, List.map_cons, List.cons_append, skipTail,
      skipDigits_text ds (noDigit_exponentText e h)]
    match e with
    | none =>
      simp only [exponentText, Option.elim, List.map_nil, List.nil_append]
      split
      · next heq => cases heq; exact absurd rfl h.noLower
      · next heq => cases heq; exact absurd rfl h.noUpper
      · rfl
    | some ⟨false, sign, ds⟩ => exact skipExponent_signed ⟨false, sign, ds⟩ h.noDigit
    | some ⟨true, sign, ds⟩ => exact skipExponent_signed ⟨true, sign, ds⟩ h.noDigit

end Numeral

end ClusterConsole.Json
