import ClusterConsole.Proofs.Json.Reading

/-! A text of a tree is skipped whatever the tree is: its numbers may be out of range, its
strings may be no text, and it may have any number of levels. -/

namespace ClusterConsole.Json

variable {fuel : Nat} {x y rest r r' : Text} {c : Char}

/-! ### One step of skipping -/

section

attribute [local simp] skipValueWith skipItems skipMembers

theorem skipValueWith_null (hx : skipBlanks x = some 'n' :: r) :
    skipValueWith (fuel + 1) x = readWord "ull".toList r := by
  simp [hx]

theorem skipValueWith_true (hx : skipBlanks x = some 't' :: r) :
    skipValueWith (fuel + 1) x = readWord "rue".toList r := by
  simp [hx]

theorem skipValueWith_false (hx : skipBlanks x = some 'f' :: r) :
    skipValueWith (fuel + 1) x = readWord "alse".toList r := by
  simp [hx]

theorem skipValueWith_minus (hx : skipBlanks x = some '-' :: r) :
    skipValueWith (fuel + 1) x = Number.skip r := by
  simp [hx]

theorem skipValueWith_digit (hx : skipBlanks x = some c :: r) (hc : c.isDigit) :
    skipValueWith (fuel + 1) x = Number.skip (some c :: r) := by
  have hn : c ≠ 'n' := by rintro rfl; cases hc
  have ht : c ≠ 't' := by rintro rfl; cases hc
  have hf : c ≠ 'f' := by rintro rfl; cases hc
  have hm : c ≠ '-' := by rintro rfl; cases hc
  simp only [skipValueWith, hx, if_neg hn, if_neg ht, if_neg hf, if_neg hm, if_pos hc]

theorem skipValueWith_number {n : Numeral} (hx : skipBlanks x = n.text.map some ++ rest)
    (hends : Ends rest) : skipValueWith (fuel + 1) x = .ok rest := by
  have hskip := Numeral.skip_unsigned n hends
  rw [Numeral.text] at hx
  split at hx
  · rw [List.map_cons, List.cons_append] at hx
    rw [skipValueWith_minus hx, hskip]
  · obtain ⟨c, r, hc, hr⟩ := n.unsigned_cons rest
    rw [hr] at hx hskip
    rw [skipValueWith_digit hx hc, hskip]

theorem skipValueWith_quote (hx : skipBlanks x = some '"' :: r) :
    skipValueWith (fuel + 1) x = skipString r := by
  simp [hx]

theorem skipValueWith_noItems (hx : skipBlanks x = some '[' :: r)
    (hr : skipBlanks r = some ']' :: rest) : skipValueWith (fuel + 1) x = .ok rest := by
  simp [hx, hr]

theorem skipValueWith_items (hx : skipBlanks x = some '[' :: r)
    (hr : (skipBlanks r).head? ≠ some (some ']')) :
    skipValueWith (fuel + 1) x = skipItems fuel (skipBlanks r) := by
  have hdigit : '['.isDigit = false := by decide
  simp only [skipValueWith, hx, Char.reduceEq, hdigit, reduceIte, Bool.false_eq_true]
  split
  · next h => rw [h] at hr; exact absurd rfl hr
  · rfl

theorem skipValueWith_noMembers (hx : skipBlanks x = some '\x7b' :: r)
    (hr : skipBlanks r = some '\x7d' :: rest) : skipValueWith (fuel + 1) x = .ok rest := by
  simp [hx, hr]

theorem skipValueWith_members (hx : skipBlanks x = some '\x7b' :: r)
    (hr : (skipBlanks r).head? ≠ some (some '\x7d')) :
    skipValueWith (fuel + 1) x = skipMembers fuel (skipBlanks r) := by
  have hdigit : '\x7b'.isDigit = false := by decide
  simp only [skipValueWith, hx, Char.reduceEq, hdigit, reduceIte, Bool.false_eq_true]
  split
  · next h => rw [h] at hr; exact absurd rfl hr
  · rfl

theorem skipItems_last (hv : skipValueWith fuel x = .ok y)
    (hy : skipBlanks y = some ']' :: rest) : skipItems (fuel + 1) x = .ok rest := by
  simp only [skipItems, hv, hy]

theorem skipItems_cons (hv : skipValueWith fuel x = .ok y)
    (hy : skipBlanks y = some ',' :: rest) : skipItems (fuel + 1) x = skipItems fuel rest := by
  simp only [skipItems, hv, hy]

theorem skipMembers_last {s : Text} (hx : skipBlanks x = some '"' :: r)
    (hname : skipString r = .ok r') (hcolon : readColon r' = .ok s)
    (hv : skipValueWith fuel s = .ok y) (hy : skipBlanks y = some '\x7d' :: rest) :
    skipMembers (fuel + 1) x = .ok rest := by
  simp only [skipMembers, hx, hname, hcolon, hv, hy]

theorem skipMembers_cons {s : Text} (hx : skipBlanks x = some '"' :: r)
    (hname : skipString r = .ok r') (hcolon : readColon r' = .ok s)
    (hv : skipValueWith fuel s = .ok y) (hy : skipBlanks y = some ',' :: rest) :
    skipMembers (fuel + 1) x = skipMembers fuel rest := by
  simp only [skipMembers, hx, hname, hcolon, hv, hy]

end

/-! ### Values that are skipped -/

mutual

theorem skipValueWith_written {t : Tree} {s : List Char} : Written t s →
    ∀ {fuel : Nat} {x rest : Text}, 2 * s.length ≤ fuel → Ends rest →
      skipBlanks x = s.map some ++ rest → skipValueWith fuel x = .ok rest
  | .null, fuel + 1, x, rest, _, _, hx => skipValueWith_null hx
  | .bool true, fuel + 1, x, rest, _, _, hx => skipValueWith_true hx
  | .bool false, fuel + 1, x, rest, _, _, hx => skipValueWith_false hx
  | .number n, fuel, x, rest, hfuel, hends, hx => by
    obtain ⟨fuel, rfl⟩ : ∃ k, fuel = k + 1 :=
      Nat.exists_eq_add_one.2 (by have := (Written.number n).length_pos; omega)
    exact skipValueWith_number hx hends
  | .string h, fuel + 1, x, rest, _, _, hx => by
    rw [map_enclosed] at hx
    rw [skipValueWith_quote hx, skipString_spelled h]
  | .noItems hb, fuel + 1, x, rest, _, _, hx => by
    rw [map_enclosed] at hx
    exact skipValueWith_noItems hx (skipBlanks_to hb (by decide))
  | .array h, fuel + 1, x, rest, hfuel, _, hx => by
    rw [map_enclosed] at hx
    simp only [List.length_cons, List.length_append, List.length_nil] at hfuel
    rw [skipValueWith_items hx h.head?_skipBlanks]
    exact skipItems_written h (by omega) (skipBlanks_skipBlanks _)
  | .noMembers hb, fuel + 1, x, rest, _, _, hx => by
    rw [map_enclosed] at hx
    exact skipValueWith_noMembers hx (skipBlanks_to hb (by decide))
  | .object h, fuel + 1, x, rest, hfuel, _, hx => by
    rw [map_enclosed] at hx
    simp only [List.length_cons, List.length_append, List.length_nil] at hfuel
    rw [skipValueWith_members hx h.head?_skipBlanks]
    exact skipMembers_written h (by omega) (skipBlanks_skipBlanks _)

theorem skipItems_written {ts : List Tree} {s : List Char} : ItemsWritten ts s →
    ∀ {fuel : Nat} {x rest : Text}, 2 * s.length + 1 ≤ fuel →
      skipBlanks x = skipBlanks (s.map some ++ some ']' :: rest) → skipItems fuel x = .ok rest
  | .last hb h hb', fuel + 1, x, rest, hfuel, hx => by
    simp only [List.map_append, List.append_assoc] at hx
    simp only [List.length_append] at hfuel
    rw [h.skipBlanks_blank hb] at hx
    exact skipItems_last
      (skipValueWith_written h (by omega) (ends_close hb' (by decide)) hx)
      (skipBlanks_to hb' (by decide))
  | .cons hb h hb' hs, fuel + 1, x, rest, hfuel, hx => by
    simp only [List.map_append, List.map_cons, List.append_assoc, List.cons_append] at hx
    simp only [List.length_append, List.length_cons] at hfuel
    rw [h.skipBlanks_blank hb] at hx
    rw [skipItems_cons
      (skipValueWith_written h (by omega) (ends_close hb' (by decide)) hx)
      (skipBlanks_to hb' (by decide))]
    exact skipItems_written hs (by omega) rfl

theorem skipMembers_written {ms : List (List Piece × Tree)} {s : List Char} :
    MembersWritten ms s →
    ∀ {fuel : Nat} {x rest : Text}, 2 * s.length + 1 ≤ fuel →
      skipBlanks x = skipBlanks (s.map some ++ some '\x7d' :: rest) →
      skipMembers fuel x = .ok rest
  | .last (.mk hb hn hb' hb'' h) hb₃, fuel + 1, x, rest, hfuel, hx => by
    simp only [List.map_append, List.map_cons, List.append_assoc, List.cons_append] at hx
    simp only [List.length_append, List.length_cons] at hfuel
    rw [skipBlanks_to hb (by decide)] at hx
    exact skipMembers_last hx (skipString_spelled hn) (readColon_blank hb')
      (skipValueWith_written h (by omega) (ends_close hb₃ (by decide))
        (h.skipBlanks_blank hb''))
      (skipBlanks_to hb₃ (by decide))
  | .cons (.mk hb hn hb' hb'' h) hb₃ hs, fuel + 1, x, rest, hfuel, hx => by
    simp only [List.map_append, List.map_cons, List.append_assoc, List.cons_append] at hx
    simp only [List.length_append, List.length_cons] at hfuel
    rw [skipBlanks_to hb (by decide)] at hx
    rw [skipMembers_cons hx (skipString_spelled hn) (readColon_blank hb')
      (skipValueWith_written h (by omega) (ends_close hb₃ (by decide))
        (h.skipBlanks_blank hb''))
      (skipBlanks_to hb₃ (by decide))]
    exact skipMembers_written hs (by omega) rfl

end

theorem skipValue_written {t : Tree} {s : List Char} (h : Written t s) (hends : Ends rest)
    (hx : skipBlanks x = s.map some ++ rest) : skipValue x = .ok rest := by
  refine skipValueWith_written h ?_ hends hx
  have hlength := congrArg List.length hx
  have hle := length_skipBlanks_le x
  rw [List.length_append, List.length_map] at hlength
  rw [enough]
  omega

end ClusterConsole.Json
