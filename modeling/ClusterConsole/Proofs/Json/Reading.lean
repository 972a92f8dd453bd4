import ClusterConsole.Proofs.Json.Numeral
import ClusterConsole.Proofs.Json.Token
import Mathlib.Data.List.DropRight

/-! A text of a tree is read as the value of the tree, up to the text after it, if the tree
has a value and no more levels than allowed. The proof follows the text: one lemma for each
way that a value may begin, then one recursion over values, items and members. -/

namespace ClusterConsole.Json

variable {fuel levels : Nat} {x y rest r : Text} {c : Char} {b s : List Char} {t : Tree}
  {ts : List Tree} {ms : List (List Piece × Tree)}

/-! ### What follows a value -/

theorem ends_cons (h : c.isDigit = false ∧ c ≠ '.' ∧ c ≠ 'e' ∧ c ≠ 'E') :
    Ends (some c :: rest) where
  noDigit _ hd := by cases hd; exact h.1
  noPoint hd := h.2.1 (Option.some.inj (Option.some.inj hd))
  noLower hd := h.2.2.1 (Option.some.inj (Option.some.inj hd))
  noUpper hd := h.2.2.2 (Option.some.inj (Option.some.inj hd))

theorem ends_blank (hb : Blank b) (h : Ends rest) : Ends (b.map some ++ rest) := by
  cases b with
  | nil => exact h
  | cons c b =>
    refine ends_cons ?_
    have hc : isBlank c = true := hb c List.mem_cons_self
    simp only [isBlank, Bool.or_eq_true, beq_iff_eq] at hc
    rcases hc with ((rfl | rfl) | rfl) | rfl <;> decide

/-- A number ends at blanks and a comma, or at blanks and a closing bracket. -/
theorem ends_close (hb : Blank b) (hc : c ∈ [',', ']', '\x7d']) :
    Ends (b.map some ++ some c :: rest) := by
  refine ends_blank hb (ends_cons ?_)
  simp only [List.mem_cons, List.not_mem_nil, or_false] at hc
  rcases hc with rfl | rfl | rfl <;> decide

/-! ### What a value begins with -/

/-- The first character of a text of a tree. -/
inductive Begins : Tree → Char → Prop
  | null : Begins .null 'n'
  | yes : Begins (.bool true) 't'
  | no : Begins (.bool false) 'f'
  | minus {n : Numeral} : Begins (.number n) '-'
  | digit {n : Numeral} {c : Char} (h : c.isDigit) : Begins (.number n) c
  | string {ps : List Piece} : Begins (.string ps) '"'
  | array {ts : List Tree} : Begins (.array ts) '['
  | object {ms : List (List Piece × Tree)} : Begins (.object ms) '\x7b'

theorem Written.begins (h : Written t s) : ∃ c r, s = c :: r ∧ Begins t c := by
  cases h with
  | null => exact ⟨_, _, rfl, .null⟩
  | bool value =>
    cases value with
    | false => exact ⟨_, _, rfl, .no⟩
    | true => exact ⟨_, _, rfl, .yes⟩
  | number n =>
    obtain ⟨_ | _, ⟨_ | ⟨d, ds⟩, hds⟩, _, _, _⟩ := n
    · exact absurd rfl hds
    · exact ⟨_, _, rfl, .digit (isDigit_digitChar d)⟩
    · exact absurd rfl hds
    · exact ⟨_, _, rfl, .minus⟩
  | string h => exact ⟨_, _, rfl, .string⟩
  | noItems h => exact ⟨_, _, rfl, .array⟩
  | array h => exact ⟨_, _, rfl, .array⟩
  | noMembers h => exact ⟨_, _, rfl, .object⟩
  | object h => exact ⟨_, _, rfl, .object⟩

/-- No value starts with a character that has no place at the start of one. -/
theorem Begins.ne {d : Char} (h : Begins t c)
    (hd : d ∉ ['n', 't', 'f', '-', '"', '[', '\x7b'] ∧ d.isDigit = false) : c ≠ d := by
  rintro rfl
  obtain ⟨hd, hdigit⟩ := hd
  cases h with
  | digit h => rw [hdigit] at h; cases h
  | _ => exact hd (by simp)

theorem Begins.isBlank (h : Begins t c) : isBlank c = false := by
  have hspace := h.ne (d := ' ') (by decide)
  have hline := h.ne (d := '\n') (by decide)
  have htab := h.ne (d := '\t') (by decide)
  have hreturn := h.ne (d := '\r') (by decide)
  simp [Json.isBlank, hspace, hline, htab, hreturn]

theorem Written.length_pos (h : Written t s) : 0 < s.length := by
  obtain ⟨c, r, rfl, -⟩ := h.begins
  exact Nat.succ_pos _

theorem Written.skipBlanks (h : Written t s) :
    skipBlanks (s.map some ++ rest) = s.map some ++ rest := by
  obtain ⟨c, r, rfl, hc⟩ := h.begins
  exact skipBlanks_cons hc.isBlank

theorem Written.skipBlanks_blank (h : Written t s) (hb : Blank b) :
    Json.skipBlanks (b.map some ++ (s.map some ++ rest)) = s.map some ++ rest := by
  rw [Json.skipBlanks_blank hb, h.skipBlanks]

theorem skipBlanks_skipBlanks (x : Text) : skipBlanks (skipBlanks x) = skipBlanks x :=
  List.dropWhile_idempotent _ x

theorem length_skipBlanks_le (x : Text) : (skipBlanks x).length ≤ x.length :=
  (List.dropWhile_suffix _).length_le

/-! ### One step of reading -/

section

attribute [local simp] readValue readItems readMembers

theorem readValue_null (hx : skipBlanks x = some 'n' :: r) :
    readValue (fuel + 1) levels x = (readWord "ull".toList r).map (.null, ·) := by
  simp [hx]

theorem readValue_true (hx : skipBlanks x = some 't' :: r) :
    readValue (fuel + 1) levels x = (readWord "rue".toList r).map (.bool true, ·) := by
  simp [hx]

theorem readValue_false (hx : skipBlanks x = some 'f' :: r) :
    readValue (fuel + 1) levels x = (readWord "alse".toList r).map (.bool false, ·) := by
  simp [hx]

theorem readValue_minus (hx : skipBlanks x = some '-' :: r) :
    readValue (fuel + 1) levels x = (Number.read true r).map fun (n, r) => (.number n, r) := by
  simp [hx]

theorem readValue_digit (hx : skipBlanks x = some c :: r) (hc : c.isDigit) :
    readValue (fuel + 1) levels x =
      (Number.read false (some c :: r)).map fun (n, r) => (.number n, r) := by
  have hn : c ≠ 'n' := by rintro rfl; cases hc
  have ht : c ≠ 't' := by rintro rfl; cases hc
  have hf : c ≠ 'f' := by rintro rfl; cases hc
  have hm : c ≠ '-' := by rintro rfl; cases hc
  simp only [readValue, hx, if_neg hn, if_neg ht, if_neg hf, if_neg hm, if_pos hc]

theorem readValue_number {n : Numeral} {number : Number}
    (hx : skipBlanks x = n.text.map some ++ rest) (hends : Ends rest)
    (hn : n.value.toOption = some number) :
    readValue (fuel + 1) levels x = .ok (.number number, rest) := by
  have hvalue : n.value = .ok number := by
    cases hv : n.value with
    | error e => rw [hv] at hn; cases hn
    | ok m => rw [hv] at hn; rw [Option.some.inj hn]
  have hread := Numeral.read_unsigned n hends
  rw [hvalue] at hread
  rw [Numeral.text] at hx
  split at hx
  · next hneg =>
    rw [List.map_cons, List.cons_append] at hx
    rw [readValue_minus hx, ← hneg, hread]
    rfl
  · next hneg =>
    rw [Bool.not_eq_true] at hneg
    obtain ⟨c, r, hc, hr⟩ := n.unsigned_cons rest
    rw [hr] at hx hread
    rw [readValue_digit hx hc, ← hneg, hread]
    rfl

theorem readValue_quote (hx : skipBlanks x = some '"' :: r) :
    readValue (fuel + 1) levels x = (readString r).map fun (t, r) => (.string t, r) := by
  simp [hx]

theorem readValue_noItems (hx : skipBlanks x = some '[' :: r)
    (hr : skipBlanks r = some ']' :: rest) :
    readValue (fuel + 1) (levels + 1) x = .ok (.array [], rest) := by
  simp [hx, hr]

theorem readValue_items (hx : skipBlanks x = some '[' :: r)
    (hr : (skipBlanks r).head? ≠ some (some ']')) :
    readValue (fuel + 1) (levels + 1) x =
      (readItems fuel levels (skipBlanks r)).map fun (items, r) => (.array items, r) := by
  have hdigit : '['.isDigit = false := by decide
  simp only [readValue, hx, Char.reduceEq, hdigit, reduceIte, Bool.false_eq_true]
  split
  · next h => rw [h] at hr; exact absurd rfl hr
  · rfl

theorem readValue_noMembers (hx : skipBlanks x = some '\x7b' :: r)
    (hr : skipBlanks r = some '\x7d' :: rest) :
    readValue (fuel + 1) (levels + 1) x = .ok (.object [], rest) := by
  simp [hx, hr]

theorem readValue_members (hx : skipBlanks x = some '\x7b' :: r)
    (hr : (skipBlanks r).head? ≠ some (some '\x7d')) :
    readValue (fuel + 1) (levels + 1) x =
      (readMembers fuel levels (skipBlanks r)).map fun (members, r) => (.object members, r) := by
  have hdigit : '\x7b'.isDigit = false := by decide
  simp only [readValue, hx, Char.reduceEq, hdigit, reduceIte, Bool.false_eq_true]
  split
  · next h => rw [h] at hr; exact absurd rfl hr
  · rfl

section
variable {v : Json} {name : String} {r' z : Text}

theorem readItems_last (hv : readValue fuel levels x = .ok (v, y))
    (hy : skipBlanks y = some ']' :: rest) :
    readItems (fuel + 1) levels x = .ok ([v], rest) := by
  simp only [readItems, hv, hy]

theorem readItems_cons (hv : readValue fuel levels x = .ok (v, y))
    (hy : skipBlanks y = some ',' :: rest) :
    readItems (fuel + 1) levels x =
      (readItems fuel levels rest).map fun (vs, r) => (v :: vs, r) := by
  simp only [readItems, hv, hy]

theorem readMembers_last (hx : skipBlanks x = some '"' :: r)
    (hname : readString r = .ok (name, r')) (hcolon : readColon r' = .ok z)
    (hv : readValue fuel levels z = .ok (v, y)) (hy : skipBlanks y = some '\x7d' :: rest) :
    readMembers (fuel + 1) levels x = .ok ([(name, v)], rest) := by
  simp only [readMembers, hx, hname, hcolon, hv, hy]

theorem readMembers_cons (hx : skipBlanks x = some '"' :: r)
    (hname : readString r = .ok (name, r')) (hcolon : readColon r' = .ok z)
    (hv : readValue fuel levels z = .ok (v, y)) (hy : skipBlanks y = some ',' :: rest) :
    readMembers (fuel + 1) levels x =
      (readMembers fuel levels rest).map fun (ms, r) => ((name, v) :: ms, r) := by
  simp only [readMembers, hx, hname, hcolon, hv, hy]

end

end

/-! ### Text around values -/

theorem ItemsWritten.head?_skipBlanks (h : ItemsWritten ts s) :
    (skipBlanks (s.map some ++ rest)).head? ≠ some (some ']') := by
  have hvalue {t : Tree} {b s : List Char} (hb : Blank b) (h : Written t s) (r : Text) :
      (skipBlanks (b.map some ++ (s.map some ++ r))).head? ≠ some (some ']') := by
    obtain ⟨c, s', rfl, hc⟩ := h.begins
    rw [h.skipBlanks_blank hb]
    exact fun he => hc.ne (by decide) (Option.some.inj (Option.some.inj he))
  cases h with
  | last hb h hb' =>
    simp only [List.map_append, List.append_assoc]
    exact hvalue hb h _
  | cons hb h hb' hs =>
    simp only [List.map_append, List.append_assoc]
    exact hvalue hb h _

theorem MembersWritten.head?_skipBlanks (h : MembersWritten ms s) :
    (skipBlanks (s.map some ++ rest)).head? ≠ some (some '\x7d') := by
  have hmember {b : List Char} (hb : Blank b) (r : Text) :
      (skipBlanks (b.map some ++ some '"' :: r)).head? ≠ some (some '\x7d') := by
    rw [skipBlanks_to hb (by decide)]
    simp
  cases h with
  | last h hb' =>
    obtain ⟨hb, hn, hb', hb'', h⟩ := h
    simp only [List.map_append, List.map_cons, List.append_assoc, List.cons_append]
    exact hmember hb _
  | cons h hb' hs =>
    obtain ⟨hb, hn, hb', hb'', h⟩ := h
    simp only [List.map_append, List.map_cons, List.append_assoc, List.cons_append]
    exact hmember hb _

/-! ### Values that are kept -/

mutual

theorem readValue_written {t : Tree} {s : List Char} : Written t s →
    ∀ {v : Json} {fuel levels : Nat} {x rest : Text}, t.value? = some v → t.levels ≤ levels →
      2 * s.length ≤ fuel → Ends rest → skipBlanks x = s.map some ++ rest →
      readValue fuel levels x = .ok (v, rest)
  | .null, v, fuel + 1, levels, x, rest, hv, _, _, _, hx => by
    rw [readValue_null hx, ← Option.some.inj hv]
    rfl
  | .bool true, v, fuel + 1, levels, x, rest, hv, _, _, _, hx => by
    rw [readValue_true hx, ← Option.some.inj hv]
    rfl
  | .bool false, v, fuel + 1, levels, x, rest, hv, _, _, _, hx => by
    rw [readValue_false hx, ← Option.some.inj hv]
    rfl
  | .number n, v, fuel, levels, x, rest, hv, _, hfuel, hends, hx => by
    obtain ⟨number, hn, rfl⟩ := Option.map_eq_some_iff.1 hv
    obtain ⟨fuel, rfl⟩ : ∃ k, fuel = k + 1 :=
      Nat.exists_eq_add_one.2 (by have := (Written.number n).length_pos; omega)
    exact readValue_number hx hends hn
  | .string h, v, fuel + 1, levels, x, rest, hv, _, _, _, hx => by
    obtain ⟨text, ht, rfl⟩ := Option.map_eq_some_iff.1 hv
    rw [map_enclosed] at hx
    rw [readValue_quote hx, readString_spelled h ht]
    rfl
  | .noItems hb, v, fuel + 1, levels + 1, x, rest, hv, _, _, _, hx => by
    rw [map_enclosed] at hx
    rw [← Option.some.inj hv]
    exact readValue_noItems hx (skipBlanks_to hb (by decide))
  | .array h, v, fuel + 1, levels + 1, x, rest, hv, hlevels, hfuel, _, hx => by
    obtain ⟨vs, hvs, rfl⟩ := Option.map_eq_some_iff.1 hv
    rw [map_enclosed] at hx
    simp only [List.length_cons, List.length_append, List.length_nil] at hfuel
    rw [readValue_items hx h.head?_skipBlanks, readItems_written h hvs
      (Nat.le_of_succ_le_succ hlevels) (by omega) (skipBlanks_skipBlanks _)]
    rfl
  | .noMembers hb, v, fuel + 1, levels + 1, x, rest, hv, _, _, _, hx => by
    rw [map_enclosed] at hx
    rw [← Option.some.inj hv]
    exact readValue_noMembers hx (skipBlanks_to hb (by decide))
  | .object h, v, fuel + 1, levels + 1, x, rest, hv, hlevels, hfuel, _, hx => by
    obtain ⟨vs, hvs, rfl⟩ := Option.map_eq_some_iff.1 hv
    rw [map_enclosed] at hx
    simp only [List.length_cons, List.length_append, List.length_nil] at hfuel
    rw [readValue_members hx h.head?_skipBlanks, readMembers_written h hvs
      (Nat.le_of_succ_le_succ hlevels) (by omega) (skipBlanks_skipBlanks _)]
    rfl

theorem readItems_written {ts : List Tree} {s : List Char} : ItemsWritten ts s →
    ∀ {vs : List Json} {fuel levels : Nat} {x rest : Text}, itemsValue? ts = some vs →
      itemsLevels ts ≤ levels → 2 * s.length + 1 ≤ fuel →
      skipBlanks x = skipBlanks (s.map some ++ some ']' :: rest) →
      readItems fuel levels x = .ok (vs, rest)
  | .last hb h hb', vs, fuel + 1, levels, x, rest, hvalue, hlevels, hfuel, hx => by
    obtain ⟨v, vs, hv, hvs, rfl⟩ := itemsValue?_cons hvalue
    cases hvs
    simp only [List.map_append, List.append_assoc] at hx
    simp only [List.length_append] at hfuel
    rw [h.skipBlanks_blank hb] at hx
    rw [itemsLevels, Nat.max_le] at hlevels
    exact readItems_last
      (readValue_written h hv hlevels.1 (by omega) (ends_close hb' (by decide)) hx)
      (skipBlanks_to hb' (by decide))
  | .cons hb h hb' hs, vs, fuel + 1, levels, x, rest, hvalue, hlevels, hfuel, hx => by
    obtain ⟨v, vs, hv, hvs, rfl⟩ := itemsValue?_cons hvalue
    simp only [List.map_append, List.map_cons, List.append_assoc, List.cons_append] at hx
    simp only [List.length_append, List.length_cons] at hfuel
    rw [h.skipBlanks_blank hb] at hx
    rw [itemsLevels, Nat.max_le] at hlevels
    rw [readItems_cons
      (readValue_written h hv hlevels.1 (by omega) (ends_close hb' (by decide)) hx)
      (skipBlanks_to hb' (by decide)),
      readItems_written hs hvs hlevels.2 (by omega) rfl]
    rfl

theorem readMembers_written {ms : List (List Piece × Tree)} {s : List Char} :
    MembersWritten ms s →
    ∀ {vs : List (String × Json)} {fuel levels : Nat} {x rest : Text},
      membersValue? ms = some vs → membersLevels ms ≤ levels → 2 * s.length + 1 ≤ fuel →
      skipBlanks x = skipBlanks (s.map some ++ some '\x7d' :: rest) →
      readMembers fuel levels x = .ok (vs, rest)
  | .last (.mk hb hn hb' hb'' h) hb₃, vs, fuel + 1, levels, x, rest, hvalue, hlevels, hfuel,
    hx => by
    obtain ⟨name, v, vs, hname, hv, hvs, rfl⟩ := membersValue?_cons hvalue
    cases hvs
    simp only [List.map_append, List.map_cons, List.append_assoc, List.cons_append] at hx
    simp only [List.length_append, List.length_cons] at hfuel
    rw [skipBlanks_to hb (by decide)] at hx
    rw [membersLevels, Nat.max_le] at hlevels
    exact readMembers_last hx (readString_spelled hn hname) (readColon_blank hb')
      (readValue_written h hv hlevels.1 (by omega) (ends_close hb₃ (by decide))
        (h.skipBlanks_blank hb''))
      (skipBlanks_to hb₃ (by decide))
  | .cons (.mk hb hn hb' hb'' h) hb₃ hs, vs, fuel + 1, levels, x, rest, hvalue, hlevels, hfuel,
    hx => by
    obtain ⟨name, v, vs, hname, hv, hvs, rfl⟩ := membersValue?_cons hvalue
    simp only [List.map_append, List.map_cons, List.append_assoc, List.cons_append] at hx
    simp only [List.length_append, List.length_cons] at hfuel
    rw [skipBlanks_to hb (by decide)] at hx
    rw [membersLevels, Nat.max_le] at hlevels
    rw [readMembers_cons hx (readString_spelled hn hname) (readColon_blank hb')
        (readValue_written h hv hlevels.1 (by omega) (ends_close hb₃ (by decide))
          (h.skipBlanks_blank hb''))
        (skipBlanks_to hb₃ (by decide)),
      readMembers_written hs hvs hlevels.2 (by omega) rfl]
    rfl

end

/-- A value that is kept inside of `outer` levels. -/
theorem read_written {v : Json} {outer : Nat} (h : Written t s) (hv : t.value? = some v)
    (hlevels : t.levels ≤ maxLevels - outer) (hends : Ends rest)
    (hx : skipBlanks x = s.map some ++ rest) : read outer x = .ok (v, rest) := by
  refine readValue_written h hv hlevels ?_ hends hx
  have hlength := congrArg List.length hx
  have hle := length_skipBlanks_le x
  rw [List.length_append, List.length_map] at hlength
  rw [enough]
  omega

end ClusterConsole.Json
