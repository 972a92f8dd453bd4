import ClusterConsole.Proofs.Json.Printing
import ClusterConsole.Proofs.Json.Record

/-! What the readers accept. A reader that comes to a value has taken a text of this value off
the front of what it was given: tokens first, then strings, records by members and records by
items. With the lemmas on the texts of a tree this says exactly which texts a record is read
from. -/

namespace ClusterConsole.Json

variable {x rest r : Text} {c : Char} {n : Nat} {text : String} {s b b' : List Char} {t : Tree}

/-! ### Blanks -/

theorem blank_cons (hc : isBlank c) (hb : Blank b) : Blank (c :: b) := by
  intro d hd
  rcases List.mem_cons.1 hd with rfl | hd
  · exact hc
  · exact hb d hd

theorem exists_blank (x : Text) : ∃ b, Blank b ∧ x = b.map some ++ skipBlanks x := by
  induction x with
  | nil => exact ⟨[], blank_nil, rfl⟩
  | cons c x ih =>
    by_cases hc : c.any isBlank
    · obtain ⟨b, hb, hx⟩ := ih
      cases c with
      | none => cases hc
      | some c =>
        refine ⟨c :: b, blank_cons hc hb, ?_⟩
        rw [skipBlanks, List.dropWhile_cons_of_pos hc, ← skipBlanks, List.map_cons,
          List.cons_append, ← hx]
    · refine ⟨[], blank_nil, ?_⟩
      rw [skipBlanks, List.dropWhile_cons_of_neg hc, List.map_nil, List.nil_append]

theorem exists_blank_of_eq (h : skipBlanks x = r) : ∃ b, Blank b ∧ x = b.map some ++ r := by
  subst h
  exact exists_blank x

theorem exists_blank_of_readColon (h : readColon x = .ok rest) :
    ∃ b, Blank b ∧ x = b.map some ++ some ':' :: rest := by
  unfold readColon at h
  split at h
  · cases h
  · next hx =>
    cases h
    exact exists_blank_of_eq hx
  · cases h

/-- Nothing but blanks follows what a document is. -/
theorem finish_eq_ok {α : Type} {p : Read α} {a : α} :
    finish p = .ok a ↔ ∃ b, Blank b ∧ p = .ok (a, b.map some) := by
  constructor
  · intro h
    unfold finish at h
    split at h
    · cases h
    · next s =>
      split at h
      · next hs =>
        cases h
        obtain ⟨b, hb, hx⟩ := exists_blank_of_eq (List.isEmpty_iff.1 hs)
        rw [List.append_nil] at hx
        exact ⟨b, hb, by rw [hx]⟩
      · cases h
  · rintro ⟨b, hb, rfl⟩
    have hend : skipBlanks (b.map some) = [] := by
      rw [← List.append_nil (b.map some), skipBlanks_blank hb]
      rfl
    simp only [finish, hend, List.isEmpty_nil, if_true]

/-! ### Strings -/

theorem hex_of_readHex (h : readHex x = .ok (n, rest)) :
    ∃ s, Hex n s ∧ x = s.map some ++ rest := by
  unfold readHex at h
  split at h
  · cases h
  split at h
  · split at h
    · next ha hb hc hd =>
      cases h
      exact ⟨_, .mk ha hb hc hd, rfl⟩
    · cases h
  · cases h

theorem hex_of_readLowHalf (h : readLowHalf x = .ok (n, rest)) :
    ∃ s, Hex n s ∧ (0xDC00 ≤ n ∧ n ≤ 0xDFFF) ∧
      x = some '\\' :: some 'u' :: (s.map some ++ rest) := by
  unfold readLowHalf at h
  split at h
  · cases h
  · cases h
  · split at h
    · cases h
    · next hread =>
      obtain ⟨s, hs, rfl⟩ := hex_of_readHex hread
      split at h
      · cases h
      · cases h
        exact ⟨s, hs, by omega, rfl⟩
  · cases h

theorem pieceWritten_of_readCode (h : readCode x = .ok (c, rest)) :
    ∃ s, PieceWritten (.char c) ('\\' :: 'u' :: s) ∧ x = s.map some ++ rest := by
  unfold readCode at h
  split at h
  · cases h
  · next hread =>
    obtain ⟨s, hs, rfl⟩ := hex_of_readHex hread
    split at h
    · cases h
    split at h
    · cases h
      exact ⟨s, .code hs (by omega), rfl⟩
    -- What is left is a high half, and the low one has to come with an escape of its own.
    split at h
    · cases h
    · next hread =>
      obtain ⟨s', hs', hlow, rfl⟩ := hex_of_readLowHalf hread
      simp only [Except.ok.injEq, Prod.mk.injEq] at h
      obtain ⟨rfl, rfl⟩ := h
      refine ⟨s ++ '\\' :: 'u' :: s', .pair hs hs' (by omega) hlow, ?_⟩
      simp only [List.map_append, List.map_cons, List.append_assoc, List.cons_append]

theorem pieceWritten_of_readEscape (h : readEscape x = .ok (c, rest)) :
    ∃ s, PieceWritten (.char c) ('\\' :: s) ∧ x = s.map some ++ rest := by
  unfold readEscape at h
  split at h
  · cases h
  · cases h
  split at h
  · next hu =>
    obtain ⟨s, hs, rfl⟩ := pieceWritten_of_readCode h
    subst hu
    exact ⟨'u' :: s, hs, rfl⟩
  split at h
  · next hshort =>
    cases h
    exact ⟨_, .short hshort, rfl⟩
  · cases h

theorem map_eq_ok {ε α β : Type} {p : Except ε α} {f : α → β} {y : β} :
    p.map f = .ok y ↔ ∃ z, p = .ok z ∧ f z = y := by
  cases p <;> simp [Except.map]

theorem bind_eq_ok {ε α β : Type} {p : Except ε α} {f : α → Except ε β} {y : β} :
    p >>= f = .ok y ↔ ∃ z, p = .ok z ∧ f z = .ok y := by
  cases p <;> simp [bind, Except.bind]

/-- One character more has been read, and it is no gap. -/
theorem readChars_of_cons {d : Option Char} {chars : List Char}
    (h : ((readChars x).map fun (y, r) => (d :: y, r)) = .ok (chars.map some, rest)) :
    ∃ c chars', d = some c ∧ chars = c :: chars' ∧ readChars x = .ok (chars'.map some, rest) := by
  obtain ⟨⟨y, r⟩, hread, hy⟩ := map_eq_ok.1 h
  cases chars with
  | nil => cases hy
  | cons c chars =>
    cases hy
    exact ⟨c, chars, rfl, rfl, hread⟩

theorem spelled_of_readChars {chars : List Char} (h : readChars x = .ok (chars.map some, rest)) :
    ∃ s, Spelled (chars.map .char) s ∧ x = s.map some ++ some '"' :: rest := by
  fun_induction readChars x generalizing chars with
  | case1 | case4 | case6 => cases h
  | case2 x ih =>
    obtain ⟨c, chars', hc, -⟩ := readChars_of_cons h
    cases hc
  | case3 x =>
    cases chars with
    | nil =>
      cases h
      exact ⟨[], .nil, rfl⟩
    | cons c chars => cases h
  | case5 x c y hescape hquote ih =>
    obtain ⟨c, chars', hc, rfl, hread⟩ := readChars_of_cons h
    obtain ⟨s, hs, rfl⟩ := ih hread
    obtain ⟨e, he, rfl⟩ := pieceWritten_of_readEscape hescape
    cases hc
    refine ⟨'\\' :: e ++ s, .cons he hs, ?_⟩
    simp only [List.map_append, List.map_cons, List.append_assoc, List.cons_append]
  | case7 c x hquote hslash hcontrol ih =>
    obtain ⟨c, chars', hc, rfl, hread⟩ := readChars_of_cons h
    obtain ⟨s, hs, rfl⟩ := ih hread
    cases hc
    exact ⟨[c] ++ s, .cons (.plain (isPlain_iff.2 ⟨hquote, hslash, hcontrol⟩)) hs, rfl⟩

theorem spelled_of_readString (h : readString x = .ok (text, rest)) :
    ∃ s, Spelled (pieces text) s ∧ x = s.map some ++ some '"' :: rest := by
  unfold readString at h
  split at h
  · cases h
  · next hread =>
    split at h
    · next chars hchars =>
      cases h
      rw [Utf8.mapM_id_eq_some.1 hchars] at hread
      rw [pieces, String.toList_ofList]
      exact spelled_of_readChars hread
    · cases h

/-- A string after blanks. -/
theorem readText_eq_ok : readText x = .ok (text, rest) ↔
    ∃ b ps s, Blank b ∧ Written (.string ps) s ∧ text? ps = some text ∧
      x = b.map some ++ (s.map some ++ rest) := by
  constructor
  · intro h
    unfold readText at h
    split at h
    · next hx =>
      obtain ⟨b, hb, rfl⟩ := exists_blank_of_eq hx
      obtain ⟨s, hs, rfl⟩ := spelled_of_readString h
      exact ⟨b, _, _, hb, .string hs, text?_map_char text, by rw [map_enclosed]⟩
    · cases h
  · rintro ⟨b, ps, s, hb, hs, ht, rfl⟩
    exact readText_string hs ht (hs.skipBlanks_blank hb)

theorem readText_skipBlanks : readText (skipBlanks x) = readText x := by
  simp only [readText, mismatchAt, skipBlanks_skipBlanks]

/-- The value of a member stands behind a colon. -/
theorem readMember_eq_ok {α : Type} {reader : Text → Read α} {a : α}
    (h : readMember reader x = .ok (a, rest)) :
    ∃ b y, Blank b ∧ x = b.map some ++ some ':' :: y ∧ reader y = .ok (a, rest) := by
  unfold readMember at h
  split at h
  · cases h
  · next y hy =>
    obtain ⟨b, hb, hx⟩ := exists_blank_of_readColon hy
    exact ⟨b, y, hb, hx, h⟩

/-- A value that may be absent is there where no null begins. -/
theorem readOptional_eq_some {α : Type} {reader : Text → Read α} {a : α}
    (h : readOptional reader x = .ok (some a, rest)) :
    reader x = .ok (a, rest) ∧ ∀ r, skipBlanks x ≠ some 'n' :: r := by
  unfold readOptional at h
  split at h
  · obtain ⟨y, -, heq⟩ := map_eq_ok.1 h
    cases heq
  · next hnull =>
    obtain ⟨⟨a', r⟩, hread, heq⟩ := map_eq_ok.1 h
    cases heq
    exact ⟨hread, fun r hr => hnull r hr⟩

/-! ### Items -/

section
variable {α : Type} {reader : Text → Read α} {a : α} {y : Text}

theorem eq_skipBlanks_of_nextItem? (h : nextItem? true x = .ok (some y)) : y = skipBlanks x := by
  unfold nextItem? at h
  split at h
  · cases h
  · cases h
  · cases h
    rfl

theorem exists_comma_of_nextItem? (h : nextItem? false x = .ok (some y)) :
    ∃ z, skipBlanks x = some ',' :: z ∧ y = skipBlanks z := by
  unfold nextItem? at h
  split at h
  · cases h
  · cases h
  · rw [if_neg Bool.false_ne_true] at h
    split at h
    · next hx =>
      split at h
      · cases h
      · cases h
      · cases h
        exact ⟨_, hx, rfl⟩
    · cases h

theorem readItem_eq_some {first : Bool} (h : readItem first reader x = .ok (some a, rest)) :
    ∃ y, nextItem? first x = .ok (some y) ∧ reader y = .ok (a, rest) := by
  unfold readItem at h
  split at h
  · cases h
  · cases h
  · next y hy =>
    obtain ⟨⟨a', r⟩, hread, ha⟩ := map_eq_ok.1 h
    cases ha
    exact ⟨y, hy, hread⟩

theorem skipBlanks_of_closeItems (h : closeItems x = .ok rest) :
    skipBlanks x = some ']' :: rest := by
  unfold closeItems at h
  split at h
  · cases h
  · next hx =>
    cases h
    exact hx
  · cases h

end

end ClusterConsole.Json
