import ClusterConsole.Proofs.Json.Tree
import ClusterConsole.Proofs.Text.Utf8

/-! The tokens of a document are read as what they were written for, up to the text after
them: blanks, words, strings and numbers, whether they are kept or skipped. -/

namespace ClusterConsole.Json

variable {s : List Char} {rest : Text} {c : Char} {n : Nat} {p : Piece} {ps : List Piece}

/-! ### Blanks and words -/

theorem skipBlanks_blank {b : List Char} (h : Blank b) :
    skipBlanks (b.map some ++ rest) = skipBlanks rest := by
  induction b with
  | nil => rfl
  | cons c b ih =>
    rw [List.map_cons, List.cons_append, skipBlanks, List.dropWhile_cons_of_pos, ← skipBlanks]
    · exact ih fun x hx => h x (List.mem_cons_of_mem c hx)
    · exact h c List.mem_cons_self

theorem skipBlanks_cons (h : isBlank c = false) : skipBlanks (some c :: rest) = some c :: rest := by
  rw [skipBlanks, List.dropWhile_cons_of_neg]
  simp [h]

theorem skipBlanks_to {b : List Char} (h : Blank b) (hc : isBlank c = false) :
    skipBlanks (b.map some ++ some c :: rest) = some c :: rest := by
  rw [skipBlanks_blank h, skipBlanks_cons hc]

/-- A text between two characters. -/
theorem map_enclosed (first last : Char) (s : List Char) (rest : Text) :
    (first :: (s ++ [last])).map some ++ rest =
      some first :: (s.map some ++ some last :: rest) := by
  simp only [List.map_cons, List.map_append, List.map_nil, List.cons_append, List.append_assoc,
    List.nil_append]

theorem readWord_append (w : List Char) : readWord w (w.map some ++ rest) = .ok rest := by
  induction w with
  | nil => rfl
  | cons c w ih => rw [List.map_cons, List.cons_append, readWord, if_pos rfl, ih]

theorem readColon_blank {b : List Char} (h : Blank b) :
    readColon (b.map some ++ some ':' :: rest) = .ok rest := by
  have hcolon : skipBlanks (b.map some ++ some ':' :: rest) = some ':' :: rest :=
    skipBlanks_to h (by decide)
  simp only [readColon, hcolon]

/-! ### Escapes -/

theorem readHex_append (h : Hex n s) : readHex (s.map some ++ rest) = .ok (n, rest) := by
  obtain @⟨a, b, c, d, w, x, y, z, ha, hb, hc, hd⟩ := h
  have hsize : ¬ byteSize [some a, some b, some c, some d] < 4 := by
    have := a.utf8Size_pos
    have := b.utf8Size_pos
    have := c.utf8Size_pos
    have := d.utf8Size_pos
    simp only [byteSize, List.foldl_cons, List.foldl_nil, Option.elim]
    omega
  simp only [List.map_cons, List.map_nil, List.cons_append, List.nil_append, readHex, List.take,
    if_neg hsize, ha, hb, hc, hd]

theorem readCode_append (h : Hex n s) (hn : n < 0xD800 ∨ 0xDFFF < n) :
    readCode (s.map some ++ rest) = .ok (Char.ofNat n, rest) := by
  simp only [readCode, readHex_append h]
  rw [if_neg (by omega), if_pos (by omega)]

theorem readCode_pair {high low : Nat} {s' : List Char} (h : Hex high s) (h' : Hex low s')
    (hhigh : 0xD800 ≤ high ∧ high ≤ 0xDBFF) (hlow : 0xDC00 ≤ low ∧ low ≤ 0xDFFF) :
    readCode (s.map some ++ some '\\' :: some 'u' :: (s'.map some ++ rest)) =
      .ok (Char.ofNat (0x10000 + (high - 0xD800) * 0x400 + (low - 0xDC00)), rest) := by
  simp only [readCode, readHex_append h, readLowHalf, readHex_append h']
  rw [if_neg (by omega), if_neg (by omega), if_neg (by omega)]

theorem shortEscape?_u : shortEscape? 'u' = none := by decide

theorem readEscape_short {e : Char} (h : shortEscape? e = some c) :
    readEscape (some e :: rest) = .ok (c, rest) := by
  have hu : e ≠ 'u' := by
    rintro rfl
    rw [shortEscape?_u] at h
    cases h
  simp only [readEscape, if_neg hu, h]

theorem skipEscape_short {e : Char} (h : shortEscape? e = some c) :
    skipEscape (some e :: rest) = .ok rest := by
  have hu : e ≠ 'u' := by
    rintro rfl
    rw [shortEscape?_u] at h
    cases h
  simp only [skipEscape, if_neg hu, h, Option.isSome_some, if_true]

theorem readEscape_u (s : Text) : readEscape (some 'u' :: s) = readCode s := by
  rw [readEscape, if_pos rfl]

theorem skipEscape_u (h : Hex n s) : skipEscape (some 'u' :: (s.map some ++ rest)) = .ok rest := by
  rw [skipEscape, if_pos rfl, readHex_append h]
  rfl

/-! ### Strings -/

theorem readChars_quote : readChars (some '"' :: rest) = .ok ([], rest) := by
  rw [readChars, if_pos rfl]

theorem isPlain_iff : isPlain c ↔ c ≠ '"' ∧ c ≠ '\\' ∧ ¬ c < ' ' := by
  simp [isPlain, and_assoc]

theorem readChars_plain (h : isPlain c) :
    readChars (some c :: rest) = (readChars rest).map fun (t, r) => (some c :: t, r) := by
  obtain ⟨hquote, hslash, hcontrol⟩ := isPlain_iff.1 h
  rw [readChars, if_neg hquote, if_neg hslash, if_neg hcontrol]

theorem readChars_escape {s : Text} (h : readEscape s = .ok (c, rest)) :
    readChars (some '\\' :: s) = (readChars rest).map fun (t, r) => (some c :: t, r) := by
  rw [readChars, if_neg (by decide), if_pos rfl]
  split
  · next he => rw [h] at he; cases he
  · next he => rw [h] at he; cases he; rfl

theorem skipString_quote : skipString (some '"' :: rest) = .ok rest := by
  rw [skipString, if_pos rfl]

theorem skipString_plain (h : isPlain c) :
    skipString (some c :: rest) = skipString rest := by
  obtain ⟨hquote, hslash, hcontrol⟩ := isPlain_iff.1 h
  rw [skipString, if_neg hquote, if_neg hslash, if_neg hcontrol]

theorem skipString_escape {s : Text} (h : skipEscape s = .ok rest) :
    skipString (some '\\' :: s) = skipString rest := by
  rw [skipString, if_neg (by decide), if_pos rfl]
  split
  · next he => rw [h] at he; cases he
  · next he => rw [h] at he; cases he; rfl

theorem readChars_piece (h : PieceWritten p s) (hc : p.char? = some c) :
    readChars (s.map some ++ rest) = (readChars rest).map fun (t, r) => (some c :: t, r) := by
  cases h with
  | plain h =>
    rw [← Option.some.inj hc]
    exact readChars_plain h
  | short h =>
    rw [← Option.some.inj hc]
    exact readChars_escape (readEscape_short h)
  | code h hn =>
    rw [← Option.some.inj hc]
    exact readChars_escape ((readEscape_u _).trans (readCode_append h hn))
  | pair h h' hhigh hlow =>
    rw [← Option.some.inj hc]
    simp only [List.map_cons, List.map_append, List.cons_append, List.append_assoc]
    exact readChars_escape ((readEscape_u _).trans (readCode_pair h h' hhigh hlow))
  | half h hn => cases hc

theorem skipString_piece (h : PieceWritten p s) :
    skipString (s.map some ++ rest) = skipString rest := by
  cases h with
  | plain h => exact skipString_plain h
  | short h => exact skipString_escape (skipEscape_short h)
  | code h hn => exact skipString_escape (skipEscape_u h)
  | pair h h' hhigh hlow =>
    -- A pair is skipped as two escapes.
    simp only [List.map_cons, List.map_append, List.cons_append, List.append_assoc]
    rw [skipString_escape (skipEscape_u h), skipString_escape (skipEscape_u h')]
  | half h hn => exact skipString_escape (skipEscape_u h)

theorem readChars_spelled (h : Spelled ps s) {text : List Char}
    (ht : ps.mapM Piece.char? = some text) :
    readChars (s.map some ++ some '"' :: rest) = .ok (text.map some, rest) := by
  induction h generalizing text with
  | nil =>
    cases ht
    exact readChars_quote
  | cons hp h ih =>
    rw [List.mapM_cons] at ht
    simp only [Option.bind_eq_bind, Option.bind_eq_some_iff, Option.pure_def,
      Option.some.injEq] at ht
    obtain ⟨c, hc, text, ht, rfl⟩ := ht
    rw [List.map_append, List.append_assoc, readChars_piece hp hc, ih ht]
    rfl

theorem readString_spelled (h : Spelled ps s) {text : String} (ht : text? ps = some text) :
    readString (s.map some ++ some '"' :: rest) = .ok (text, rest) := by
  obtain ⟨chars, hchars, rfl⟩ := Option.map_eq_some_iff.1 ht
  simp only [readString, readChars_spelled h hchars, Utf8.mapM_id_eq_some.2 rfl]

theorem skipString_spelled (h : Spelled ps s) :
    skipString (s.map some ++ some '"' :: rest) = .ok rest := by
  induction h with
  | nil => exact skipString_quote
  | cons hp h ih => rw [List.map_append, List.append_assoc, skipString_piece hp, ih]

end ClusterConsole.Json
