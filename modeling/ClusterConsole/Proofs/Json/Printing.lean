import ClusterConsole.Json.Print
import ClusterConsole.Proofs.Json.Tree
import Mathlib.Data.List.Forall2

/-! What the printer writes is a text of a tree, in which strings are spelled with the escapes
that they need and nothing stands between the tokens. -/

namespace ClusterConsole.Json

variable {c : Char} {v : Json} {t : Tree} {ms : List (String × Json)}
  {ts : List (List Piece × Tree)}

/-- A string as its characters. -/
def pieces (s : String) : List Piece := s.toList.map .char

/-! ### Strings -/

theorem hexValue?_lowerHexDigit :
    ∀ n < 16, Percent.hexValue? (lowerHexDigit n) = some n := by decide

theorem hex_control (hc : c < ' ') :
    Hex c.toNat ['0', '0', lowerHexDigit (c.toNat / 16), lowerHexDigit (c.toNat % 16)] := by
  have hbound : c.toNat < 32 := hc
  have hhigh := hexValue?_lowerHexDigit (c.toNat / 16) (by omega)
  have hlow := hexValue?_lowerHexDigit (c.toNat % 16) (by omega)
  have h := Hex.mk (a := '0') (b := '0') (w := 0) (x := 0) rfl rfl hhigh hlow
  have hsum : ((0 * 16 + 0) * 16 + c.toNat / 16) * 16 + c.toNat % 16 = c.toNat := by omega
  rwa [hsum] at h

/-- A control character without an escape of its own is written by its code. -/
theorem pieceWritten_control (hc : c < ' ') : PieceWritten (.char c)
    ['\\', 'u', '0', '0', lowerHexDigit (c.toNat / 16), lowerHexDigit (c.toNat % 16)] := by
  have hbound : c.toNat < 32 := hc
  have h := PieceWritten.code (hex_control hc) (.inl (by omega))
  rwa [Char.ofNat_toNat] at h

theorem pieceWritten_escapeChar (c : Char) : PieceWritten (.char c) (escapeChar c) := by
  unfold escapeChar
  split
  · next h =>
    subst h
    exact .short rfl
  split
  · next h =>
    subst h
    exact .short rfl
  split
  · next h =>
    subst h
    exact .short rfl
  split
  · next h =>
    subst h
    exact .short rfl
  split
  · next h =>
    subst h
    exact .short rfl
  split
  · next h =>
    subst h
    exact .short rfl
  split
  · next h =>
    subst h
    exact .short rfl
  split
  · next h => exact pieceWritten_control h
  · next hquote hbackslash _ _ _ _ _ hcontrol =>
    refine .plain ?_
    simp only [isPlain, Bool.and_eq_true, bne_iff_ne, Bool.not_eq_true', decide_eq_false_iff_not]
    exact ⟨⟨hquote, hbackslash⟩, hcontrol⟩

theorem spelled_escapeChar (text : List Char) :
    Spelled (text.map .char) (text.flatMap escapeChar) := by
  induction text with
  | nil => exact .nil
  | cons c text ih => exact .cons (pieceWritten_escapeChar c) ih

theorem printString_eq (s : String) :
    printString s = '"' :: (s.toList.flatMap escapeChar ++ ['"']) := rfl

theorem written_printString (s : String) : Written (.string (pieces s)) (printString s) :=
  .string (spelled_escapeChar s.toList)

/-! ### Objects -/

/-- The tree of a member's value is what the printer writes for it. -/
def Printed (m : String × Json) (m' : List Piece × Tree) : Prop :=
  m'.1 = pieces m.1 ∧ Written m'.2 (print m.2)

theorem Printed.written {m : String × Json} {m' : List Piece × Tree} (h : Printed m m') :
    MemberWritten m' (printString m.1 ++ ':' :: print m.2) := by
  obtain ⟨ps, t⟩ := m'
  obtain ⟨rfl, hwritten⟩ := h
  have h := MemberWritten.mk blank_nil (spelled_escapeChar m.1.toList) blank_nil blank_nil hwritten
  simpa only [pieces, printString_eq, List.nil_append, List.cons_append, List.append_assoc] using h

/-- The members after the first, up to the closing brace. -/
theorem membersWritten_printMembers {m : String × Json} {m' : List Piece × Tree}
    (h : Printed m m') (hs : List.Forall₂ Printed ms ts) :
    ∃ text, MembersWritten (m' :: ts) text ∧
      printString m.1 ++ ':' :: print m.2 ++ printMembers ms = text ++ ['\x7d'] := by
  induction hs generalizing m m' with
  | nil =>
    refine ⟨_, .last h.written blank_nil, ?_⟩
    rw [printMembers, List.append_nil]
  | @cons n n' ms ts hn _ ih =>
    obtain ⟨text, hwritten, htext⟩ := ih hn
    refine ⟨_, .cons h.written blank_nil hwritten, ?_⟩
    rw [printMembers, List.cons_append, List.cons_append, htext]
    simp only [List.nil_append, List.append_assoc, List.cons_append]

theorem written_print_object (h : List.Forall₂ Printed ms ts) :
    Written (.object ts) (print (.object ms)) := by
  cases h with
  | nil => exact .noMembers blank_nil
  | @cons m m' ms ts hm hs =>
    obtain ⟨text, hwritten, htext⟩ := membersWritten_printMembers hm hs
    have h := Written.object hwritten
    rw [← htext] at h
    simpa only [print, List.cons_append] using h

theorem document_print (h : Written t (print v)) : Document t (print v) := by
  have hdocument := Document.mk blank_nil h blank_nil
  rwa [List.nil_append, List.append_nil] at hdocument

end ClusterConsole.Json
