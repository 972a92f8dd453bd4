import ClusterConsole.Text.Percent
import ClusterConsole.Text.Utf8

/-! The text of a JSON document and how it is read: from the front, each reader
giving its value and the rest. A document of bytes may have gaps; they are
refused outside strings, and in the strings that are kept. -/

namespace ClusterConsole.Json

/-- The characters of a document, `none` for a byte that belongs to no
character. -/
abbrev Text := List (Option Char)

def Text.ofString (s : String) : Text := s.toList.map some

def Text.ofBytes (bytes : List UInt8) : Text := Utf8.decode bytes

/-- Why a document was not read: it is no JSON, or a value that is kept cannot be
held; it is JSON of another shape than the one asked for; or it ended early. -/
inductive Error where
  | malformed
  | mismatch
  | truncated
  deriving DecidableEq, Repr, Inhabited

/-- What a reader gives: a value, and the text after it. -/
abbrev Read (α : Type) := Except Error (α × Text)

def isBlank (c : Char) : Bool := c == ' ' || c == '\n' || c == '\t' || c == '\r'

def skipBlanks (s : Text) : Text := s.dropWhile (·.any isBlank)

/-- The text after the given characters. -/
def readWord : List Char → Text → Except Error Text
  | [], s => .ok s
  | _ :: _, [] => .error .truncated
  | c :: w, x :: s => if x = some c then readWord w s else .error .malformed

/-- The text after the colon of a member. -/
def readColon (s : Text) : Except Error Text :=
  match skipBlanks s with
  | [] => .error .truncated
  | some ':' :: r => .ok r
  | _ => .error .malformed

/-- Nothing but blanks may follow a document. -/
def finish {α : Type} (x : Read α) : Except Error α :=
  match x with
  | .error e => .error e
  | .ok (a, s) => if (skipBlanks s).isEmpty then .ok a else .error .malformed

/-! ### Strings -/

def byteSize (s : Text) : Nat := s.foldl (fun n x => n + x.elim 1 Char.utf8Size) 0

/-- Four hexadecimal digits. Fewer than four bytes end the text early, whatever
they are. -/
def readHex (s : Text) : Read Nat :=
  if byteSize (s.take 4) < 4 then .error .truncated
  else
    match s with
    | some a :: some b :: some c :: some d :: r =>
      match Percent.hexValue? a, Percent.hexValue? b, Percent.hexValue? c, Percent.hexValue? d with
      | some w, some x, some y, some z => .ok (((w * 16 + x) * 16 + y) * 16 + z, r)
      | _, _, _, _ => .error .malformed
    | _ => .error .malformed

/-- What the character after a backslash stands for. -/
def shortEscape? (c : Char) : Option Char :=
  if c = '"' ∨ c = '\\' ∨ c = '/' then some c
  else if c = 'b' then some '\x08'
  else if c = 'f' then some '\x0c'
  else if c = 'n' then some '\n'
  else if c = 'r' then some '\r'
  else if c = 't' then some '\t'
  else none

/-- The low half of a pair of escapes. -/
def readLowHalf (s : Text) : Read Nat :=
  match s with
  | [] => .error .truncated
  | [some '\\'] => .error .truncated
  | some '\\' :: some 'u' :: r =>
    match readHex r with
    | .error e => .error e
    | .ok (low, r) => if low < 0xDC00 ∨ 0xDFFF < low then .error .malformed else .ok (low, r)
  | _ => .error .malformed

/-- A character by its code, above 16 bits by two halves. -/
def readCode (s : Text) : Read Char :=
  match readHex s with
  | .error e => .error e
  | .ok (n, r) =>
    if 0xDC00 ≤ n ∧ n ≤ 0xDFFF then .error .malformed
    else if n < 0xD800 ∨ 0xDBFF < n then .ok (Char.ofNat n, r)
    else
      match readLowHalf r with
      | .error e => .error e
      | .ok (low, r) => .ok (Char.ofNat (0x10000 + (n - 0xD800) * 0x400 + (low - 0xDC00)), r)

/-- The character that an escape stands for, from after its backslash. -/
def readEscape (s : Text) : Read Char :=
  match s with
  | [] => .error .truncated
  | none :: _ => .error .malformed
  | some c :: r =>
    if c = 'u' then readCode r
    else
      match shortEscape? c with
      | some x => .ok (x, r)
      | none => .error .malformed

/-- The text after an escape, which need not stand for a character. -/
def skipEscape (s : Text) : Except Error Text :=
  match s with
  | [] => .error .truncated
  | none :: _ => .error .malformed
  | some c :: r =>
    if c = 'u' then (readHex r).map (·.2)
    else if (shortEscape? c).isSome then .ok r
    else .error .malformed

theorem readHex_length {s r : Text} {n : Nat} (h : readHex s = .ok (n, r)) :
    r.length < s.length := by
  unfold readHex at h
  split at h
  · cases h
  · split at h
    · split at h
      · cases h; simp; omega
      · cases h
    · cases h

theorem readLowHalf_length {s r : Text} {n : Nat} (h : readLowHalf s = .ok (n, r)) :
    r.length < s.length := by
  unfold readLowHalf at h
  split at h
  · cases h
  · cases h
  · split at h
    · cases h
    · next hx =>
      have := readHex_length hx
      split at h
      · cases h
      · cases h; simp; omega
  · cases h

theorem readCode_length {s r : Text} {c : Char} (h : readCode s = .ok (c, r)) :
    r.length < s.length := by
  unfold readCode at h
  split at h
  · cases h
  · next hx =>
    have := readHex_length hx
    split at h
    · cases h
    · split at h
      · cases h; assumption
      · split at h
        · cases h
        · next hy =>
          have := readLowHalf_length hy
          simp only [Except.ok.injEq, Prod.mk.injEq] at h
          obtain ⟨-, rfl⟩ := h
          omega

theorem readEscape_length {s r : Text} {c : Char} (h : readEscape s = .ok (c, r)) :
    r.length < s.length := by
  unfold readEscape at h
  split at h
  · cases h
  · cases h
  · split at h
    · have := readCode_length h
      simp; omega
    · split at h
      · cases h; simp
      · cases h

theorem skipEscape_length {s r : Text} (h : skipEscape s = .ok r) : r.length < s.length := by
  unfold skipEscape at h
  split at h
  · cases h
  · cases h
  · next c t =>
    split at h
    · cases hx : readHex t with
      | error e => simp [hx, Except.map] at h
      | ok p =>
        have := readHex_length (r := p.2) (n := p.1) (by simpa using hx)
        simp only [hx, Except.map] at h
        cases h
        simp; omega
    · split at h
      · cases h; simp
      · cases h

/-- The characters of a string from after its opening quote, gaps among them. -/
def readChars (s : Text) : Read Text :=
  match s with
  | [] => .error .truncated
  | none :: r => (readChars r).map fun (t, r) => (none :: t, r)
  | some c :: r =>
    if c = '"' then .ok ([], r)
    else if c = '\\' then
      match _h : readEscape r with
      | .error e => .error e
      | .ok (x, r') => (readChars r').map fun (t, r) => (some x :: t, r)
    else if c < ' ' then .error .malformed
    else (readChars r).map fun (t, r) => (some c :: t, r)
termination_by s.length
decreasing_by
  · simp
  · have := readEscape_length _h
    simp; omega
  · simp

/-- A string that is kept, from after its opening quote. -/
def readString (s : Text) : Read String :=
  match readChars s with
  | .error e => .error e
  | .ok (t, r) =>
    match t.mapM id with
    | some chars => .ok (String.ofList chars, r)
    | none => .error .malformed

/-- The text after a string that is not kept. -/
def skipString (s : Text) : Except Error Text :=
  match s with
  | [] => .error .truncated
  | none :: r => skipString r
  | some c :: r =>
    if c = '"' then .ok r
    else if c = '\\' then
      match _h : skipEscape r with
      | .error e => .error e
      | .ok r' => skipString r'
    else if c < ' ' then .error .malformed
    else skipString r
termination_by s.length
decreasing_by
  · simp
  · have := skipEscape_length _h
    simp; omega
  · simp

end ClusterConsole.Json
