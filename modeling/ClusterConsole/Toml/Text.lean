import ClusterConsole.Text.Percent

/-! The text of a TOML document: blanks, comments, line ends, and the four kinds of
strings. A reader gives its value and the text after it, or nothing if the document
is none. -/

namespace ClusterConsole.Toml

abbrev Read (α : Type) := Option (α × List Char)

def isBlank (c : Char) : Bool := c == ' ' || c == '\t'

def skipBlanks (s : List Char) : List Char := s.dropWhile isBlank

/-- What comments and strings may hold as it is: all but control characters, and the
tab. -/
def isPlain (c : Char) : Bool := c == '\t' || (' ' ≤ c && c != '\x7f')

/-- The text after a line break. -/
def lineBreak? : List Char → Option (List Char)
  | '\n' :: r => some r
  | '\r' :: '\n' :: r => some r
  | _ => none

def skipComment (s : List Char) : List Char :=
  match s with
  | '#' :: r => r.dropWhile isPlain
  | s => s

/-- The text after the end of a line, which only blanks and a comment may precede. -/
def endLine? (s : List Char) : Option (List Char) :=
  match skipComment (skipBlanks s) with
  | [] => some []
  | r => lineBreak? r

/-- The text after blanks, line breaks and comments. -/
def skipSpace (inComment : Bool) : List Char → List Char
  | [] => []
  | '\r' :: '\n' :: r => skipSpace false r
  | c :: r =>
    if c = '\n' then skipSpace false r
    else if inComment && isPlain c || isBlank c then skipSpace inComment r
    else if c = '#' then skipSpace true r
    else c :: r

/-! ### Escapes -/

/-- What the character after a backslash stands for. -/
def shortEscape? (c : Char) : Option Char :=
  if c = '"' ∨ c = '\\' then some c
  else if c = 'b' then some '\x08'
  else if c = 't' then some '\t'
  else if c = 'n' then some '\n'
  else if c = 'f' then some '\x0c'
  else if c = 'r' then some '\r'
  else none

/-- A character by its code in so many hexadecimal digits. -/
def readCode (digits : Nat) (s : List Char) : Read Char :=
  if s.length < digits then none
  else
    match (s.take digits).mapM Percent.hexValue? with
    | none => none
    | some values =>
      let n := values.foldl (16 * · + ·) 0
      if n.isValidChar then some (Char.ofNat n, s.drop digits) else none

/-- An escape from after its backslash. -/
def readEscape (s : List Char) : Read Char :=
  match s with
  | [] => none
  | c :: r =>
    if c = 'u' then readCode 4 r
    else if c = 'U' then readCode 8 r
    else (shortEscape? c).map (·, r)

theorem readCode_length {n : Nat} {s r : List Char} {c : Char} (h : readCode n s = some (c, r)) :
    r.length ≤ s.length := by
  simp only [readCode] at h
  split at h
  · cases h
  · split at h
    · cases h
    · split at h
      · simp only [Option.some.injEq, Prod.mk.injEq] at h
        obtain ⟨-, rfl⟩ := h
        simp
      · cases h

theorem readEscape_length {s r : List Char} {c : Char} (h : readEscape s = some (c, r)) :
    r.length < s.length := by
  unfold readEscape at h
  split at h
  · cases h
  · next x t =>
    split at h
    · have := readCode_length h
      simp only [List.length_cons]; omega
    · split at h
      · have := readCode_length h
        simp only [List.length_cons]; omega
      · obtain ⟨y, -, hy⟩ := Option.map_eq_some_iff.1 h
        simp only [Prod.mk.injEq] at hy
        obtain ⟨-, rfl⟩ := hy
        simp

/-! ### Strings on one line -/

/-- From after the opening quote. -/
def readBasic (s : List Char) : Read (List Char) :=
  match s with
  | [] => none
  | c :: r =>
    if c = '"' then some ([], r)
    else if c = '\\' then
      match _h : readEscape r with
      | none => none
      | some (x, r') => (readBasic r').map fun (t, r) => (x :: t, r)
    else if isPlain c then (readBasic r).map fun (t, r) => (c :: t, r)
    else none
termination_by s.length
decreasing_by
  · have := readEscape_length _h
    simp only [List.length_cons]; omega
  · simp

/-- From after the opening apostrophe; nothing is escaped. -/
def readLiteral : List Char → Read (List Char)
  | [] => none
  | c :: r =>
    if c = '\x27' then some ([], r)
    else if isPlain c then (readLiteral r).map fun (t, r) => (c :: t, r)
    else none

/-! ### Strings on several lines -/

/-- Three quotes end a string. Up to two more before them belong to it: their number, and
the text after the end. -/
def closing? (quote : Char) (s : List Char) : Option (Nat × List Char) :=
  let n := min 5 (s.takeWhile (· == quote)).length
  if 3 ≤ n then some (n - 3, s.drop n) else none

/-- A line break right after the opening quotes is no part of the string. -/
def skipFirstBreak (s : List Char) : List Char := (lineBreak? s).getD s

/-- Whether a backslash before this text joins its line to the next. -/
def joinsLines (s : List Char) : Bool := (lineBreak? (skipBlanks s)).isSome

/-- From after the opening quotes. Blanks and line breaks are left out after a backslash
that joins lines. -/
def readLongBasic (joining : Bool) (s : List Char) : Read (List Char) :=
  match s with
  | [] => none
  | '\r' :: '\n' :: r =>
    if joining then readLongBasic true r
    else (readLongBasic false r).map fun (t, r) => ('\n' :: t, r)
  | c :: r =>
    match closing? '"' (c :: r) with
    | some (n, r) => some (List.replicate n '"', r)
    | none =>
      if joining && (isBlank c || c == '\n') then readLongBasic true r
      else if c = '\\' then
        if joinsLines r then readLongBasic true r
        else
          match _h : readEscape r with
          | none => none
          | some (x, r') => (readLongBasic false r').map fun (t, r) => (x :: t, r)
      else if isPlain c || c == '\n' then (readLongBasic false r).map fun (t, r) => (c :: t, r)
      else none
termination_by s.length
decreasing_by
  all_goals try (simp only [List.length_cons]; omega)
  have := readEscape_length _h
  simp only [List.length_cons]; omega

/-- From after the opening apostrophes. -/
def readLongLiteral : List Char → Read (List Char)
  | [] => none
  | '\r' :: '\n' :: r => (readLongLiteral r).map fun (t, r) => ('\n' :: t, r)
  | c :: r =>
    match closing? '\x27' (c :: r) with
    | some (n, r) => some (List.replicate n '\x27', r)
    | none =>
      if isPlain c || c == '\n' then (readLongLiteral r).map fun (t, r) => (c :: t, r)
      else none

/-- A string of any kind, if the text starts with one. -/
def readString (s : List Char) : Read String :=
  let chars :=
    match s with
    | '"' :: '"' :: '"' :: r => readLongBasic false (skipFirstBreak r)
    | '"' :: r => readBasic r
    | '\x27' :: '\x27' :: '\x27' :: r => readLongLiteral (skipFirstBreak r)
    | '\x27' :: r => readLiteral r
    | _ => none
  chars.map fun (t, r) => (String.ofList t, r)

end ClusterConsole.Toml
