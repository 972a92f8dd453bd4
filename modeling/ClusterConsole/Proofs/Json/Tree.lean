import ClusterConsole.Json.Value

/-! Documents as trees, and the texts that write a tree. A tree keeps what a text says
before it is judged: repeated members, halves of character pairs that stand alone, and
numbers by their digits. Whitespace, escapes and the order of members are the writer's
choice, so a tree has many texts. -/

namespace ClusterConsole.Json

/-! ### Strings -/

/-- A part of a string: a character, or half of a pair without the other one. -/
inductive Piece where
  | char (c : Char)
  | half (code : Nat)
  deriving DecidableEq, Repr

def Piece.char? : Piece → Option Char
  | char c => some c
  | half _ => none

/-- The text of a string that consists of characters. -/
def text? (pieces : List Piece) : Option String :=
  (pieces.mapM Piece.char?).map String.ofList

theorem text?_map_char (s : String) : text? (s.toList.map .char) = some s := by
  have h : ∀ text : List Char, (text.map Piece.char).mapM Piece.char? = some text := by
    intro text
    induction text with
    | nil => rfl
    | cons c text ih =>
      rw [List.map_cons, List.mapM_cons, ih]
      rfl
  rw [text?, h, Option.map_some, String.ofList_toList]

/-- Four hexadecimal digits of a number. -/
inductive Hex : Nat → List Char → Prop
  | mk {a b c d : Char} {w x y z : Nat} (ha : Percent.hexValue? a = some w)
      (hb : Percent.hexValue? b = some x) (hc : Percent.hexValue? c = some y)
      (hd : Percent.hexValue? d = some z) :
      Hex (((w * 16 + x) * 16 + y) * 16 + z) [a, b, c, d]

/-- The character needs no escape. -/
def isPlain (c : Char) : Bool := c != '"' && c != '\\' && !(c < ' ')

/-- What one piece may be written as. -/
inductive PieceWritten : Piece → List Char → Prop
  | plain {c : Char} (h : isPlain c) : PieceWritten (.char c) [c]
  | short {c e : Char} (h : shortEscape? e = some c) : PieceWritten (.char c) ['\\', e]
  | code {n : Nat} {s : List Char} (h : Hex n s) (hn : n < 0xD800 ∨ 0xDFFF < n) :
      PieceWritten (.char (Char.ofNat n)) ('\\' :: 'u' :: s)
  | pair {high low : Nat} {s s' : List Char} (h : Hex high s) (h' : Hex low s')
      (hhigh : 0xD800 ≤ high ∧ high ≤ 0xDBFF) (hlow : 0xDC00 ≤ low ∧ low ≤ 0xDFFF) :
      PieceWritten (.char (Char.ofNat (0x10000 + (high - 0xD800) * 0x400 + (low - 0xDC00))))
        ('\\' :: 'u' :: (s ++ '\\' :: 'u' :: s'))
  | half {n : Nat} {s : List Char} (h : Hex n s) (hn : 0xD800 ≤ n ∧ n ≤ 0xDFFF) :
      PieceWritten (.half n) ('\\' :: 'u' :: s)

/-- What the pieces of a string may be written as, between its quotes. -/
inductive Spelled : List Piece → List Char → Prop
  | nil : Spelled [] []
  | cons {p : Piece} {ps : List Piece} {s s' : List Char} (h : PieceWritten p s)
      (h' : Spelled ps s') : Spelled (p :: ps) (s ++ s')

/-- A text that needs no escapes stands for itself. -/
theorem spelled_plain {text : List Char} (h : text.all isPlain) :
    Spelled (text.map .char) text := by
  induction text with
  | nil => exact .nil
  | cons c text ih =>
    rw [List.all_cons, Bool.and_eq_true] at h
    exact .cons (.plain h.1) (ih h.2)

/-! ### Numbers -/

def digitChar (d : Fin 10) : Char := Char.ofNat (48 + d)

/-- At least one digit. -/
abbrev Digits := { ds : List (Fin 10) // ds ≠ [] }

namespace Digits

def text (ds : Digits) : List Char := ds.1.map digitChar

def values (ds : Digits) : List Nat := ds.1.map Fin.val

/-- The number that the digits are. -/
def total (ds : Digits) : Nat := ds.values.foldl (10 * · + ·) 0

end Digits

/-- An exponent: its letter, its sign, where `true` is a minus, and its digits. -/
structure Exponent where
  isUpper : Bool
  sign : Option Bool
  digits : Digits

namespace Exponent

def letter (e : Exponent) : Char := if e.isUpper then 'E' else 'e'

/-- The text after the letter. -/
def signed (e : Exponent) : List Char :=
  (e.sign.map fun minus => if minus then '-' else '+').toList ++ e.digits.text

/-- The power of ten. -/
def shift (e : Exponent) : Int := if e.sign = some true then -e.digits.total else e.digits.total

end Exponent

/-- A number by its digits. A zero is the only digit before the point, if it is the
first. -/
structure Numeral where
  negative : Bool
  whole : Digits
  fraction : Option Digits
  exponent : Option Exponent
  leading : whole.1.head? = some 0 → whole.1.length = 1

namespace Numeral

def fractionText (fraction : Option Digits) : List Char :=
  fraction.elim [] fun ds => '.' :: ds.text

def exponentText (exponent : Option Exponent) : List Char :=
  exponent.elim [] fun e => e.letter :: e.signed

/-- The text after the sign. -/
def unsigned (n : Numeral) : List Char :=
  n.whole.text ++ (fractionText n.fraction ++ exponentText n.exponent)

def text (n : Numeral) : List Char := if n.negative then '-' :: n.unsigned else n.unsigned

/-- The number, if it is in range: an integer as long as it fits, else computed from the
digits that fit. -/
def value (n : Numeral) : Except Error Number :=
  let fraction := n.fraction.elim [] Digits.values
  let whole := Number.appendDigits 0 n.whole.values
  let all := Number.appendDigits whole.1 fraction
  if n.fraction.isNone ∧ n.exponent.isNone ∧ whole.2 = 0 then
    .ok (Number.ofInteger n.negative whole.1)
  else
    Number.ofParts n.negative all.1
      (whole.2 - (fraction.length - all.2 : Nat) + n.exponent.elim 0 Exponent.shift)

end Numeral

/-! ### Trees -/

inductive Tree where
  | null
  | bool (value : Bool)
  | number (numeral : Numeral)
  | string (pieces : List Piece)
  | array (items : List Tree)
  | object (members : List (List Piece × Tree))

mutual

/-- The value that is held of a tree, if its strings are text and its numbers in range. -/
def Tree.value? : Tree → Option Json
  | .null => some .null
  | .bool b => some (.bool b)
  | .number n => n.value.toOption.map .number
  | .string ps => (text? ps).map .string
  | .array items => (itemsValue? items).map .array
  | .object members => (membersValue? members).map .object

def itemsValue? : List Tree → Option (List Json)
  | [] => some []
  | t :: ts =>
    match t.value?, itemsValue? ts with
    | some v, some vs => some (v :: vs)
    | _, _ => none

def membersValue? : List (List Piece × Tree) → Option (List (String × Json))
  | [] => some []
  | (ps, t) :: ms =>
    match text? ps, t.value?, membersValue? ms with
    | some name, some v, some vs => some ((name, v) :: vs)
    | _, _, _ => none

end

theorem itemsValue?_cons {t : Tree} {ts : List Tree} {vs : List Json}
    (h : itemsValue? (t :: ts) = some vs) :
    ∃ v vs', t.value? = some v ∧ itemsValue? ts = some vs' ∧ vs = v :: vs' := by
  rw [itemsValue?] at h
  split at h
  · next v vs' hv hvs => exact ⟨v, vs', hv, hvs, (Option.some.inj h).symm⟩
  · cases h

theorem membersValue?_cons {ps : List Piece} {t : Tree} {ms : List (List Piece × Tree)}
    {vs : List (String × Json)} (h : membersValue? ((ps, t) :: ms) = some vs) :
    ∃ name v vs', text? ps = some name ∧ t.value? = some v ∧ membersValue? ms = some vs' ∧
      vs = (name, v) :: vs' := by
  rw [membersValue?] at h
  split at h
  · next name v vs' hname hv hvs =>
    exact ⟨name, v, vs', hname, hv, hvs, (Option.some.inj h).symm⟩
  · cases h

mutual

/-- The levels of arrays and objects in a tree. -/
def Tree.levels : Tree → Nat
  | .array items => itemsLevels items + 1
  | .object members => membersLevels members + 1
  | _ => 0

def itemsLevels : List Tree → Nat
  | [] => 0
  | t :: ts => max t.levels (itemsLevels ts)

def membersLevels : List (List Piece × Tree) → Nat
  | [] => 0
  | (_, t) :: ms => max t.levels (membersLevels ms)

end

/-! ### Texts of a tree -/

def Blank (s : List Char) : Prop := ∀ c ∈ s, isBlank c

theorem blank_nil : Blank [] := nofun

mutual

/-- What a tree may be written as. -/
inductive Written : Tree → List Char → Prop
  | null : Written .null "null".toList
  | bool (value : Bool) :
      Written (.bool value) (if value then "true".toList else "false".toList)
  | number (n : Numeral) : Written (.number n) n.text
  | string {ps : List Piece} {s : List Char} (h : Spelled ps s) :
      Written (.string ps) ('"' :: (s ++ ['"']))
  | noItems {b : List Char} (h : Blank b) : Written (.array []) ('[' :: (b ++ [']']))
  | array {ts : List Tree} {s : List Char} (h : ItemsWritten ts s) :
      Written (.array ts) ('[' :: (s ++ [']']))
  | noMembers {b : List Char} (h : Blank b) : Written (.object []) ('\x7b' :: (b ++ ['\x7d']))
  | object {ms : List (List Piece × Tree)} {s : List Char} (h : MembersWritten ms s) :
      Written (.object ms) ('\x7b' :: (s ++ ['\x7d']))

/-- Items with the commas between them. -/
inductive ItemsWritten : List Tree → List Char → Prop
  | last {t : Tree} {b s b' : List Char} (hb : Blank b) (h : Written t s) (hb' : Blank b') :
      ItemsWritten [t] (b ++ (s ++ b'))
  | cons {t : Tree} {ts : List Tree} {b s b' s' : List Char} (hb : Blank b) (h : Written t s)
      (hb' : Blank b') (hs : ItemsWritten ts s') :
      ItemsWritten (t :: ts) (b ++ (s ++ (b' ++ ',' :: s')))

/-- Members with the colons in them and the commas between them. -/
inductive MembersWritten : List (List Piece × Tree) → List Char → Prop
  | last {m : List Piece × Tree} {s b' : List Char} (h : MemberWritten m s) (hb' : Blank b') :
      MembersWritten [m] (s ++ b')
  | cons {m : List Piece × Tree} {ms : List (List Piece × Tree)} {s b' s' : List Char}
      (h : MemberWritten m s) (hb' : Blank b') (hs : MembersWritten ms s') :
      MembersWritten (m :: ms) (s ++ (b' ++ ',' :: s'))

/-- A name, a colon and a value. -/
inductive MemberWritten : List Piece × Tree → List Char → Prop
  | mk {ps : List Piece} {t : Tree} {b n b' b'' s : List Char} (hb : Blank b)
      (hn : Spelled ps n) (hb' : Blank b') (hb'' : Blank b'') (h : Written t s) :
      MemberWritten (ps, t) (b ++ '"' :: (n ++ '"' :: (b' ++ ':' :: (b'' ++ s))))

end

theorem ItemsWritten.length_pos {ts : List Tree} {s : List Char} (h : ItemsWritten ts s) :
    0 < ts.length := by
  cases h <;> exact Nat.succ_pos _

/-- A document: a tree between blanks. -/
inductive Document : Tree → List Char → Prop
  | mk {t : Tree} {b s b' : List Char} (hb : Blank b) (h : Written t s) (hb' : Blank b') :
      Document t (b ++ (s ++ b'))

end ClusterConsole.Json
