/-! Percent encoding: a character that a part of a URL may not hold is written as
the bytes of its UTF-8 form, each as `%` and two upper-case hexadecimal digits.
What has to be written that way depends on the part, and is given by one
predicate for each. -/

namespace ClusterConsole.Percent

/-- The upper-case hexadecimal digit of a number below sixteen. -/
def upperHexDigit (n : Nat) : Char :=
  if n < 10 then Char.ofNat (48 + n) else Char.ofNat (55 + n)

/-- `%` and the two digits of a byte. -/
def escapeByte (b : UInt8) : List Char :=
  ['%', upperHexDigit (b.toNat / 16), upperHexDigit (b.toNat % 16)]

/-- Every byte of the UTF-8 form of a character, escaped. -/
def escapeChar (c : Char) : List Char :=
  (String.utf8EncodeChar c).flatMap escapeByte

/-- The text with every character of the set `escaped` written in bytes. -/
def encode (escaped : Char → Bool) (s : List Char) : List Char :=
  s.flatMap fun c => if escaped c then escapeChar c else [c]

/-! ### What each part of a URL escapes -/

/-- Control characters, DEL, and all that is not ASCII. -/
def isControl (c : Char) : Bool := c < ' ' || '\x7f' ≤ c

def inFragment (c : Char) : Bool :=
  isControl c || c == ' ' || c == '"' || c == '<' || c == '>' || c == '\x60'

def inQuery (c : Char) : Bool :=
  isControl c || c == ' ' || c == '"' || c == '#' || c == '<' || c == '>'

/-- The query of a special scheme escapes the apostrophe too. -/
def inSpecialQuery (c : Char) : Bool := inQuery c || c == '\x27'

def inPath (c : Char) : Bool :=
  inFragment c || c == '#' || c == '?' || c == '\x7b' || c == '\x7d'

def inUserInfo (c : Char) : Bool :=
  inPath c || c == '/' || c == ':' || c == ';' || c == '=' || c == '@' || c == '[' ||
    c == '\\' || c == ']' || c == '^' || c == '|'

/-! ### Reading back -/

def hexValue? (c : Char) : Option Nat :=
  if '0' ≤ c && c ≤ '9' then some (c.toNat - 48)
  else if 'A' ≤ c && c ≤ 'F' then some (c.toNat - 55)
  else if 'a' ≤ c && c ≤ 'f' then some (c.toNat - 87)
  else none

/-- The ASCII text that a percent-encoded text stands for; `none` if it stands
for bytes that are not ASCII. A `%` without two digits after it is kept. -/
def decodeAscii? : List Char → Option (List Char)
  | [] => some []
  | '%' :: a :: b :: r =>
    match hexValue? a, hexValue? b with
    | some x, some y =>
      if x < 8 then (decodeAscii? r).map (Char.ofNat (16 * x + y) :: ·) else none
    | _, _ => (decodeAscii? (a :: b :: r)).map ('%' :: ·)
  | c :: r => if c.toNat < 128 then (decodeAscii? r).map (c :: ·) else none

end ClusterConsole.Percent
