import ClusterConsole.Decimal.Layout
import ClusterConsole.Json.Value

/-! The text of a JSON value, without blanks. -/

namespace ClusterConsole.Json

/-- A lower-case hexadecimal digit. -/
def lowerHexDigit (n : Nat) : Char := if n < 10 then Char.ofNat (48 + n) else Char.ofNat (87 + n)

/-- Quote, backslash and control characters are escaped, and nothing else. -/
def escapeChar (c : Char) : List Char :=
  if c = '"' then ['\\', '"']
  else if c = '\\' then ['\\', '\\']
  else if c = '\x08' then ['\\', 'b']
  else if c = '\x0c' then ['\\', 'f']
  else if c = '\n' then ['\\', 'n']
  else if c = '\r' then ['\\', 'r']
  else if c = '\t' then ['\\', 't']
  else if c < ' ' then
    ['\\', 'u', '0', '0', lowerHexDigit (c.toNat / 16), lowerHexDigit (c.toNat % 16)]
  else [c]

def printString (s : String) : List Char := '"' :: s.toList.flatMap escapeChar ++ ['"']

/-- Floating-point numbers have a point among their digits from `1e-5` on and
below `1e16`. -/
def numberLayout : Decimal.Layout := ⟨-5, 15⟩

def printInt (n : Int) : List Char :=
  if n < 0 then '-' :: Nat.toDigits 10 n.natAbs else Nat.toDigits 10 n.natAbs

def Number.print : Number → List Char
  | int n => printInt n
  | float x => numberLayout.render x

mutual

def print : Json → List Char
  | .null => "null".toList
  | .bool true => "true".toList
  | .bool false => "false".toList
  | .number n => n.print
  | .string s => printString s
  | .array [] => "[]".toList
  | .array (v :: vs) => '[' :: print v ++ printItems vs
  | .object [] => "\x7b\x7d".toList
  | .object ((n, v) :: ms) => '\x7b' :: printString n ++ ':' :: print v ++ printMembers ms

/-- Further items, and the closing bracket. -/
def printItems : List Json → List Char
  | [] => [']']
  | v :: vs => ',' :: print v ++ printItems vs

/-- Further members, and the closing brace. -/
def printMembers : List (String × Json) → List Char
  | [] => ['\x7d']
  | (n, v) :: ms => ',' :: printString n ++ ':' :: print v ++ printMembers ms

end

end ClusterConsole.Json
