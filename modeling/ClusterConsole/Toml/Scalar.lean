import ClusterConsole.Toml.Table
import ClusterConsole.Toml.Text

/-! Numbers, truth values, dates and times. -/

namespace ClusterConsole.Toml

/-! ### Digits -/

def digit? (base : Nat) (c : Char) : Option Nat := (Percent.hexValue? c).filter (· < base)

/-- The digits after a digit. Single underscores may stand between digits. -/
def moreDigits (base : Nat) : List Char → Read (List Nat)
  | '_' :: c :: r =>
    match digit? base c with
    | none => none
    | some d => (moreDigits base r).map fun (ds, r) => (d :: ds, r)
  | c :: r =>
    match digit? base c with
    | some d => (moreDigits base r).map fun (ds, r) => (d :: ds, r)
    | none => if c = '_' then none else some ([], c :: r)
  | [] => some ([], [])

/-- At least one digit. -/
def readDigits (base : Nat) : List Char → Read (List Nat)
  | [] => none
  | c :: r =>
    match digit? base c with
    | none => none
    | some d => (moreDigits base r).map fun (ds, r) => (d :: ds, r)

def ofDigits (base : Nat) (digits : List Nat) : Nat := digits.foldl (base * · + ·) 0

/-! ### Numbers -/

/-- An integer that 64 bits hold. -/
def integer? (n : Int) : Option Value :=
  let bound : Int := (Nat.pow 2 63 : Nat)
  if -bound ≤ n ∧ n < bound then some (.integer n) else none

/-- An integer in another base, from after its mark. -/
def readBased (base : Nat) (s : List Char) : Read Value :=
  match readDigits base s with
  | none => none
  | some (digits, r) => (integer? (ofDigits base digits)).map (·, r)

/-- Whether the nearest floating-point number to `digits · 10 ^ exponent` is infinite. -/
def isTooLarge (digits : List Nat) (exponent : Int) : Bool :=
  let n := ofDigits 10 digits
  let size : Int := (Nat.toDigits 10 n).length + exponent
  let bound := Nat.pow 2 1024 - Nat.pow 2 970
  if n = 0 ∨ size ≤ 308 then false
  else if 310 ≤ size then true
  else if 0 ≤ exponent then bound ≤ n * Nat.pow 10 exponent.toNat
  else bound * Nat.pow 10 (-exponent).toNat ≤ n

/-- A sign, and whether it is a minus. -/
def takeSign (s : List Char) : Bool × List Char :=
  match s with
  | '-' :: r => (true, r)
  | '+' :: r => (false, r)
  | s => (false, s)

/-- The integer part of a decimal number: a zero alone, or digits that start with
another one. -/
def readWhole (s : List Char) : Read (List Nat) :=
  match s with
  | '0' :: r => some ([0], r)
  | s => readDigits 10 s

/-- What stands between a text and its rest. -/
def consumed (s rest : List Char) : String := String.ofList (s.take (s.length - rest.length))

/-- A floating-point number that is not too large. A negative one may be. -/
def float? (s rest : List Char) (digits : List Nat) (exponent : Int) : Read Value :=
  if !(takeSign s).1 && isTooLarge digits exponent then none
  else some (.float (consumed s rest), rest)

/-- The exponent from after its `e`. -/
def readExponent (s : List Char) : Read Int :=
  let (negative, r) := takeSign s
  (readDigits 10 r).map fun (digits, r) =>
    (if negative then -(ofDigits 10 digits : Int) else ofDigits 10 digits, r)

def isExponentMark (c : Char) : Bool := c == 'e' || c == 'E'

/-- A decimal number: an integer unless it has a fraction or an exponent. -/
def readDecimal (s : List Char) : Read Value :=
  let (negative, r) := takeSign s
  let signed (digits : List Nat) : Int :=
    if negative then -(ofDigits 10 digits : Int) else ofDigits 10 digits
  match readWhole r with
  | none => none
  | some (whole, '.' :: r) =>
    match readDigits 10 r with
    | none => none
    | some (fraction, r) =>
      let digits := whole ++ fraction
      match r with
      | c :: r' =>
        if isExponentMark c then
          match readExponent r' with
          | none => none
          | some (e, rest) => float? s rest digits (e - fraction.length)
        else float? s r digits (-fraction.length)
      | [] => float? s r digits (-fraction.length)
  | some (whole, r) =>
    match r with
    | c :: r' =>
      if isExponentMark c then
        match readExponent r' with
        | none => none
        | some (e, rest) => float? s rest whole e
      else (integer? (signed whole)).map (·, r)
    | [] => (integer? (signed whole)).map (·, r)

/-- The text after a word. -/
def readWord (word : String) (s : List Char) : Option (List Char) :=
  if word.toList.isPrefixOf s then some (s.drop word.length) else none

/-- A value that a word stands for. -/
def readNamed (word : String) (v : Value) (s : List Char) : Read Value :=
  (readWord word s).map (v, ·)

def readNumber (s : List Char) : Read Value :=
  match s with
  | '0' :: 'x' :: r => readBased 16 r
  | '0' :: 'o' :: r => readBased 8 r
  | '0' :: 'b' :: r => readBased 2 r
  | _ =>
    let (_, r) := takeSign s
    match readWord "inf" r <|> readWord "nan" r with
    | some rest => some (.float (consumed s rest), rest)
    | none => readDecimal s

/-! ### Dates and times -/

/-- A number of exactly so many digits within bounds. -/
def readField (digits low high : Nat) (s : List Char) : Read Nat :=
  match (s.take digits).mapM (digit? 10) with
  | none => none
  | some values =>
    let n := ofDigits 10 values
    if values.length = digits ∧ low ≤ n ∧ n ≤ high then some (n, s.drop digits) else none

def isLeapYear (year : Nat) : Bool := year % 4 = 0 && (year % 100 != 0 || year % 400 = 0)

def daysInMonth (year month : Nat) : Nat :=
  if month = 2 then if isLeapYear year then 29 else 28
  else if month = 4 ∨ month = 6 ∨ month = 9 ∨ month = 11 then 30
  else 31

/-- The text after a mark. -/
def readMark (c : Char) (s : List Char) : Option (List Char) :=
  match s with
  | x :: r => if x = c then some r else none
  | [] => none

/-- The text after a date. -/
def readDate (s : List Char) : Option (List Char) := do
  let (year, r) ← readField 4 0 9999 s
  let r ← readMark '-' r
  let (month, r) ← readField 2 1 12 r
  let r ← readMark '-' r
  let (_, r) ← readField 2 1 (daysInMonth year month) r
  return r

/-- The text after a time of day, with any fraction of a second. -/
def readTime (s : List Char) : Option (List Char) := do
  let (_, r) ← readField 2 0 23 s
  let r ← readMark ':' r
  let (_, r) ← readField 2 0 59 r
  let r ← readMark ':' r
  let (_, r) ← readField 2 0 60 r
  match r with
  | '.' :: c :: r' => if c.isDigit then some (r'.dropWhile Char.isDigit) else some r
  | _ => some r

/-- The text after the distance from universal time. -/
def readOffset (s : List Char) : Option (List Char) :=
  match s with
  | c :: r =>
    if c = 'Z' ∨ c = 'z' then some r
    else if c = '+' ∨ c = '-' then do
      let (_, r) ← readField 2 0 23 r
      let r ← readMark ':' r
      let (_, r) ← readField 2 0 59 r
      return r
    else none
  | [] => none

/-- The text after the time that may follow a date. -/
def skipTimeOfDay (s : List Char) : List Char :=
  match s with
  | c :: r =>
    if c = 'T' ∨ c = 't' ∨ c = ' ' then
      match readTime r with
      | none => s
      | some r => (readOffset r).getD r
    else s
  | [] => []

/-- A date, with a time or without, or a time of day. -/
def readMoment (s : List Char) : Read Value :=
  match readDate s with
  | some r =>
    let rest := skipTimeOfDay r
    some (.time (consumed s rest), rest)
  | none => (readTime s).map fun rest => (.time (consumed s rest), rest)

/-! ### Scalars -/

/-- A value that is neither an array nor a table. -/
def readScalar (s : List Char) : Read Value :=
  match s with
  | [] => none
  | c :: _ =>
    if c = '"' ∨ c = '\x27' then (readString s).map fun (t, r) => (.string t, r)
    else if c = 't' then readNamed "true" (.boolean true) s
    else if c = 'f' then readNamed "false" (.boolean false) s
    else (readMoment s).orElse fun _ => readNumber s

end ClusterConsole.Toml
