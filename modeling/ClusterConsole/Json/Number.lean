import ClusterConsole.Json.Text

/-! Numbers. A number without fraction and exponent that fits into 64 bits, signed
or unsigned, is an integer; any other is a floating-point number, computed from
the digits that fit into 64 bits by scaling with a power of ten. -/

namespace ClusterConsole.Json

inductive Number where
  | int (value : Int)
  | float (value : Float)
  deriving Inhabited

namespace Number

def digit? (c : Char) : Option Nat := if c.isDigit then some (c.toNat - 48) else none

/-- The digits that a text starts with. -/
def takeDigits : Text → List Nat × Text
  | some c :: s =>
    match digit? c with
    | some d => ((takeDigits s).1.cons d, (takeDigits s).2)
    | none => ([], some c :: s)
  | s => ([], s)

def maxSignificand : Nat := Nat.pow 2 64 - 1

/-- Appends digits to a significand as long as 64 bits hold it, and counts those
that are left over. -/
def appendDigits (significand : Nat) : List Nat → Nat × Nat
  | [] => (significand, 0)
  | d :: ds =>
    if 10 * significand + d ≤ maxSignificand then appendDigits (10 * significand + d) ds
    else (significand, ds.length + 1)

def power (n : Nat) : Float := Float.ofScientific 1 false n

/-- `x · 10 ^ exponent`, in steps that a floating-point number can hold. -/
def scale (x : Float) (exponent : Int) : Except Error Float :=
  if exponent.natAbs ≤ 308 then
    if 0 ≤ exponent then
      let y := x * power exponent.natAbs
      if y.isInf then .error .malformed else .ok y
    else .ok (x / power exponent.natAbs)
  else if x == 0 then .ok x
  else if 0 ≤ exponent then .error .malformed
  else scale (x / power 308) (exponent + 308)
termination_by exponent.natAbs

def ofParts (negative : Bool) (significand : Nat) (exponent : Int) : Except Error Number :=
  (scale (UInt64.ofNat significand).toFloat exponent).map fun x =>
    .float (if negative then -x else x)

/-- A number with nothing after its integer part. -/
def ofInteger (negative : Bool) (significand : Nat) : Number :=
  if !negative then .int significand
  else if 0 < significand ∧ significand ≤ Nat.pow 2 63 then .int (-significand)
  else .float (-(UInt64.ofNat significand).toFloat)

/-- From after the `e` of an exponent. -/
def readExponent (negative : Bool) (significand : Nat) (exponent : Int) (s : Text) : Read Number :=
  let (down, s) :=
    match s with
    | some '+' :: r => (false, r)
    | some '-' :: r => (true, r)
    | s => (false, s)
  match takeDigits s with
  | ([], []) => .error .truncated
  | ([], _ :: _) => .error .malformed
  | (digits, r) =>
    let n : Nat := digits.foldl (10 * · + ·) 0
    (ofParts negative significand (if down then exponent - n else exponent + n)).map (·, r)

/-- From after the point of a fraction. -/
def readFraction (negative : Bool) (significand : Nat) (exponent : Int) (s : Text) : Read Number :=
  match takeDigits s with
  | ([], []) => .error .truncated
  | ([], _ :: _) => .error .malformed
  | (digits, r) =>
    let (significand, unread) := appendDigits significand digits
    let exponent := exponent - (digits.length - unread : Nat)
    match r with
    | some 'e' :: r => readExponent negative significand exponent r
    | some 'E' :: r => readExponent negative significand exponent r
    | r => (ofParts negative significand exponent).map (·, r)

/-- A number from after its sign. A zero is the only digit before the point, if
it is the first. -/
def read (negative : Bool) (s : Text) : Read Number :=
  match takeDigits s with
  | ([], []) => .error .truncated
  | ([], _ :: _) => .error .malformed
  | (0 :: _ :: _, _) => .error .malformed
  | (digits, r) =>
    let (significand, unread) := appendDigits 0 digits
    match r with
    | some '.' :: r => readFraction negative significand unread r
    | some 'e' :: r => readExponent negative significand unread r
    | some 'E' :: r => readExponent negative significand unread r
    | r =>
      if unread = 0 then .ok (ofInteger negative significand, r)
      else (ofParts negative significand unread).map (·, r)

/-! ### Numbers that are not kept -/

/-- The text after at least one digit. -/
def skipDigits (s : Text) : Except Error Text :=
  match takeDigits s with
  | ([], _) => .error .malformed
  | (_, r) => .ok r

def skipExponent (s : Text) : Except Error Text :=
  match s with
  | some '+' :: r => skipDigits r
  | some '-' :: r => skipDigits r
  | s => skipDigits s

/-- The text after a number, from after its sign. Its size does not matter, and an
end that comes too early is no different from another character. -/
def skip (s : Text) : Except Error Text :=
  match takeDigits s with
  | ([], _) => .error .malformed
  | (0 :: _ :: _, _) => .error .malformed
  | (_, some '.' :: r) =>
    match skipDigits r with
    | .ok (some 'e' :: r) => skipExponent r
    | .ok (some 'E' :: r) => skipExponent r
    | x => x
  | (_, some 'e' :: r) => skipExponent r
  | (_, some 'E' :: r) => skipExponent r
  | (_, r) => .ok r

end Number

end ClusterConsole.Json
