/-! Properties of characters as texts of numbers. The numbers are the gaps between the
places at which a property changes. -/

namespace ClusterConsole.Unicode.Table

/-- The numbers of a text; `value?` is the one that is being read. -/
def numbersFrom (value? : Option Nat) : List Char → List Nat
  | [] => value?.toList
  | c :: r =>
    if c.isDigit then numbersFrom (some (10 * value?.getD 0 + (c.toNat - 48))) r
    else value?.toList ++ numbersFrom none r

def numbers (text : String) : List Nat := numbersFrom none text.toList

/-- The places that are these gaps apart. -/
def sums (place : Nat) : List Nat → List Nat
  | [] => []
  | gap :: gaps => (place + gap) :: sums (place + gap) gaps

/-- The places at which membership of a set changes. -/
def points (text : String) : List Nat := sums 0 (numbers text)

/-- Before the first place a character is no member. -/
def contains (points : List Nat) (c : Char) : Bool :=
  (points.takeWhile (· ≤ c.toNat)).length % 2 == 1

def stepsFrom (place : Nat) : List Nat → List (Nat × Nat)
  | gap :: value :: r => (place + gap, value) :: stepsFrom (place + gap) r
  | _ => []

/-- The places from which on a value holds. -/
def steps (text : String) : List (Nat × Nat) := stepsFrom 0 (numbers text)

/-- The value at a character; before the first place it is `initial`. -/
def value (steps : List (Nat × Nat)) (initial : Nat) (c : Char) : Nat :=
  ((steps.takeWhile (·.1 ≤ c.toNat)).getLast?.map (·.2)).getD initial

end ClusterConsole.Unicode.Table
