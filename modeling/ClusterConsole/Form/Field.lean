/-! Fields of a form. A field's constraints are checked in order, and the first one
that its value violates gives the message. Lengths count code points. -/

namespace ClusterConsole

inductive Constraint where
  | required
  | minLength (n : Nat)
  | maxLength (n : Nat)
  deriving DecidableEq, Repr, Inhabited

namespace Constraint

/-- A lower bound holds only for a value that is there. -/
def isViolatedBy (value : String) : Constraint → Bool
  | required => value.length = 0
  | minLength n => 0 < value.length && value.length < n
  | maxLength n => n < value.length

def message : Constraint → String
  | required => "a value is required"
  | minLength n => "must be at least " ++ toString n ++ " characters"
  | maxLength n => "must be at most " ++ toString n ++ " characters"

end Constraint

structure Field where
  name : String
  value : String
  constraints : List Constraint := []
  deriving DecidableEq, Repr, Inhabited

namespace Field

def violated? (f : Field) : Option Constraint :=
  f.constraints.find? (Constraint.isViolatedBy f.value)

def message? (f : Field) : Option String := f.violated?.map Constraint.message

def isValid (f : Field) : Bool := f.message?.isNone

def setValue (f : Field) (value : String) : Field := { f with value }

end Field

end ClusterConsole
