import ClusterConsole.Route

/-! The cookies of a session. -/

namespace ClusterConsole

structure Credentials where
  accessToken : Option String := none
  userId : Option String := none
  deriving DecidableEq, Repr, Inhabited

namespace Credentials

def isEmpty (c : Credentials) : Bool := c.accessToken.isNone && c.userId.isNone

/-- The cookies that are set, each with its value. -/
def pairs (c : Credentials) : List (String × String) :=
  (c.accessToken.map ((Cookie.accessToken, ·))).toList ++ (c.userId.map ((Cookie.userId, ·))).toList

/-- The text of the cookie header; without cookies there is none. -/
def cookie? (c : Credentials) : Option String :=
  if c.isEmpty then none
  else some (String.intercalate "; " (c.pairs.map fun (name, value) => name ++ "=" ++ value))

end Credentials

end ClusterConsole
