import ClusterConsole.Command.Request
import ClusterConsole.Entitlement.Response

/-! The server as the console sees it: what it is asked and when, what it answers
and how late. An answer may depend on everything that the server was asked
before. Times are in milliseconds. -/

namespace ClusterConsole

inductive Call where
  | entitlement
  | submit (request : CommandRequest)
  | view (path : String)
  deriving DecidableEq, Repr, Inhabited

/-- A call and the moment at which it began. -/
structure CallRecord where
  time : Nat
  call : Call
  deriving DecidableEq, Repr, Inhabited

/-- Status and size of a view. -/
structure View where
  status : Nat
  bytes : Nat
  deriving DecidableEq, Repr, Inhabited

/-- What comes back, or the text of what went wrong, after a delay. -/
structure Answer (α : Type) where
  delay : Nat := 0
  result : Except String α
  deriving Inhabited

/-- Each answer is given the calls made before, oldest first. A submission may stay
without an answer. -/
structure Server where
  entitlement : List CallRecord → Answer EntitlementResponse
  submission : List CallRecord → CommandRequest → Option (Answer Unit)
  view : List CallRecord → String → Answer View

end ClusterConsole
