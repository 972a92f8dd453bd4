import ClusterConsole.Http.Status
import ClusterConsole.Url.Basic

/-! Requests, replies, and what may become of a request on its way. -/

namespace ClusterConsole.Http

inductive Method where
  | get
  | post
  deriving DecidableEq, Repr, Inhabited

def Method.text : Method → String
  | get => "GET"
  | post => "POST"

/-- The URL has neither user info nor fragment. An absent header is `none`. -/
structure Request where
  method : Method
  url : Url
  cookie : Option String := none
  authorization : Option String := none
  contentType : Option String := none
  body : String := ""
  deriving DecidableEq, Repr, Inhabited

structure Reply where
  status : Nat
  body : List UInt8
  /-- Whether the whole body arrived. -/
  isComplete : Bool := true
  deriving DecidableEq, Repr, Inhabited

/-- The bytes of the body, if all are there. -/
def Reply.bytes? (r : Reply) : Option (List UInt8) :=
  if isBodiless r.status then some [] else if r.isComplete then some r.body else none

inductive Delivery where
  /-- The request did not reach the server. -/
  | lost
  /-- The server closed the connection. -/
  | unanswered
  | answered (reply : Reply)
  deriving DecidableEq, Repr, Inhabited

def Delivery.isReceived : Delivery → Bool
  | lost => false
  | _ => true

/-- What becomes of a request, given those received before it, and how long it takes in
milliseconds. -/
abbrev Network := List Request → Request → Delivery × Nat

/-- A network that delivers nothing. -/
def Network.down : Network := fun _ _ => (.lost, 0)

end ClusterConsole.Http
