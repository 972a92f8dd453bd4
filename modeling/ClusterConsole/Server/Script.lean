import ClusterConsole.Server.Basic

/-! A server that answers from a script: each kind of call has a list of answers,
which are given in order, and the last of them again from then on. -/

namespace ClusterConsole

structure Script where
  entitlements : List (Answer EntitlementResponse) := []
  submissions : List (Answer Unit) := []
  views : List (Answer View) := []
  deriving Inhabited

namespace Script

/-- The entitlement answer that a body is. -/
def ofBody (body : Json.Text) : Except String EntitlementResponse :=
  match EntitlementResponse.read body with
  | .ok r => .ok r
  | .error _ => .error "unreadable body"

/-- The answer to the `n`-th call, counted from zero. -/
def pick {α : Type} (answers : List α) (default : α) (n : Nat) : α :=
  answers[n]?.getD (answers.getLast?.getD default)

def isSubmission : Call → Bool
  | .submit _ => true
  | _ => false

def isView : Call → Bool
  | .view _ => true
  | _ => false

/-- How many of the calls are of a kind. -/
def countOf (kind : Call → Bool) (calls : List CallRecord) : Nat := calls.countP (kind ·.call)

/-- Without a list, every session is entitled, every submission succeeds, and every
view is empty. -/
def server (s : Script) : Server where
  entitlement calls :=
    pick s.entitlements { result := .ok .entitled } (countOf (· == .entitlement) calls)
  submission calls _ := some (pick s.submissions { result := .ok () } (countOf isSubmission calls))
  view calls _ := pick s.views { result := .ok ⟨200, 0⟩ } (countOf isView calls)

end Script

end ClusterConsole
