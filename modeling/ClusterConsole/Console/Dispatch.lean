import ClusterConsole.Console.Basic
import ClusterConsole.Route

/-! Entitlement checks, and commands that depend on one. Every check asks the server
anew. A command that is entitled goes to the server, whose answer nobody reads, and
some time later the page goes home; of a dispatcher's redirects only the last one
armed stays. -/

namespace ClusterConsole

inductive Decision where
  | authorized
  | denied
  deriving DecidableEq, Repr, Inhabited

/-- What follows from the server's answer. -/
def Decision.ofAnswer : Except String EntitlementResponse → Except ConsoleError Decision
  | .ok r => .ok (if r.isEntitled then .authorized else .denied)
  | .error source => .error (.entitlementCheck source)

namespace Console

/-! ### Checks -/

/-- Asks whether the session is entitled. -/
def ask (s : Server) (c : Console) : Answer EntitlementResponse × Console :=
  (s.entitlement c.calls, c.record .entitlement)

/-- A check that guards the page: one that is denied leaves it. -/
def enforce (c : Console) (result : Except String EntitlementResponse) :
    Except ConsoleError Decision × Console :=
  match Decision.ofAnswer result with
  | .ok .denied => (.ok .denied, c.navigate Route.unauthorized)
  | decision => (decision, c)

/-! ### Commands -/

/-- The new dispatcher has the number `c.dispatchers.length`. -/
def addDispatcher (c : Console) (delay : Nat) : Console :=
  { c with dispatchers := c.dispatchers ++ [{ delay }] }

def hasPendingRedirect (c : Console) (d : Dispatcher) : Bool := c.isPending d.redirect

/-- Arms the redirect of a dispatcher, in the place of one that is pending. -/
def armRedirect (c : Console) (i : Nat) : Console :=
  match c.dispatchers[i]? with
  | none => c
  | some d =>
    { (c.cancel d.redirect).schedule d.delay .goHome with
      dispatchers := c.dispatchers.set i { d with redirect := some c.agenda.nextId } }

/-- The end of a dispatch, when its own entitlement answer is there. -/
def conclude (c : Console) (i : Nat) (request : CommandRequest)
    (result : Except String EntitlementResponse) : Except ConsoleError Outcome × Console :=
  match Decision.ofAnswer result with
  | .error e => (.error e, c)
  | .ok .denied => (.ok .denied, c.navigate Route.unauthorized)
  | .ok .authorized => (.ok .sent, (c.schedule 0 (.submit request)).armRedirect i)

/-- Sends a command to the server. -/
def submit (s : Server) (c : Console) (request : CommandRequest) : Console :=
  match s.submission c.calls request with
  | none => c.record (.submit request)
  | some a => (c.record (.submit request)).schedule a.delay (.submitted a.result)

theorem work_navigate (c : Console) (target : String) : (c.navigate target).work = c.work := by
  simp only [work, navigate]

theorem work_armRedirect_le (c : Console) (i : Nat) : (c.armRedirect i).work ≤ c.work + 1 := by
  simp only [armRedirect]
  split
  · omega
  · next d _ =>
    have h := work_schedule (c.cancel d.redirect) d.delay .goHome
    have := work_cancel_le c d.redirect
    simp only [Task.weight] at h
    simp only [work] at *
    omega

theorem work_conclude_le (c : Console) (i : Nat) (request : CommandRequest)
    (result : Except String EntitlementResponse) :
    (c.conclude i request result).2.work ≤ c.work + 3 := by
  simp only [conclude]
  split
  · simp
  · simp [work_navigate]
  · have := work_armRedirect_le (c.schedule 0 (.submit request)) i
    rw [work_schedule] at this
    simp only [Task.weight] at this
    simp only
    omega

theorem work_submit_le (s : Server) (c : Console) (request : CommandRequest) :
    (c.submit s request).work ≤ c.work + 1 := by
  have h : (c.record (.submit request)).work = c.work := rfl
  simp only [submit]
  split
  · omega
  · rw [work_schedule, h]
    simp only [Task.weight]
    omega

end Console

end ClusterConsole
