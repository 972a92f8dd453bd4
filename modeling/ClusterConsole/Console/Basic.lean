import ClusterConsole.Console.Agenda
import ClusterConsole.Page.Basic
import ClusterConsole.ReloadState
import ClusterConsole.Server.Basic

/-! The console: one page, the calls made to the server, the controllers and
dispatchers that act on the page, and what is still to be done. Its clock counts
milliseconds. -/

namespace ClusterConsole

/-- What is done when its time has come. A dispatcher is named by its number. -/
inductive Task where
  /-- The timer of a controller runs out. -/
  | reload
  /-- The redirect of a dispatcher. -/
  | goHome
  /-- A command goes to the server. -/
  | submit (request : CommandRequest)
  /-- The server has answered a submission. -/
  | submitted (result : Except String Unit)
  /-- A dispatch begins that nobody waits for. -/
  | dispatch (dispatcher : Nat) (request : CommandRequest)
  /-- The entitlement answer for such a dispatch is there. -/
  | conclude (dispatcher : Nat) (request : CommandRequest)
      (result : Except String EntitlementResponse)
  /-- Somebody else acts on the page. -/
  | act (actions : List PageAction)
  deriving Inhabited

/-- More than all the tasks weigh that a task leads to. -/
def Task.weight : Task → Nat
  | dispatch _ _ => 5
  | conclude _ _ _ => 4
  | submit _ => 2
  | _ => 1

/-- How much a task can do to the page and to the agenda. -/
def Task.size : Task → Nat
  | act actions => actions.length + 1
  | task => task.weight

/-- Reloads the page on its own. `timer` is the job last armed; it may be over. -/
structure Controller where
  interval : Nat
  state : ReloadState := .off
  timer : Option Nat := none
  deriving DecidableEq, Repr, Inhabited

/-- Sends commands. `redirect` is the job last armed; it may be over. -/
structure Dispatcher where
  delay : Nat
  redirect : Option Nat := none
  deriving DecidableEq, Repr, Inhabited

/-- What a dispatch came to. -/
inductive Outcome where
  | sent
  | denied
  deriving DecidableEq, Repr, Inhabited

/-- The end of a dispatch that nobody waited for. -/
structure Completion where
  time : Nat
  command : String
  outcome : Except ConsoleError Outcome
  deriving Inhabited

structure Console where
  now : Nat := 0
  page : Page
  calls : List CallRecord := []
  controllers : List Controller := []
  dispatchers : List Dispatcher := []
  completed : List Completion := []
  agenda : Agenda Task := {}
  deriving Inhabited

namespace Console

def ofPage (page : Page) : Console := { page }

/-- Thirty years of 365 days. -/
def longestWait : Nat := 30 * 365 * 24 * 60 * 60 * 1000

/-- The moment at which a wait ends that starts now. None takes longer than `longestWait`. -/
def after (c : Console) (delay : Nat) : Nat := c.now + min delay longestWait

def schedule (c : Console) (delay : Nat) (task : Task) : Console :=
  { c with agenda := c.agenda.schedule (c.after delay) task }

def cancel (c : Console) (job : Option Nat) : Console :=
  { c with agenda := job.elim c.agenda c.agenda.cancel }

def isPending (c : Console) (job : Option Nat) : Bool := job.any c.agenda.holds

def record (c : Console) (call : Call) : Console :=
  { c with calls := c.calls ++ [⟨c.now, call⟩] }

def navigate (c : Console) (target : String) : Console := { c with page := c.page.navigate target }

def act (c : Console) (actions : List PageAction) : Console :=
  { c with page := c.page.acts actions }

/-- The work that is still to be done. -/
def work (c : Console) : Nat := c.agenda.work Task.weight

theorem work_schedule (c : Console) (delay : Nat) (task : Task) :
    (c.schedule delay task).work = task.weight + c.work :=
  Agenda.work_schedule ..

theorem work_cancel_le (c : Console) (job : Option Nat) : (c.cancel job).work ≤ c.work := by
  cases job with
  | none => exact Nat.le_refl _
  | some id => exact Agenda.work_cancel_le c.agenda id

end Console

end ClusterConsole
