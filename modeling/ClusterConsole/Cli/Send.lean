import ClusterConsole.Cli.Activity
import ClusterConsole.Cli.CommandForm
import ClusterConsole.Page.Load

/-! Sending a command. The form is validated, the session has to be entitled, and the
command ends when the page has left for home. -/

namespace ClusterConsole.Cli

/-- A cluster, the command for it, and the time until the page goes home. -/
structure Send where
  cluster : String
  command : String
  delay : Nat
  deriving DecidableEq, Repr, Inhabited

inductive SendStage where
  | start
  /-- The entitlement answer comes at a time. -/
  | asking (due : Nat) (result : Except String EntitlementResponse) (dispatcher position : Nat)
  /-- The command is on its way, and the page is to leave. -/
  | leaving (position : Nat)
  | ended (ending : Ending)
  deriving Inhabited

namespace Send

def request (p : Send) : CommandRequest := .ofTexts p.cluster p.command

/-- The lines that tell which fields are not valid. -/
def complaints (d : Document) : List Line :=
  ((d.form? commandFormId).elim [] Form.invalidFields).map fun (field, message) =>
    .refused field message

/-- A form that is not valid ends the command, and a valid one asks the server. -/
def start (p : Send) (s : Server) (c : Console) : Turn SendStage :=
  let d := commandDocument p.cluster p.command
  match (FormGuard.install d).submit d commandFormId with
  | .error e => { console := c, stage := .ended (.error (.console e)) }
  | .ok (event, d) =>
    if event.defaultPrevented then
      { console := c, stage := .ended (.ok .invalid), lines := complaints d }
    else
      let position := c.page.feed.subscribe
      let (answer, asked) := (c.addDispatcher p.delay).ask s
      { console := asked
        stage := .asking (c.after answer.delay) answer.result c.dispatchers.length position }

/-- The answer is there. -/
def answered (p : Send) (c : Console) (result : Except String EntitlementResponse)
    (dispatcher position : Nat) : Turn SendStage :=
  match c.conclude dispatcher p.request result with
  | (.error e, c) => { console := c, stage := .ended (.error (.console e)) }
  | (.ok .denied, c) =>
    { console := c, stage := .ended (.ok .denied), lines := [.notEntitled c.page.location] }
  | (.ok .sent, c) => { console := c, stage := .leaving position }

/-- Looks whether the page has left. -/
def look? (p : Send) (c : Console) (position : Nat) : Option (Turn SendStage) :=
  match (c.page.feed.nextNavigation position).1 with
  | .waiting => none
  | .closed => some { console := c, stage := .ended (.error .pageClosed) }
  | _ =>
    some {
      console := c
      stage := .ended (.ok .done)
      lines := [.sent p.command p.cluster c.page.location] }

def turn? (p : Send) (s : Server) (c : Console) : SendStage → Option (Turn SendStage)
  | .start => some (p.start s c)
  | .asking due result dispatcher position =>
    if due ≤ c.now then some (p.answered c result dispatcher position) else none
  | .leaving position => p.look? c position
  | .ended _ => none

def activity (p : Send) : Activity SendStage where
  start := .start
  turn? := p.turn?
  wake?
    | .asking due _ _ _ => some due
    | _ => none
  ending?
    | .ended ending => some ending
    | _ => none
  stop c _ := c

end Send

end ClusterConsole.Cli
