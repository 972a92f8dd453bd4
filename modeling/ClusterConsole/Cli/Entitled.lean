import ClusterConsole.Cli.Activity

/-! Asking whether the session is entitled. -/

namespace ClusterConsole.Cli

inductive EntitledStage where
  | start
  /-- The answer comes at a time. -/
  | asking (due : Nat) (result : Except String EntitlementResponse)
  | ended (ending : Ending)
  deriving Inhabited

namespace Entitled

def start (s : Server) (c : Console) : Turn EntitledStage :=
  let (answer, asked) := c.ask s
  { console := asked, stage := .asking (c.after answer.delay) answer.result }

/-- The answer is there. -/
def answered (c : Console) (result : Except String EntitlementResponse) : Turn EntitledStage :=
  match c.enforce result with
  | (.error e, c) => { console := c, stage := .ended (.error (.console e)) }
  | (.ok .authorized, c) => { console := c, stage := .ended (.ok .done), lines := [.entitled] }
  | (.ok .denied, c) =>
    { console := c, stage := .ended (.ok .denied), lines := [.notEntitled c.page.location] }

def turn? (s : Server) (c : Console) : EntitledStage → Option (Turn EntitledStage)
  | .start => some (start s c)
  | .asking due result => if due ≤ c.now then some (answered c result) else none
  | .ended _ => none

def activity : Activity EntitledStage where
  start := .start
  turn? := turn?
  wake?
    | .asking due _ => some due
    | _ => none
  ending?
    | .ended ending => some ending
    | _ => none
  stop c _ := c

end Entitled

end ClusterConsole.Cli
