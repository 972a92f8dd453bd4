import ClusterConsole.Cli.Ending
import ClusterConsole.Cli.Line
import ClusterConsole.Console.Run

/-! A command at work. It goes from stage to stage on its own until it has to wait;
meanwhile time passes and the jobs of the agenda are done. Jobs that are due at one
moment are all done before a command that waits for the page looks at it again, and a
command that waits for a moment goes on before the jobs that fall due at it. -/

namespace ClusterConsole.Cli

/-- Where a command stands after a turn, and what it printed. -/
structure Turn (σ : Type) where
  console : Console
  stage : σ
  lines : List Line := []
  deriving Inhabited

/-- A command, by its stages. -/
structure Activity (σ : Type) where
  start : σ
  /-- The next stage, unless the command has to wait. -/
  turn? : Server → Console → σ → Option (Turn σ)
  /-- The moment for which a stage waits. -/
  wake? : σ → Option Nat
  ending? : σ → Option Ending
  /-- What is given up with a command that is stopped at a stage. -/
  stop : Console → σ → Console
  /-- What a signal leads to that comes now, at a stage that takes one. -/
  onSignal? : Console → σ → Option (Turn σ) := fun _ _ => none

/-- A command on its way. It has its turn before the jobs that are due if it is
`ready`. -/
structure Run (σ : Type) where
  console : Console
  stage : σ
  lines : List Line := []
  ready : Bool := true
  deriving Inhabited

namespace Activity

variable {σ : Type} (a : Activity σ) (s : Server)

def begin (console : Console) : Run σ := { console, stage := a.start }

/-- The command has its turn, if it need not wait. -/
def takeTurn? (r : Run σ) : Option (Run σ) :=
  (a.turn? s r.console r.stage).map fun t =>
    { console := t.console, stage := t.stage, lines := r.lines ++ t.lines }

/-- A job is done that is due before a time. -/
def doJob? (time : Nat) (r : Run σ) : Option (Run σ) :=
  (r.console.agenda.next? time).map fun j =>
    { r with console := r.console.resume s j, ready := false }

/-- The clock goes to the moment for which the command waits, if that is not after a
limit. -/
def wakeUp? (limit : Nat) (r : Run σ) : Option (Run σ) :=
  match (a.wake? r.stage).filter (· ≤ limit) with
  | none => none
  | some time =>
    some { r with console := { r.console with now := max r.console.now time }, ready := true }

/-- The next that happens, up to a limit, while the command has not ended. -/
def next? (limit : Nat) (r : Run σ) : Option (Run σ) :=
  if (a.ending? r.stage).isSome then none
  else
    (if r.ready then a.takeTurn? s r else none) <|>
    doJob? s (r.console.now + 1) r <|>
    a.takeTurn? s r <|>
    doJob? s (min (limit + 1) ((a.wake? r.stage).getD (limit + 1))) r <|>
    a.wakeUp? limit r

/-- What has happened after some steps, fewer if the command ends or the limit is
reached. -/
def steps (limit : Nat) : Nat → Run σ → Run σ
  | 0, r => r
  | n + 1, r =>
    match a.next? s limit r with
    | some r => steps limit n r
    | none => r

/-- Steps that are enough for a command that, on its own, goes through at most two stages
in a millisecond. What others do to the page may let it go on sooner. -/
def enough (limit : Nat) (c : Console) : Nat := 8 * (limit + c.agenda.work Task.size + 2)

/-- A command that has not ended by the limit is stopped there. -/
def finish (limit : Nat) (r : Run σ) : Run σ :=
  if (a.ending? r.stage).isSome then r
  else
    let c := { r.console with now := max r.console.now limit }
    { r with console := a.stop c r.stage }

/-- Runs a command on a console for so long at most. -/
def run (duration : Nat) (console : Console) : Run σ :=
  let limit := console.after duration
  a.finish limit (a.steps s limit (enough limit console) (a.begin console))

end Activity

end ClusterConsole.Cli
