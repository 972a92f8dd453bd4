import ClusterConsole.Error

/-! How a command of the user ends. -/

namespace ClusterConsole.Cli

inductive Exit where
  | done
  /-- What the user gave was refused. -/
  | invalid
  /-- The session is not entitled. -/
  | denied
  deriving DecidableEq, Repr, Inhabited

/-- The exit status of the program. -/
def Exit.status : Exit → Nat
  | done => 0
  | invalid => 2
  | denied => 3

inductive CommandError where
  | console (e : ConsoleError)
  /-- The page's feed ended. -/
  | pageClosed
  /-- There is no waiting for the signal to stop. -/
  | signal (message : String)
  deriving DecidableEq, Repr, Inhabited

def CommandError.message : CommandError → String
  | console e => e.message
  | pageClosed => "page closed"
  | signal message => message

abbrev Ending := Except CommandError Exit

end ClusterConsole.Cli
