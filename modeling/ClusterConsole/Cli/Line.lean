import ClusterConsole.ReloadState
import ClusterConsole.Server.Basic
import ClusterConsole.Url.Basic

/-! The lines that the commands print. The time of day and the identifier of a
dispatch come from outside. -/

namespace ClusterConsole.Cli

inductive Line where
  /-- Why a field is refused. This line is a diagnostic; all others are output. -/
  | refused (field message : String)
  | entitled
  | notEntitled (location : Url)
  | sent (command cluster : String) (location : Url)
  | viewed (location : Url) (view : View)
  | reloadOff
  | reloadOn (interval : Nat)
  | left (location : Url)
  | switchedOff
  deriving DecidableEq, Repr, Inhabited

namespace Line

def isDiagnostic : Line → Bool
  | refused _ _ => true
  | _ => false

/-- The text of a line. Times are given in whole seconds. -/
def text (clock id : String) : Line → String
  | refused field message => field ++ ": " ++ message
  | entitled => "entitled"
  | notEntitled location => "not entitled; page is now " ++ location.text
  | sent command cluster location =>
    "sent '" ++ command ++ "' to " ++ cluster ++ " (" ++ id ++ "); page is now " ++ location.text
  | viewed location view =>
    "[" ++ clock ++ "] " ++ location.text ++ " -> " ++ toString view.status ++ " (" ++
      toString view.bytes ++ " bytes)"
  | reloadOff => "auto-reload is off"
  | reloadOn interval => "auto-reload is on; next refresh in " ++ toString (interval / 1000) ++ "s"
  | left location => "navigated to " ++ location.text
  | switchedOff => "auto-reload switched off"

end Line

end ClusterConsole.Cli
