import ClusterConsole.Cli.Options

/-! The command line of the console. -/

namespace ClusterConsole.Cli

inductive Action where
  | send (cluster command : String)
  | entitled
  | watch (enable : Bool)
  deriving DecidableEq, Repr, Inhabited

structure Arguments where
  /-- The path of the file with the settings. -/
  config : String
  /-- Goes before the settings. -/
  baseUrl : Option String
  action : Action
  deriving DecidableEq, Repr, Inhabited

namespace Arguments

def defaultConfig : String := "console.toml"

def programName : String := "cluster-console"

/-- What the program is for, in a line. -/
def about : String := "Operate the cluster console from a terminal"

/-- How the program is used. -/
def usage : String :=
  about ++ "\n\nUsage: " ++ programName ++
    " [--config <CONFIG>] [--base-url <BASE_URL>] <COMMAND>\n\nCommands:\n" ++
    "  send --cluster <CLUSTER> --command <COMMAND>\n  entitled\n  watch [--enable]"

def version : String := programName ++ " 0.1.0"

def configOption : Opt := { name := "config", value := some "CONFIG", mayBeEmpty := false }

def baseUrlOption : Opt := { name := "base-url", value := some "BASE_URL" }

def clusterOption : Opt := { name := "cluster", value := some "CLUSTER" }

def commandOption : Opt := { name := "command", value := some "COMMAND" }

def enableFlag : Opt := { name := "enable" }

def grammar : Grammar where
  options := [configOption, baseUrlOption]
  commands := ["send", "entitled", "watch", "help"]
  hasVersion := true

/-- The options of a command. -/
def commandGrammar (name : String) : Grammar where
  options :=
    if name = "send" then [clusterOption, commandOption]
    else if name = "watch" then [enableFlag]
    else []

/-- The action of a command with its options. -/
def actionOf (name : String) (given : Given) : Except OptionError Action :=
  if name = "send" then
    match given.values.lookup clusterOption.name, given.values.lookup commandOption.name with
    | some cluster, some command => .ok (.send cluster command)
    | _, _ => .error (.missingOptions ([clusterOption, commandOption].filter (!given.has ·)))
  else if name = "watch" then .ok (.watch (given.has enableFlag))
  else .ok .entitled

/-- A command with the arguments after it. -/
def readCommand (name : String) (arguments : List String) : Except OptionError Action := do
  let (given, _) ← (commandGrammar name).read false {} arguments
  actionOf name (← given.settle)

/-- Reads a command line, without the name of the program. -/
def read (arguments : List String) : Except OptionError Arguments := do
  let (given, command) ← grammar.read false {} arguments
  match command with
  | some (name, rest) =>
    let action ← readCommand name rest
    let given ← given.settle
    return {
      config := (given.values.lookup configOption.name).getD defaultConfig
      baseUrl := given.values.lookup baseUrlOption.name
      action }
  | none =>
    let given ← given.settle
    if given.values.isEmpty then throw .nothingGiven
    throw .missingCommand

end Arguments

end ClusterConsole.Cli
