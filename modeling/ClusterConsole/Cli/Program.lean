import ClusterConsole.Cli.Arguments
import ClusterConsole.Cli.Entitled
import ClusterConsole.Cli.Send
import ClusterConsole.Cli.Watch
import ClusterConsole.Http.Client
import ClusterConsole.Settings.Basic

/-! The program: what its arguments, the settings and the base URL make it do, and what it
reports in the end. -/

namespace ClusterConsole.Cli

inductive ProgramError where
  | options (e : OptionError)
  | settings (e : SettingsError)
  | console (e : ConsoleError)
  | command (e : CommandError)
  deriving DecidableEq, Repr, Inhabited

namespace ProgramError

def status : ProgramError → Nat
  | options e => e.status
  | _ => 1

/-- The text that is printed for an error. -/
def text? : ProgramError → Option String
  | options .nothingGiven => some Arguments.about
  | options e => (e.message? Arguments.programName).map ("error: " ++ ·)
  | settings e => some ("Error: " ++ e.message)
  | console e => some ("Error: " ++ e.message)
  | command e => some ("Error: " ++ e.message)

end ProgramError

/-- What there is to do, and with what. -/
structure Plan where
  client : Http.Client
  page : Page
  settings : Settings
  action : Action
  deriving Inhabited

/-- Reads the arguments and the settings. The base URL of the arguments goes before that of
the settings. -/
def plan (arguments : List String) (readText : String → Except FileError String)
    (env : Environment) : Except ProgramError Plan := do
  let a ← (Arguments.read arguments).mapError .options
  let settings ← (Settings.ofFile a.config (readText a.config) env).mapError .settings
  let base := a.baseUrl.getD settings.baseUrl
  let client ← (Http.Client.open base settings.credentials).mapError .console
  let page ← (Page.open base).mapError .console
  return { client, page, settings, action := a.action }

/-- What a command has printed and how it ended, and the calls that were made; a command
that did not end has no ending. -/
structure Result where
  lines : List Line
  ending : Option Ending
  calls : List Call
  deriving Inhabited

namespace Plan

def send (p : Plan) (cluster command : String) : Send :=
  { cluster, command, delay := p.settings.redirectDelay }

def watch (p : Plan) (enable : Bool) : Watch := { interval := p.settings.reloadInterval, enable }

/-- Runs a command on the page up to a limit. -/
def runActivity {σ : Type} (p : Plan) (a : Activity σ) (network : Http.Network) (limit : Nat) :
    Result :=
  let r := a.run (p.client.server network) limit (.ofPage p.page)
  { lines := r.lines
    ending := a.ending? r.stage
    calls := r.console.calls.map CallRecord.call }

def run (p : Plan) (network : Http.Network) (limit : Nat) : Result :=
  match p.action with
  | .send cluster command => p.runActivity (p.send cluster command).activity network limit
  | .entitled => p.runActivity Entitled.activity network limit
  | .watch enable => p.runActivity (p.watch enable).activity network limit

end Plan

/-- What the program leaves behind. -/
structure Report where
  status : Nat
  output : List String := []
  diagnostics : List String := []
  requests : List Http.Request := []
  deriving Inhabited

namespace Report

/-- The lines of printed texts. A carriage return may stand before the end of a line. -/
def lines (texts : List String) : List String :=
  texts.flatMap fun text => (text.splitOn "\n").map fun line => (line.dropSuffix "\r").toString

def ofError (e : ProgramError) : Report :=
  { status := e.status, diagnostics := lines e.text?.toList }

/-- The report of a command that ended, with the time of day and the identifier of a dispatch
that stand in its lines. -/
def ofResult (p : Plan) (network : Http.Network) (clock id : String) (r : Result)
    (ending : Ending) : Report :=
  let (diagnostics, output) := r.lines.partition Line.isDiagnostic
  let error : Option ProgramError :=
    match ending with
    | .ok _ => none
    | .error e => some (.command e)
  { status := match ending with
      | .ok exit => exit.status
      | .error e => ProgramError.status (.command e)
    output := lines (output.map (Line.text clock id))
    diagnostics :=
      lines (diagnostics.map (Line.text clock id) ++ (error.bind ProgramError.text?).toList)
    requests := p.client.received network r.calls }

end Report

/-- The report of the program, if it ends by a limit. -/
def report? (arguments : List String) (readText : String → Except FileError String)
    (env : Environment) (network : Http.Network) (limit : Nat) (clock id : String) :
    Option Report :=
  match plan arguments readText env with
  | .error e => some (.ofError e)
  | .ok p =>
    let r := p.run network limit
    r.ending.map (Report.ofResult p network clock id r)

end ClusterConsole.Cli
