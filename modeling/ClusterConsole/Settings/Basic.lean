import ClusterConsole.Credentials
import ClusterConsole.Settings.Files
import ClusterConsole.Toml.Document

/-! The settings of the console: defaults, over them the entries of a file, and over
those the environment. What cannot be used in one source leaves the field to the
next. -/

namespace ClusterConsole

/-- The variables of a process, each with its bytes. -/
structure Environment where
  bindings : List (String × List UInt8) := []
  deriving Inhabited

/-- The text of a variable. One that is no text counts as not set. -/
def Environment.text? (env : Environment) (name : String) : Option String :=
  (env.bindings.lookup name).bind Utf8.text?

/-- Times are in milliseconds. -/
structure Settings where
  baseUrl : String := "http://127.0.0.1:8080"
  accessToken : Option String := none
  userId : Option String := none
  reloadInterval : Nat := defaultReloadInterval
  redirectDelay : Nat := defaultRedirectDelay
  deriving DecidableEq, Repr, Inhabited

inductive SettingsError where
  /-- The file at the path is no TOML document. -/
  | invalid (path : String)
  /-- The file at the path is there, but it has no text. -/
  | unreadable (path : String)
  deriving DecidableEq, Repr, Inhabited

def SettingsError.message : SettingsError → String
  | invalid path => "invalid config file '" ++ path ++ "'"
  | unreadable path => "failed to read '" ++ path ++ "'"

namespace Settings

/-! ### Sources -/

/-- The number that a text is: digits, perhaps after a plus, for at most 64 bits. -/
def number? (s : String) : Option Nat :=
  let digits :=
    match s.toList with
    | '+' :: r => r
    | r => r
  if digits.isEmpty || !digits.all Char.isDigit then none
  else
    let n := digits.foldl (fun n c => 10 * n + (c.toNat - 48)) 0
    if n < Nat.pow 2 64 then some n else none

/-- The text of a value: a string, or an integer as it is printed. -/
def entryText? : Toml.Value → Option String
  | .string text => some text
  | .integer n => some (toString n)
  | _ => none

/-- The text of an entry of the file. -/
def fileText? (file : Toml.Entries) (name : String) : Option String :=
  (file.get? name).bind entryText?

/-- The variables that are looked at. -/
def variableNames : List String :=
  ["APP__BASE_URL", "CONSOLE_BASE_URL", "CONSOLE_ACCESS_TOKEN", "CONSOLE_USER_ID",
    "APP__RELOAD_INTERVAL_MS", "APP__REDIRECT_DELAY_MS"]

/-- The settings that a file and an environment make. -/
def ofSources (file : Toml.Entries) (env : Environment) : Settings where
  baseUrl :=
    (env.text? "APP__BASE_URL" <|> env.text? "CONSOLE_BASE_URL" <|> fileText? file "base_url").getD
      ({} : Settings).baseUrl
  accessToken := env.text? "CONSOLE_ACCESS_TOKEN" <|> fileText? file "access_token"
  userId := env.text? "CONSOLE_USER_ID" <|> fileText? file "user_id"
  reloadInterval :=
    ((env.text? "APP__RELOAD_INTERVAL_MS").bind number? <|>
      (fileText? file "reload_interval_ms").bind number?).getD ({} : Settings).reloadInterval
  redirectDelay :=
    ((env.text? "APP__REDIRECT_DELAY_MS").bind number? <|>
      (fileText? file "redirect_delay_ms").bind number?).getD ({} : Settings).redirectDelay

/-- The settings from what was read at a path. A file that is not there counts as
empty. -/
def ofFile (path : String) (text : Except FileError String) (env : Environment) :
    Except SettingsError Settings :=
  match text with
  | .error .notFound => .ok (ofSources [] env)
  | .error .unreadable => .error (.unreadable path)
  | .ok text =>
    match Toml.read text with
    | none => .error (.invalid path)
    | some file => .ok (ofSources file env)

/-- Loads the settings from a file. -/
def load (fs : FileSystem) (path : String) (env : Environment) : Except SettingsError Settings :=
  ofFile path (fs.readText path) env

/-- The cookies that are set. -/
def credentials (s : Settings) : Credentials := ⟨s.accessToken, s.userId⟩

end Settings

end ClusterConsole
