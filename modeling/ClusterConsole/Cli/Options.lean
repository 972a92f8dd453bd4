import ClusterConsole.Text.Terminal

/-! Options on a command line. An option is written `--name value` or `--name=value`, a
flag `--name`; two dashes alone end the options. A value that stands apart from its
option is taken up only when the next option or the end is reached, so an earlier
mistake in what follows is reported first. -/

namespace ClusterConsole.Cli

structure Opt where
  name : String
  /-- How the value is called in messages; a flag has none. -/
  value : Option String := none
  /-- Whether a value may be empty. -/
  mayBeEmpty : Bool := true
  deriving DecidableEq, Repr, Inhabited

def Opt.text (o : Opt) : String :=
  "--" ++ o.name ++ o.value.elim "" fun v => " <" ++ v ++ ">"

inductive OptionError where
  | unknownArgument (argument : String)
  | unknownCommand (name : String)
  | missingValue (o : Opt)
  | repeated (o : Opt)
  /-- A value for a flag. -/
  | unexpectedValue (value flag : String)
  | missingOptions (options : List Opt)
  | missingCommand
  | nothingGiven
  /-- No mistake: a request for help. -/
  | help
  /-- No mistake: a request for the version. -/
  | version
  deriving DecidableEq, Repr, Inhabited

/-- What may stand on a command line. -/
structure Grammar where
  options : List Opt := []
  commands : List String := []
  hasVersion : Bool := false
  deriving DecidableEq, Repr, Inhabited

/-- What was read so far. `pending` is the last option, which waits for its value or to be
taken up. -/
structure Given where
  values : List (String × String) := []
  pending : Option (Opt × Option String) := none
  deriving DecidableEq, Repr, Inhabited

namespace Given

def has (g : Given) (o : Opt) : Bool := (g.values.lookup o.name).isSome

/-- Adds an option with its value. -/
def add (g : Given) (o : Opt) (value : String) : Except OptionError Given :=
  if g.has o then .error (.repeated o)
  else if value.isEmpty && !o.mayBeEmpty then .error (.missingValue o)
  else .ok { g with values := g.values ++ [(o.name, value)] }

/-- Takes up the option that is pending. -/
def settle (g : Given) : Except OptionError Given :=
  match g.pending with
  | none => .ok g
  | some (o, none) => .error (.missingValue o)
  | some (o, some value) => { g with pending := none }.add o value

/-- Whether the next argument is a value, unless it is an option itself. -/
def wantsValue (g : Given) : Bool :=
  match g.pending with
  | some (_, none) => true
  | _ => false

/-- Gives the pending option its value. -/
def supply (g : Given) (value : String) : Given :=
  { g with pending := g.pending.map fun (o, _) => (o, some value) }

end Given

namespace Grammar

/-- The flags that end the reading. -/
def request? (g : Grammar) (name : String) : Option OptionError :=
  if name = "help" then some .help
  else if name = "version" ∧ g.hasVersion then some .version
  else none

/-- An argument that starts with two dashes. -/
def long (g : Grammar) (given : Given) (name : String) (value : Option String) :
    Except OptionError Given :=
  match g.options.find? (·.name == name), value with
  | some o, some value =>
    if o.value.isSome then do (← given.settle).add o value
    else .error (.unexpectedValue value o.text)
  | some o, none => do
    let given ← given.settle
    if o.value.isSome then return { given with pending := some (o, none) }
    given.add o "true"
  | none, value =>
    match g.request? name, value with
    | none, _ => .error (.unknownArgument ("--" ++ name))
    | some _, some value => .error (.unexpectedValue value ("--" ++ name))
    | some request, none => do
      let _ ← given.settle
      .error request

/-- What an argument with one dash leads to: its first letter may ask for something. -/
def short (g : Grammar) (given : Given) (letter : Char) : OptionError :=
  let request :=
    if letter = 'h' then g.request? "help"
    else if letter = 'V' then g.request? "version"
    else none
  match request, given.settle with
  | none, _ => .unknownArgument ("-" ++ letter.toString)
  | some _, .error e => e
  | some request, .ok _ => request

/-- What an argument that is no option leads to where none is expected. -/
def stray (g : Grammar) (afterDashes : Bool) (argument : String) : OptionError :=
  if g.commands.isEmpty then .unknownArgument argument
  else if afterDashes ∧ argument ∈ g.commands then .unknownArgument argument
  else .unknownCommand argument

/-- What the command `help` leads to, with the names after it. -/
def helpOn (g : Grammar) : List String → OptionError
  | [] => .help
  | name :: rest =>
    if name ∉ g.commands then .unknownCommand name
    else
      match rest with
      | [] => .help
      | next :: _ => .unknownCommand next

/-- The name and the value of an argument that starts with two dashes. -/
def longParts? (argument : String) : Option (String × Option String) :=
  match argument.toList with
  | '-' :: '-' :: r =>
    let name := r.takeWhile (· != '=')
    match r.dropWhile (· != '=') with
    | [] => some (String.ofList name, none)
    | _ :: value => some (String.ofList name, some (String.ofList value))
  | _ => none

/-- The first letter of an argument that starts with one dash. -/
def letter? (argument : String) : Option Char :=
  match argument.toList with
  | '-' :: c :: _ => some c
  | _ => none

/-- Reads arguments up to the end, or up to a command, which is given with what follows
it. -/
def read (g : Grammar) (afterDashes : Bool) (given : Given) :
    List String → Except OptionError (Given × Option (String × List String))
  | [] => .ok (given, none)
  | argument :: rest =>
    if afterDashes then .error (g.stray true argument)
    else if !given.wantsValue && g.commands.contains argument then
      if argument = "help" then .error (g.helpOn rest) else .ok (given, some (argument, rest))
    else if argument = "--" then read g true given rest
    else
      match longParts? argument with
      | some (name, value) =>
        match g.long given name value with
        | .error e => .error e
        | .ok given => read g false given rest
      | none =>
        match letter? argument with
        | some letter => .error (g.short given letter)
        | none =>
          if given.wantsValue then read g false (given.supply argument) rest
          else .error (g.stray false argument)

end Grammar

/-! ### Messages -/

namespace OptionError

/-- What is wrong, with the arguments as a terminal may show them. A request has no message, and
neither has an empty command line, which is answered with help. -/
def message? (program : String) : OptionError → Option String
  | unknownArgument argument =>
    some ("unexpected argument '" ++ Terminal.plain argument ++ "' found")
  | unknownCommand name => some ("unrecognized subcommand '" ++ Terminal.plain name ++ "'")
  | missingValue o => some ("a value is required for '" ++ o.text ++ "' but none was supplied")
  | repeated o => some ("the argument '" ++ o.text ++ "' cannot be used multiple times")
  | unexpectedValue value flag =>
    some ("unexpected value '" ++ Terminal.plain value ++ "' for '" ++ flag ++
      "' found; no more were expected")
  | missingOptions _ => some "the following required arguments were not provided:"
  | missingCommand =>
    some ("'" ++ program ++ "' requires a subcommand but one was not provided")
  | nothingGiven | help | version => none

/-- The exit status: only a request is no failure. -/
def status : OptionError → Nat
  | help | version => 0
  | _ => 2

end OptionError

end ClusterConsole.Cli
