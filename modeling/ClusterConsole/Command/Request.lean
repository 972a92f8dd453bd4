import ClusterConsole.Name

/-! The body of a command: the cluster that it is for, and its text. -/

namespace ClusterConsole

structure CommandRequest where
  target : ClusterName
  command : String
  deriving DecidableEq, Repr, Inhabited

namespace CommandRequest

def ofTexts (target command : String) : CommandRequest := ⟨⟨target⟩, command⟩

/-! ### Reading -/

def targetName : String := "cluster"

def commandName : String := "command"

structure Members where
  target : Option String := none
  command : Option String := none

/-- A member may stand once, and no member has another name. -/
def readMember (name : String) (met : Members) (s : Json.Text) : Json.Read Members :=
  if name = targetName then
    if met.target.isSome then .error .mismatch
    else (Json.readMember Json.readText s).map fun (t, r) => ({ met with target := some t }, r)
  else if name = commandName then
    if met.command.isSome then .error .mismatch
    else (Json.readMember Json.readText s).map fun (t, r) => ({ met with command := some t }, r)
  else .error .mismatch

/-- Both members have to be there. -/
def ofMembers (met : Members) : Except Json.Error CommandRequest :=
  match met.target, met.command with
  | some target, some command => .ok (ofTexts target command)
  | _, _ => .error .mismatch

/-- Target and command as the items of an array. -/
def readItems (s : Json.Text) : Except Json.Error (CommandRequest × Json.Text) := do
  let (target, r) ← Json.readItem true Json.readText s
  let (command, r) ← if target.isSome then Json.readItem false Json.readText r else .ok (none, r)
  let request ← ofMembers { target, command }
  return (request, ← Json.closeItems r)

def readRequest (s : Json.Text) : Except Json.Error (CommandRequest × Json.Text) :=
  match Json.skipBlanks s with
  | some '\x7b' :: r => do
    let (met, r) ← Json.readRecord readMember {} r
    return (← ofMembers met, r)
  | some '[' :: r => readItems r
  | _ => .error (Json.mismatchAt s)

/-- The request that a document is. -/
def read (s : Json.Text) : Except Json.Error CommandRequest := Json.finish (readRequest s)

/-! ### Writing -/

def toJson (r : CommandRequest) : Json :=
  .object [(targetName, .string r.target.text), (commandName, .string r.command)]

def print (r : CommandRequest) : String := String.ofList r.toJson.print

end CommandRequest

end ClusterConsole
