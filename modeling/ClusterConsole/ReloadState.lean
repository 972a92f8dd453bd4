import ClusterConsole.Json.Record
import ClusterConsole.Json.Print

/-! Whether a page is reloaded on its own. In JSON a state is its name, or an
object whose one member has that name and no value. -/

namespace ClusterConsole

inductive ReloadState where
  | off
  | on
  deriving DecidableEq, Repr, Inhabited

namespace ReloadState

def text : ReloadState → String
  | off => "off"
  | on => "on"

instance : ToString ReloadState := ⟨text⟩

def ofText? (s : String) : Option ReloadState :=
  if s = "off" then some off else if s = "on" then some on else none

def readName (s : Json.Text) : Json.Read ReloadState :=
  match Json.readText s with
  | .error e => .error e
  | .ok (t, r) =>
    match ofText? t with
    | some state => .ok (state, r)
    | none => .error .mismatch

/-- The value of the member that names a state. -/
def readNull (s : Json.Text) : Except Json.Error Json.Text :=
  match Json.skipBlanks s with
  | some 'n' :: r => Json.readWord "ull".toList r
  | _ => .error (Json.mismatchAt s)

/-- The name that opens an object. Nothing but a string may stand there. -/
def readMemberName (s : Json.Text) : Json.Read ReloadState :=
  match Json.skipBlanks s with
  | [] => .error .truncated
  | some '"' :: _ => readName s
  | _ => .error .malformed

/-- A state as an object, from after its brace. -/
def readObject (s : Json.Text) : Except Json.Error (ReloadState × Json.Text) := do
  let (state, r) ← readMemberName s
  let r ← Json.readColon r
  let r ← readNull r
  match Json.skipBlanks r with
  | [] => .error .truncated
  | some '\x7d' :: r => .ok (state, r)
  | _ => .error .malformed

def read (s : Json.Text) : Except Json.Error ReloadState :=
  Json.finish <|
    match Json.skipBlanks s with
    | [] => .error .truncated
    | some '\x7b' :: r => readObject r
    | some '"' :: r => readName (some '"' :: r)
    | _ => .error .malformed

def print (state : ReloadState) : String := String.ofList (Json.printString state.text)

end ReloadState

end ClusterConsole
