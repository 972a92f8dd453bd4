import ClusterConsole.Json.Record
import ClusterConsole.Json.Print

/-! The server's answer to the question whether a session may act. Every status
code comes with this shape, so both parts may be absent, and the flag may be any
JSON value: only the string `true` grants access. -/

namespace ClusterConsole

structure EntitlementResponse where
  flag : Option Json := none
  error : Option String := none
  deriving Inhabited

namespace EntitlementResponse

def entitled : EntitlementResponse := { flag := some (.string "true") }

def notEntitled : EntitlementResponse := { flag := some (.string "false") }

def isEntitled (r : EntitlementResponse) : Bool :=
  match r.flag with
  | some (.string s) => s == "true"
  | _ => false

/-! ### Reading -/

def flagName : String := "is_entitled"

def errorName : String := "error"

/-- The flag, one level inside the answer. -/
def readFlag (s : Json.Text) : Json.Read (Option Json) :=
  (Json.readOptional (Json.read 1) s).map fun (v, r) => (v.map Json.canonical, r)

def readError (s : Json.Text) : Json.Read (Option String) := Json.readOptional Json.readText s

/-- The members met so far. A member met without a value is not the same as one not
met. -/
structure Members where
  flag : Option (Option Json) := none
  error : Option (Option String) := none

/-- A member may stand once; members with other names are skipped. -/
def readMember (name : String) (met : Members) (s : Json.Text) : Json.Read Members :=
  if name = flagName then
    if met.flag.isSome then .error .mismatch
    else (Json.readMember readFlag s).map fun (v, r) => ({ met with flag := some v }, r)
  else if name = errorName then
    if met.error.isSome then .error .mismatch
    else (Json.readMember readError s).map fun (v, r) => ({ met with error := some v }, r)
  else (Json.skipMember s).map (met, ·)

def ofMembers (met : Members) : EntitlementResponse := ⟨met.flag.join, met.error.join⟩

/-- Flag and error as the items of an array; missing items are absent. -/
def readItems (s : Json.Text) : Except Json.Error (EntitlementResponse × Json.Text) := do
  let (flag, r) ← Json.readItem true readFlag s
  match flag with
  | none => return ({}, ← Json.closeItems r)
  | some flag =>
    let (error, r) ← Json.readItem false readError r
    return (⟨flag, error.join⟩, ← Json.closeItems r)

def readResponse (s : Json.Text) : Json.Read EntitlementResponse :=
  match Json.skipBlanks s with
  | some '\x7b' :: r => (Json.readRecord readMember {} r).map fun (met, r) => (ofMembers met, r)
  | some '[' :: r => readItems r
  | _ => .error (Json.mismatchAt s)

/-- The answer that a document is. -/
def read (s : Json.Text) : Except Json.Error EntitlementResponse := Json.finish (readResponse s)

/-! ### Writing -/

/-- Absent parts are left out. -/
def toJson (r : EntitlementResponse) : Json :=
  .object ((r.flag.map ((flagName, ·))).toList ++ (r.error.map ((errorName, .string ·))).toList)

def print (r : EntitlementResponse) : String := String.ofList r.toJson.print

end EntitlementResponse

end ClusterConsole
