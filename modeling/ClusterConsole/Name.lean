import ClusterConsole.Json.Record
import ClusterConsole.Json.Print

/-! Names of clusters and forms. In JSON a name is a string. -/

namespace ClusterConsole

structure ClusterName where
  text : String
  deriving DecidableEq, Repr, Inhabited

structure FormId where
  text : String
  deriving DecidableEq, Repr, Inhabited

/-- The string that a document is. -/
def readName (s : Json.Text) : Except Json.Error String := Json.finish (Json.readText s)

namespace ClusterName

def read (s : Json.Text) : Except Json.Error ClusterName := (readName s).map ClusterName.mk

def print (n : ClusterName) : String := String.ofList (Json.printString n.text)

/-- Names are ordered by code points, which is the order of their bytes. -/
def le (m n : ClusterName) : Bool := !decide (n.text < m.text)

/-- Drops each element that equals the one before it. -/
def dropRepeats : List ClusterName → List ClusterName
  | [] => []
  | [n] => [n]
  | m :: n :: rest => if m = n then dropRepeats (n :: rest) else m :: dropRepeats (n :: rest)

/-- The names in order, each once. -/
def sort (names : List ClusterName) : List ClusterName := dropRepeats (names.mergeSort le)

end ClusterName

namespace FormId

def read (s : Json.Text) : Except Json.Error FormId := (readName s).map FormId.mk

def print (i : FormId) : String := String.ofList (Json.printString i.text)

end FormId

end ClusterConsole
