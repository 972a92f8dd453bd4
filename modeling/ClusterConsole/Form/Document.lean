import ClusterConsole.Form.Field
import ClusterConsole.Name

/-! Forms with their classes and fields, and the document that holds them. Names
and identifiers may repeat; a look-up finds the first. -/

namespace ClusterConsole

structure Form where
  id : FormId
  classes : List String := []
  fields : List Field := []
  deriving DecidableEq, Repr, Inhabited

/-- Changes the first element that satisfies a condition. -/
def modifyFirst {α : Type} (p : α → Bool) (f : α → α) : List α → List α
  | [] => []
  | a :: rest => if p a then f a :: rest else a :: modifyFirst p f rest

namespace Form

def hasClass (f : Form) (c : String) : Bool := f.classes.contains c

/-- A class that is there already is not added again. -/
def addClass (f : Form) (c : String) : Form :=
  if f.hasClass c then f else { f with classes := f.classes ++ [c] }

def addClasses (f : Form) (cs : List String) : Form := cs.foldl addClass f

def field? (f : Form) (name : String) : Option Field := f.fields.find? (·.name == name)

/-- Sets the value of the first field with the name. -/
def setValue (f : Form) (name value : String) : Form :=
  { f with fields := modifyFirst (·.name == name) (·.setValue value) f.fields }

def isValid (f : Form) : Bool := f.fields.all Field.isValid

/-- The fields that are not valid, by name and message, in order. -/
def invalidFields (f : Form) : List (String × String) :=
  f.fields.filterMap fun field => field.message?.map (field.name, ·)

end Form

structure Document where
  forms : List Form := []
  deriving DecidableEq, Repr, Inhabited

namespace Document

def addForm (d : Document) (f : Form) : Document := { d with forms := d.forms ++ [f] }

def form? (d : Document) (id : FormId) : Option Form := d.forms.find? (·.id == id)

/-- Changes the first form with the identifier. -/
def modifyForm (d : Document) (id : FormId) (f : Form → Form) : Document :=
  { d with forms := modifyFirst (·.id == id) f d.forms }

end Document

end ClusterConsole
