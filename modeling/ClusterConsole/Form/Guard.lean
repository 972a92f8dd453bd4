import ClusterConsole.Error
import ClusterConsole.Form.Document
import ClusterConsole.Route

/-! The guard that validates forms before they are submitted. It guards the
identifiers of the forms that were marked when it was installed. -/

namespace ClusterConsole

/-- A submission on its way, and whether something stopped it. -/
structure SubmitEvent where
  defaultPrevented : Bool := false
  propagationStopped : Bool := false
  deriving DecidableEq, Repr, Inhabited

structure FormGuard where
  guarded : List FormId := []
  deriving DecidableEq, Repr, Inhabited

namespace FormGuard

def install (d : Document) : FormGuard :=
  ⟨(d.forms.filter (·.hasClass needsValidation)).map Form.id⟩

def guards (g : FormGuard) (id : FormId) : Bool := g.guarded.contains id

/-- What validating a form does to an event: a form that is not valid stops it, and
a valid one leaves it. -/
def judge (f : Form) (e : SubmitEvent) : SubmitEvent :=
  if f.isValid then e else { defaultPrevented := true, propagationStopped := true }

/-- Validates a form: it is marked, and the event is judged. -/
def intercept (f : Form) (e : SubmitEvent) : Form × SubmitEvent :=
  (f.addClass wasValidated, judge f e)

/-- Submits the first form with the identifier; a guarded one is validated. -/
def submit (g : FormGuard) (d : Document) (id : FormId) :
    Except ConsoleError (SubmitEvent × Document) :=
  match d.form? id with
  | none => .error (.unknownForm id.text)
  | some f =>
    if g.guards id then
      .ok ((intercept f {}).2, d.modifyForm id fun f => (intercept f {}).1)
    else .ok ({}, d)

end FormGuard

end ClusterConsole
