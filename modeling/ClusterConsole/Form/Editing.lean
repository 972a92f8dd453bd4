import ClusterConsole.Form.Guard

/-! A document under a guard, and what may be done to the two. -/

namespace ClusterConsole

structure Editor where
  document : Document := {}
  guard : FormGuard := {}
  deriving DecidableEq, Repr, Inhabited

inductive Edit where
  /-- Installs a new guard on the document as it is. -/
  | install
  | submit (id : FormId)
  /-- Validates a form with an event of one's own, guarded or not. -/
  | intercept (id : FormId) (event : SubmitEvent)
  | addForm (form : Form)
  | addClass (id : FormId) (name : String)
  | setValue (id : FormId) (field value : String)
  deriving DecidableEq, Repr, Inhabited

inductive EditResult where
  | done
  | event (e : SubmitEvent)
  | unknownForm (e : ConsoleError)
  | noForm
  | noField
  deriving DecidableEq, Repr, Inhabited

namespace Editor

/-- Changes the first form with the identifier, if there is one. -/
def onForm (s : Editor) (id : FormId) (change : Form → Form) (result : Form → EditResult) :
    Editor × EditResult :=
  match s.document.form? id with
  | none => (s, .noForm)
  | some f => ({ s with document := s.document.modifyForm id change }, result f)

def apply (s : Editor) : Edit → Editor × EditResult
  | .install => ({ s with guard := .install s.document }, .done)
  | .submit id =>
    match s.guard.submit s.document id with
    | .ok (e, d) => ({ s with document := d }, .event e)
    | .error e => (s, .unknownForm e)
  | .intercept id e =>
    s.onForm id (fun f => (FormGuard.intercept f e).1) fun f => .event (FormGuard.intercept f e).2
  | .addForm f => ({ s with document := s.document.addForm f }, .done)
  | .addClass id name => s.onForm id (·.addClass name) fun _ => .done
  | .setValue id field value =>
    s.onForm id (·.setValue field value) fun f =>
      if (f.field? field).isSome then .done else .noField

end Editor

end ClusterConsole
