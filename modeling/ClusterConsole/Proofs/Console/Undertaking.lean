import ClusterConsole.Proofs.Console.Work

/-! Who makes which call. The dispatches, checks and enforcements that a run begins are
kept in a ledger, each with what it has done so far: the call that asks for its
entitlement, the answer it went by and when it did, and the submission it made. The ledger
knows them by their jobs and inquiries alone and never looks at an answer. -/

namespace ClusterConsole

/-- How far an undertaking has come. Calls are named by their positions, jobs by their
identifiers. -/
inductive Stage where
  | begun (job : Nat)
  /-- It waits for its answer, on the agenda or, without a job, as an inquiry. -/
  | asked (call : Nat) (job : Option Nat)
  /-- It went by an answer at a time. The job is what it left to be done. -/
  | answered (call time : Nat) (result : Except String EntitlementResponse) (job : Option Nat)
  | submitted (call time : Nat) (result : Except String EntitlementResponse) (submission : Nat)

/-- A dispatch, a check or an enforcement. -/
structure Undertaking where
  purpose : Purpose
  stage : Stage

namespace Stage

/-- The job that has still to be done. -/
def job? : Stage → Option Nat
  | begun job => some job
  | asked _ job => job
  | answered _ _ _ job => job
  | submitted .. => none

/-- The call that somebody waits for. -/
def inquiry? : Stage → Option Nat
  | asked call none => some call
  | _ => none

/-- The call for the entitlement. -/
def call? : Stage → Option Nat
  | begun _ => none
  | asked call _ => some call
  | answered call .. => some call
  | submitted call .. => some call

/-- The answer it went by, and when it did. -/
def heard? : Stage → Option (Nat × Except String EntitlementResponse)
  | answered _ time result _ => some (time, result)
  | submitted _ time result _ => some (time, result)
  | _ => none

def submission? : Stage → Option Nat
  | submitted _ _ _ submission => some submission
  | _ => none

/-- A call of one kind that it has made. -/
def made? (stage : Stage) : Call → Option Nat
  | .entitlement => stage.call?
  | .submit _ => stage.submission?
  | .view _ => none

/-- What comes after a job is done, with the job that it left to be done. -/
def next (c : Console) (task : Task) (job : Option Nat) : Stage → Stage
  | begun _ => asked c.calls.length job
  | asked call before =>
    match task with
    | .conclude _ _ result => answered call c.now result job
    | _ => asked call before
  | answered call time result _ => submitted call time result c.calls.length
  | stage => stage

end Stage

/-- What a move begins. -/
def Move.begins? : Move → Option Purpose
  | .ask purpose => some purpose
  | .start i request => some (.dispatch i request)
  | _ => none

namespace World

/-- The first job that a move puts on the agenda. -/
def newJob? (s : Server) (w : World) (m : Move) : Option Nat :=
  if w.console.agenda.nextId < (w.move s m).console.agenda.nextId then some w.console.agenda.nextId
  else none

/-- The ledger after a move. -/
def note (s : Server) (w : World) (ledger : List Undertaking) (m : Move) : List Undertaking :=
  match m with
  | .ask purpose => ledger ++ [⟨purpose, .asked w.console.calls.length none⟩]
  | .start i request => ledger ++ [⟨.dispatch i request, .begun w.console.agenda.nextId⟩]
  | .answer q => ledger.map fun u =>
    if u.stage.inquiry? = some q.call then
      { u with stage := .answered q.call w.console.now q.result (newJob? s w m) }
    else u
  | .resume j => ledger.map fun u =>
    if u.stage.job? = some j.id then
      { u with stage := u.stage.next w.console j.task (newJob? s w m) }
    else u
  | _ => ledger

/-- The ledger after a run, from the one before it. -/
def ledger (s : Server) : World → List Undertaking → List Move → List Undertaking
  | _, before, [] => before
  | w, before, m :: ms => ledger s (w.move s m) (w.note s before m) ms

variable {s : Server} {w : World} {m : Move} {ms : List Move} {before : List Undertaking}

/-- Every undertaking is in the ledger, in the order in which they began. -/
theorem purposes_note :
    (w.note s before m).map (·.purpose) = before.map (·.purpose) ++ m.begins?.toList := by
  cases m with
  | ask purpose => simp [note, Move.begins?]
  | start i request => simp [note, Move.begins?]
  | answer q =>
    simp only [note, Move.begins?, List.map_map, Option.toList_none, List.append_nil]
    refine List.map_congr_left fun u _ => ?_
    simp only [Function.comp_apply]
    split <;> rfl
  | resume j =>
    simp only [note, Move.begins?, List.map_map, Option.toList_none, List.append_nil]
    refine List.map_congr_left fun u _ => ?_
    simp only [Function.comp_apply]
    split <;> rfl
  | _ => simp [note, Move.begins?]

theorem purposes_ledger :
    (ledger s w before ms).map (·.purpose) =
      before.map (·.purpose) ++ ms.filterMap Move.begins? := by
  induction ms generalizing w before with
  | nil => simp [ledger]
  | cons m ms ih =>
    rw [ledger, ih, purposes_note, List.filterMap_cons]
    cases m.begins? <;> simp

end World

end ClusterConsole
