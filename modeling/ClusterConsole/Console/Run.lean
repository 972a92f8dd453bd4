import ClusterConsole.Console.AutoReload
import ClusterConsole.Console.Dispatch

/-! The passing of time. Jobs are done in the order of the agenda, each at the moment
at which it falls due; a job may schedule others, which are done in their turn. -/

namespace ClusterConsole.Console

/-- Does a task. -/
def perform (s : Server) (c : Console) : Task → Console
  | .reload => { c with page := c.page.reload }
  | .goHome => c.navigate Route.home
  | .submit request => c.submit s request
  | .submitted _ => c
  | .dispatch i request =>
    let (answer, c) := c.ask s
    c.schedule answer.delay (.conclude i request answer.result)
  | .conclude i request result =>
    let (outcome, c) := c.conclude i request result
    { c with completed := c.completed ++ [⟨c.now, request.command, outcome⟩] }
  | .act actions => c.act actions

/-- Does a job of the agenda, now or when it falls due. -/
def resume (s : Server) (c : Console) (j : Job Task) : Console :=
  perform s { c with now := max c.now j.due, agenda := c.agenda.cancel j.id } j.task

theorem work_perform_lt (s : Server) (c : Console) (task : Task) :
    (c.perform s task).work < c.work + task.weight := by
  cases task with
  | submit request =>
    have := work_submit_le s c request
    simp only [perform, Task.weight]
    omega
  | dispatch i request =>
    have h : (c.ask s).2.work = c.work := rfl
    simp only [perform, work_schedule, h, Task.weight]
    omega
  | conclude i request result =>
    have := work_conclude_le c i request result
    simp only [perform, Task.weight]
    show (c.conclude i request result).2.work < _
    omega
  | _ => exact Nat.lt_succ_self _

/-- A job leaves less to do than there was. -/
theorem work_resume_lt (s : Server) {c : Console} {j : Job Task} (h : j ∈ c.agenda.jobs) :
    (c.resume s j).work < c.work := by
  have hw : (c.agenda.cancel j.id).work Task.weight + j.task.weight ≤ c.work :=
    Agenda.work_cancel h
  refine Nat.lt_of_lt_of_le (work_perform_lt s _ j.task) ?_
  exact hw

/-- Does all that falls due before a time. -/
def runBefore (s : Server) (time : Nat) (c : Console) : Console :=
  match _h : c.agenda.next? time with
  | some j => runBefore s time (c.resume s j)
  | none => c
termination_by c.work
decreasing_by exact work_resume_lt s (Agenda.mem_of_next? _h)

/-- Does all that is due by now. -/
def settle (s : Server) (c : Console) : Console := c.runBefore s (c.now + 1)

/-- Lets time pass up to a moment and does what falls due on the way, but not what falls
due at that very moment. -/
def passTo (s : Server) (c : Console) (time : Nat) : Console :=
  let c := c.runBefore s time
  { c with now := max c.now time }

/-- Lets time pass and does all that falls due. -/
def advance (s : Server) (c : Console) (duration : Nat) : Console :=
  (c.passTo s (c.after duration)).settle s

end ClusterConsole.Console
