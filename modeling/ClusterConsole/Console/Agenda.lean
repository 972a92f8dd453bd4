/-! Jobs that wait for their time. They stand in the order in which they fall due,
and those that fall due together in the order in which they were scheduled. Each
job has an identifier of its own, by which it can be cancelled. -/

namespace ClusterConsole

structure Job (α : Type) where
  id : Nat
  due : Nat
  task : α
  deriving DecidableEq, Repr, Inhabited

/-- The identifiers from `nextId` on were never given away. -/
structure Agenda (α : Type) where
  jobs : List (Job α) := []
  nextId : Nat := 0
  deriving DecidableEq, Repr, Inhabited

namespace Agenda

variable {α : Type}

/-- Puts a job behind all that fall due no later. -/
def insert (j : Job α) : List (Job α) → List (Job α)
  | [] => [j]
  | k :: rest => if j.due < k.due then j :: k :: rest else k :: insert j rest

/-- The new job has the identifier `a.nextId`. -/
def schedule (a : Agenda α) (due : Nat) (task : α) : Agenda α where
  jobs := insert ⟨a.nextId, due, task⟩ a.jobs
  nextId := a.nextId + 1

def cancel (a : Agenda α) (id : Nat) : Agenda α :=
  { a with jobs := a.jobs.filter (·.id != id) }

def holds (a : Agenda α) (id : Nat) : Bool := a.jobs.any (·.id == id)

/-- The first job, if it is due before a time. -/
def next? (a : Agenda α) (time : Nat) : Option (Job α) := a.jobs.head?.filter (·.due < time)

theorem mem_of_next? {a : Agenda α} {time : Nat} {j : Job α} (h : a.next? time = some j) :
    j ∈ a.jobs :=
  List.mem_of_mem_head? (Option.filter_eq_some_iff.1 h).1

/-! ### Work -/

def workOf (w : α → Nat) : List (Job α) → Nat
  | [] => 0
  | j :: rest => w j.task + workOf w rest

/-- The work that the jobs stand for, each task by its own weight. -/
def work (w : α → Nat) (a : Agenda α) : Nat := workOf w a.jobs

variable {w : α → Nat}

theorem workOf_insert (j : Job α) (jobs : List (Job α)) :
    workOf w (insert j jobs) = w j.task + workOf w jobs := by
  induction jobs with
  | nil => rfl
  | cons k rest ih =>
    simp only [insert]
    split
    · rfl
    · simp only [workOf, ih]
      omega

theorem work_schedule (a : Agenda α) (due : Nat) (task : α) :
    (a.schedule due task).work w = w task + a.work w :=
  workOf_insert ..

theorem workOf_filter_le (keep : Job α → Bool) (jobs : List (Job α)) :
    workOf w (jobs.filter keep) ≤ workOf w jobs := by
  induction jobs with
  | nil => exact Nat.le_refl _
  | cons k rest ih => by_cases hk : keep k <;> simp [hk, workOf] <;> omega

theorem work_cancel_le (a : Agenda α) (id : Nat) : (a.cancel id).work w ≤ a.work w :=
  workOf_filter_le _ a.jobs

theorem workOf_filter_of_mem {keep : Job α → Bool} {j : Job α} (hk : keep j = false) :
    ∀ {jobs : List (Job α)}, j ∈ jobs →
      workOf w (jobs.filter keep) + w j.task ≤ workOf w jobs
  | k :: rest, h => by
    rcases List.mem_cons.1 h with rfl | h
    · have := workOf_filter_le (w := w) keep rest
      simp [hk, workOf]; omega
    · have := workOf_filter_of_mem hk h
      by_cases hk' : keep k <;> simp [hk', workOf] <;> omega

/-- Cancelling a job takes its work away. -/
theorem work_cancel {a : Agenda α} {j : Job α} (h : j ∈ a.jobs) :
    (a.cancel j.id).work w + w j.task ≤ a.work w :=
  workOf_filter_of_mem (by simp) h

end Agenda

end ClusterConsole
