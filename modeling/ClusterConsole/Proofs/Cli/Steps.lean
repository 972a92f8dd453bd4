import Mathlib.Data.Option.Basic
import ClusterConsole.Proofs.Cli.Beside

/-! The steps of a command in the order of the program, one lemma for each thing that the program
may do next. -/

namespace ClusterConsole.Cli

variable {σ : Type} {a : Activity σ} {s : Server} {r r' : Run σ} {limit n : Nat}

namespace Activity

theorem steps_of_next (h : a.next? s limit r = some r') :
    a.steps s limit (n + 1) r = a.steps s limit n r' := by
  rw [steps, h]

theorem steps_of_stuck (h : a.next? s limit r = none) : a.steps s limit n r = r := by
  cases n with
  | zero => rfl
  | succ n => rw [steps, h]

theorem steps_one (h : a.next? s limit r = some r') : a.steps s limit 1 r = r' := by
  rw [steps_of_next h, steps]

/-- Some steps and then some others. -/
theorem steps_add (m n : Nat) (r : Run σ) :
    a.steps s limit (m + n) r = a.steps s limit n (a.steps s limit m r) := by
  induction m generalizing r with
  | zero => rw [Nat.zero_add, steps]
  | succ m ih =>
    rw [Nat.succ_add]
    cases hnext : a.next? s limit r with
    | none => rw [steps_of_stuck hnext, steps_of_stuck hnext, steps_of_stuck hnext]
    | some r' => rw [steps_of_next hnext, steps_of_next hnext, ih]

theorem takeTurn?_of_turn {t : Turn σ} (h : a.turn? s r.console r.stage = some t) :
    ∃ r', a.takeTurn? s r = some r' ∧ r'.console = t.console ∧ r'.stage = t.stage ∧
      r'.ready = true := by
  unfold takeTurn?
  rw [h]
  exact ⟨_, rfl, rfl, rfl, rfl⟩

theorem takeTurn?_of_waits (h : a.turn? s r.console r.stage = none) : a.takeTurn? s r = none := by
  unfold takeTurn?
  rw [h]
  rfl

theorem doJob?_of_jobs {time : Nat} {j : Job Task} {rest : List (Job Task)}
    (hjobs : r.console.agenda.jobs = j :: rest) (hdue : j.due < time) :
    doJob? s time r = some { r with console := r.console.resume s j, ready := false } := by
  unfold doJob?
  rw [Agenda.next?_of_jobs hjobs hdue]
  rfl

theorem doJob?_eq_none {time : Nat} (h : ∀ k ∈ r.console.agenda.jobs, time ≤ k.due) :
    doJob? s time r = none := by
  unfold doJob?
  rw [Agenda.next?_eq_none h]
  rfl

/-! ### What comes next -/

theorem doJob?_elim {time : Nat} (h : doJob? s time r = some r') : ∃ j rest,
    r.console.agenda.jobs = j :: rest ∧
      r' = { r with console := r.console.resume s j, ready := false } := by
  obtain ⟨j, hj, rfl⟩ := Option.map_eq_some_iff.1 h
  obtain ⟨hhead, -⟩ := Option.filter_eq_some_iff.1 hj
  obtain ⟨rest, hjobs⟩ := List.head?_eq_some_iff.1 hhead
  exact ⟨j, rest, hjobs, rfl⟩

/-- The command has its turn, or the first job is done, or the moment comes that is waited for. -/
theorem next?_cases (h : a.next? s limit r = some r') :
    a.takeTurn? s r = some r' ∨
      (∃ j rest, r.console.agenda.jobs = j :: rest ∧
        r' = { r with console := r.console.resume s j, ready := false }) ∨
      a.wakeUp? limit r = some r' := by
  unfold next? at h
  split at h
  · cases h
  · simp only [Option.orElse_eq_some] at h
    rcases h with hfirst | ⟨-, hdue | ⟨-, hturn | ⟨-, hlater | ⟨-, hwake⟩⟩⟩⟩
    · split at hfirst
      · exact .inl hfirst
      · cases hfirst
    · exact .inr (.inl (doJob?_elim hdue))
    · exact .inl hturn
    · exact .inr (.inl (doJob?_elim hlater))
    · exact .inr (.inr hwake)

/-- A prompt command has its turn. -/
theorem next?_of_turn (hending : a.ending? r.stage = none) (hprompt : Prompt r)
    (h : a.takeTurn? s r = some r') : a.next? s limit r = some r' := by
  unfold next?
  rw [hending, if_neg (by decide), h]
  cases hready : r.ready with
  | true => rfl
  | false =>
    have hlate : ∀ j ∈ r.console.agenda.jobs, r.console.now + 1 ≤ j.due := by
      rcases hprompt with hyes | hlate
      · rw [hready] at hyes
        cases hyes
      · exact hlate
    rw [doJob?_eq_none hlate]
    rfl

/-- A job that is due is done before a command goes on that had to wait. -/
theorem next?_of_due {j : Job Task} {rest : List (Job Task)} (hending : a.ending? r.stage = none)
    (hwaits : r.ready = true → a.takeTurn? s r = none)
    (hjobs : r.console.agenda.jobs = j :: rest) (hdue : j.due ≤ r.console.now) :
    a.next? s limit r = some { r with console := r.console.resume s j, ready := false } := by
  have hnone : (if r.ready then a.takeTurn? s r else none) = none := by
    split
    · next hready => exact hwaits hready
    · rfl
  unfold next?
  rw [hending, if_neg (by decide), hnone, doJob?_of_jobs hjobs (Nat.lt_succ_of_le hdue)]
  rfl

section Waiting

variable (hending : a.ending? r.stage = none) (hwaits : a.takeTurn? s r = none)

include hending hwaits

/-- Before the moment for which a command waits, and up to the limit, the jobs are done. -/
theorem next?_of_job {j : Job Task} {rest : List (Job Task)} (hwake : a.wake? r.stage = none)
    (hjobs : r.console.agenda.jobs = j :: rest) (hdue : j.due ≤ limit) :
    a.next? s limit r = some { r with console := r.console.resume s j, ready := false } := by
  by_cases hnow : j.due ≤ r.console.now
  · exact next?_of_due hending (fun _ => hwaits) hjobs hnow
  · have hfirst : doJob? s (r.console.now + 1) r = none := by
      unfold doJob? Agenda.next?
      rw [hjobs, List.head?_cons, Option.filter_some, if_neg (by simp; omega)]
      rfl
    have hlimit : j.due < min (limit + 1) ((none : Option Nat).getD (limit + 1)) := by
      rw [Option.getD_none, Nat.min_self]
      exact Nat.lt_succ_of_le hdue
    unfold next?
    rw [hending, if_neg (by decide), hwaits, ite_self, hfirst, hwake, doJob?_of_jobs hjobs hlimit]
    rfl

/-- Then it is woken. -/
theorem next?_of_wake {time : Nat} (hjobs : r.console.agenda.jobs = [])
    (hwake : a.wake? r.stage = some time) (htime : time ≤ limit) :
    a.next? s limit r = some
      { r with console := { r.console with now := max r.console.now time }, ready := true } := by
  have hnone : ∀ until', doJob? s until' r = none := fun until' =>
    doJob?_eq_none (by rw [hjobs]; nofun)
  unfold next? wakeUp?
  rw [hending, if_neg (by decide), hwaits, ite_self, hnone, hnone, hwake, Option.filter_some,
    decide_eq_true htime]
  rfl

/-- After the limit nothing happens. -/
theorem next?_eq_none (hjobs : ∀ j ∈ r.console.agenda.jobs, limit < j.due)
    (hnow : r.console.now ≤ limit) (hwake : ∀ time, a.wake? r.stage = some time → limit < time) :
    a.next? s limit r = none := by
  have hfirst : doJob? s (r.console.now + 1) r = none := by
    refine doJob?_eq_none fun j hj => ?_
    have := hjobs j hj
    omega
  have hsecond : doJob? s (min (limit + 1) ((a.wake? r.stage).getD (limit + 1))) r = none := by
    refine doJob?_eq_none fun j hj => ?_
    exact Nat.le_trans (Nat.min_le_left _ _) (hjobs j hj)
  have hnone : (a.wake? r.stage).filter (· ≤ limit) = none := by
    cases hw : a.wake? r.stage with
    | none => rfl
    | some time => simpa using hwake time hw
  unfold next? wakeUp?
  rw [hending, if_neg (by decide), hwaits, ite_self, hfirst, hsecond, hnone]
  rfl

end Waiting

end Activity

end ClusterConsole.Cli
