import ClusterConsole.Proofs.Console.World
import ClusterConsole.Session.Basic

/-! A session is a run of its world. Letting time pass is a run of waits and jobs, a
dispatch that is waited for is a question and its answer with such a run in between, and
each step of a session ends with the jobs that are due. So what holds after every run of
a world holds after every session. -/

namespace ClusterConsole

open World

variable {s : Server} {c : Console} {waiting : List Inquiry}

/-! ### Time -/

/-- The clock goes to a job before the job is done. -/
theorem Console.resume_wait {j : Job Task} (h : c.now ≤ j.due) :
    Console.resume s { c with now := j.due } j = c.resume s j := by
  simp only [Console.resume, Nat.max_self, Nat.max_eq_right h]

theorem reaches_runBefore (time : Nat) (h : c.Tidy) :
    Reaches s ⟨c, waiting⟩ ⟨c.runBefore s time, waiting⟩ := by
  fun_induction Console.runBefore s time c with
  | case1 c j hj ih =>
    have hmem := Agenda.mem_of_next? hj
    obtain ⟨-, hmin⟩ := h.ordered.next?_some hj
    have hwait : World.Allows ⟨c, waiting⟩ (.wait j.due) := ⟨h.due j hmem, hmin⟩
    have hresume : World.Allows (World.move s ⟨c, waiting⟩ (.wait j.due)) (.resume j) :=
      ⟨hmem, Nat.le_refl _⟩
    have hto : Reaches s ⟨c, waiting⟩ ⟨c.resume s j, waiting⟩ := by
      have := (Reaches.move hwait).trans (Reaches.move (s := s) hresume)
      simpa only [World.move, Console.resume_wait (h.due j hmem)] using this
    exact hto.trans (ih (h.resume s hmin))
  | case2 c hn => exact .refl _

/-- Nothing is left that is due before the time. -/
theorem le_due_runBefore (time : Nat) (h : c.Tidy) :
    ∀ j ∈ (c.runBefore s time).agenda.jobs, time ≤ j.due := by
  fun_induction Console.runBefore s time c with
  | case1 c j hj ih => exact ih (h.resume s (h.ordered.next?_some hj).2)
  | case2 c hn => exact h.ordered.next?_none hn

theorem reaches_passTo (time : Nat) (h : c.Tidy) :
    Reaches s ⟨c, waiting⟩ ⟨c.passTo s time, waiting⟩ := by
  have hrun : Reaches s ⟨c, waiting⟩ ⟨c.runBefore s time, waiting⟩ := reaches_runBefore time h
  have htidy : (c.runBefore s time).Tidy := hrun.tidy h
  refine hrun.trans
    (.move (m := .wait (max (c.runBefore s time).now time)) ⟨Nat.le_max_left _ _, ?_⟩)
  intro j hj
  exact Nat.max_le.2 ⟨htidy.due j hj, le_due_runBefore time h j hj⟩

theorem reaches_settle (h : c.Tidy) : Reaches s ⟨c, waiting⟩ ⟨c.settle s, waiting⟩ :=
  reaches_runBefore _ h

theorem reaches_advance (duration : Nat) (h : c.Tidy) :
    Reaches s ⟨c, waiting⟩ ⟨c.advance s duration, waiting⟩ := by
  have hpass : Reaches s ⟨c, waiting⟩ ⟨c.passTo s (c.after duration), waiting⟩ :=
    reaches_passTo _ h
  have htidy : (c.passTo s (c.after duration)).Tidy := hpass.tidy h
  exact hpass.trans (reaches_settle htidy)

theorem now_passTo (time : Nat) : time ≤ (c.passTo s time).now := Nat.le_max_right _ _

/-! ### Steps -/

namespace Session

/-- Whoever waits for an answer goes on when it is there. -/
theorem reaches_await (purpose : Purpose) (h : c.Tidy) :
    Reaches s ⟨c, []⟩ ⟨purpose.conclude (await s c).2 (await s c).1, []⟩ := by
  let q := World.inquiry s ⟨c, []⟩ purpose
  let asked : Console := (c.ask s).2
  have hask : Reaches s ⟨c, []⟩ ⟨asked, [q]⟩ := .move (m := .ask purpose) trivial
  have hpass : Reaches s ⟨asked, [q]⟩ ⟨asked.passTo s q.due, [q]⟩ := reaches_passTo _ (hask.tidy h)
  have hanswer : Reaches s ⟨asked.passTo s q.due, [q]⟩
      ⟨purpose.conclude (asked.passTo s q.due) q.result, []⟩ := by
    have := Reaches.move (s := s) (w := ⟨asked.passTo s q.due, [q]⟩) (m := .answer q)
      ⟨List.mem_singleton.2 rfl, now_passTo _⟩
    simpa [World.move, show q.purpose = purpose from rfl] using this
  exact (hask.trans hpass).trans hanswer

variable {x : Session}

theorem reaches_dropController (name : String) :
    Reaches s ⟨x.console, []⟩ ⟨(x.dropController name).console, []⟩ := by
  unfold Session.dropController
  split
  · exact .refl _
  · next i _ => exact .move (m := .dropController i) trivial

theorem reaches_begin (step : SessionStep) (h : x.console.Tidy) :
    Reaches s ⟨x.console, []⟩ ⟨(x.begin s step).2.console, []⟩ := by
  cases step with
  | act actions => exact .move (m := .act actions) trivial
  | advance duration => exact reaches_advance duration h
  | addController name interval =>
    exact (reaches_dropController name).trans (.move (m := .addController interval) trivial)
  | dropController name => exact reaches_dropController name
  | pageLoaded name =>
    unfold begin
    simp only
    split
    · exact .refl _
    · next i _ => exact .move (m := .pageLoaded i) trivial
  | toggle name checked =>
    unfold begin
    simp only
    split
    · exact .refl _
    · next i _ => exact .move (m := .toggle i checked) trivial
  | addDispatcher name delay => exact .move (m := .addDispatcher delay) trivial
  | dropDispatcher name => exact .refl _
  | dispatch name request =>
    unfold begin
    simp only
    split
    · exact .refl _
    · next i _ => exact reaches_await (.dispatch i request) h
  | start name request =>
    unfold begin
    simp only
    split
    · exact .refl _
    · next i _ => exact .move (m := .start i request) trivial
  | check => exact reaches_await .check h
  | enforce => exact reaches_await .enforce h

theorem reaches_step (step : SessionStep) (h : x.console.Tidy) :
    Reaches s ⟨x.console, []⟩ ⟨(x.step s step).2.console, []⟩ :=
  (reaches_begin step h).trans (reaches_settle ((reaches_begin step h).tidy h))

/-- Every session is a run of its world. -/
theorem reaches_run (steps : List SessionStep) (h : x.console.Tidy) :
    Reaches s ⟨x.console, []⟩ ⟨(x.run s steps).console, []⟩ := by
  induction steps generalizing x with
  | nil => exact .refl _
  | cons step steps ih =>
    exact (reaches_step step h).trans (ih ((reaches_step step h).tidy h))

end Session

end ClusterConsole
