import ClusterConsole.Proofs.Console.Abreast
import ClusterConsole.Proofs.Session.World

/-! Two sessions side by side. Their users take the same steps, and their servers differ only in
how they answer submissions. Letting time pass does the duties of both consoles in the same
order, with answers in between that come at other times or never; so the steps have the same
results, and after every one of them the two consoles look the same. -/

namespace ClusterConsole

namespace Console

variable {s s' : Server} {c c' d : Console} {j : Job Task} {time : Nat}

/-! ### Time -/

theorem runBefore_of_next (h : c.agenda.next? time = some j) :
    c.runBefore s time = (c.resume s j).runBefore s time := by
  rw [runBefore]
  split
  · next k hk => rw [Option.some.inj (h.symm.trans hk)]
  · next hk => cases h.symm.trans hk

theorem runBefore_of_none (h : c.agenda.next? time = none) : c.runBefore s time = c := by
  rw [runBefore]
  split
  · next k hk => cases h.symm.trans hk
  · rfl

theorem Tidy.runBefore (h : c.Tidy) (s : Server) (time : Nat) : (c.runBefore s time).Tidy := by
  have hreaches : World.Reaches s ⟨c, []⟩ ⟨c.runBefore s time, []⟩ := reaches_runBefore time h
  exact hreaches.tidy h

theorem Tidy.passTo (h : c.Tidy) (s : Server) (time : Nat) : (c.passTo s time).Tidy := by
  have hreaches : World.Reaches s ⟨c, []⟩ ⟨c.passTo s time, []⟩ := reaches_passTo time h
  exact hreaches.tidy h

theorem now_le_runBefore (s : Server) (time : Nat) (c : Console) :
    c.now ≤ (c.runBefore s time).now := by
  fun_induction runBefore s time c with
  | case1 c j hj ih =>
    refine Nat.le_trans ?_ ih
    rw [resume, perform_now]
    exact Nat.le_max_left _ _
  | case2 c hn => exact Nat.le_refl _

theorem now_runBefore_le {bound : Nat} (htime : time ≤ bound + 1) (hc : c.now ≤ bound) :
    (c.runBefore s time).now ≤ bound := by
  fun_induction runBefore s time c with
  | case1 c j hj ih =>
    refine ih ?_
    have hlt : j.due < time := Agenda.due_lt_of_next? hj
    rw [resume, perform_now]
    exact Nat.max_le.2 ⟨hc, by omega⟩
  | case2 c hn => exact hc

theorem now_passTo_of_le (h : c.now ≤ time) : (c.passTo s time).now = time :=
  Nat.max_eq_right (now_runBefore_le (Nat.le_succ time) h)

theorem now_settle (s : Server) (c : Console) : (c.settle s).now = c.now :=
  Nat.le_antisymm (now_runBefore_le (Nat.le_refl _) (Nat.le_refl _)) (now_le_runBefore ..)

/-! ### Answers -/

/-- The answers that come before the next duty can be taken first. -/
theorem Alike.take_answers (h : Alike c c') (ht' : c'.Tidy) (s' : Server) (time : Nat) :
    ∃ d, Alike c d ∧ d.Tidy ∧ c'.runBefore s' time = d.runBefore s' time ∧
      ∀ j, d.agenda.next? time = some j → j.task.isAnswer = false := by
  fun_induction runBefore s' time c' with
  | case1 c' j hj ih =>
    by_cases hanswer : j.task.isAnswer = true
    · have htidy : (c'.resume s' j).Tidy := ht'.resume s' (ht'.ordered.next?_some hj).2
      have halike : Alike (c'.resume s' j) c' :=
        ht'.resume_answer (Agenda.mem_of_next? hj) hanswer
      exact ih (h.trans halike.symm) htidy
    · refine ⟨c', h, ht', (runBefore_of_next hj).symm, fun k hk => ?_⟩
      rw [← Option.some.inj (hj.symm.trans hk)]
      exact eq_false_of_ne_true hanswer
  | case2 c' hn => exact ⟨c', h, ht', (runBefore_of_none hn).symm, by simp [hn]⟩

/-- If a duty is due before a time, then some job is. -/
theorem Alike.next?_ne_none (h : Alike c c') (ht' : c'.Tidy) (hj : c.agenda.next? time = some j)
    (ho : j.task.isAnswer = false) : c'.agenda.next? time ≠ none := by
  intro hnone
  obtain ⟨n, j', -, hj', hdue⟩ := h.counterpart (Agenda.mem_of_next? hj) ho
  have hle := ht'.ordered.next?_none hnone j' (mem_outward.1 (List.mem_of_getElem? hj')).1
  have hlt : j.due < time := Agenda.due_lt_of_next? hj
  omega

/-- A duty that is the next job is the first duty. -/
theorem outward_next (hj : c.agenda.next? time = some j) (ho : j.task.isAnswer = false) :
    (outward c.agenda.jobs)[0]? = some j := by
  obtain ⟨hhead, -⟩ := Option.filter_eq_some_iff.1 hj
  obtain ⟨rest, hrest⟩ := List.head?_eq_some_iff.1 hhead
  rw [hrest, outward, List.filter_cons_of_pos (by simp [ho]), List.getElem?_cons_zero]

/-- The induction is on what the first console does. It may take an answer that the other knows
nothing of; when it does a duty, the other takes the answers that are in its way and does the
same. -/
theorem Alike.runBefore (h : Alike c c') (ht : c.Tidy) (ht' : c'.Tidy)
    (hs : s'.entitlement = s.entitlement) (time : Nat) :
    Alike (c.runBefore s time) (c'.runBefore s' time) := by
  fun_induction Console.runBefore s time c generalizing c' with
  | case1 c j hj ih =>
    have hmin := (ht.ordered.next?_some hj).2
    by_cases hanswer : j.task.isAnswer = true
    · have halike : Alike (c.resume s j) c := ht.resume_answer (Agenda.mem_of_next? hj) hanswer
      exact ih (halike.trans h) (ht.resume s hmin) ht'
    · obtain ⟨d, hd, htd, hrun, hduty⟩ := h.take_answers ht' s' time
      have ho : j.task.isAnswer = false := eq_false_of_ne_true hanswer
      obtain ⟨k, hk⟩ := Option.ne_none_iff_exists'.1 (hd.next?_ne_none htd hj ho)
      have hmin' := (htd.ordered.next?_some hk).2
      have hzero := outward_next hj ho
      have hzero' := outward_next hk (hduty k hk)
      have hnow : max c.now j.due = max d.now k.due := by
        rw [Nat.max_eq_right (ht.due j (Agenda.mem_of_next? hj)),
          Nat.max_eq_right (htd.due k (Agenda.mem_of_next? hk)), (hd.job hzero hzero').1]
      have htwins := hd.resume ht htd hs hzero hzero' hmin hmin' hnow
      rw [hrun, runBefore_of_next hk]
      exact ih htwins.toAlike htwins.tidy htwins.tidy'
  | case2 c hn =>
    obtain ⟨d, hd, htd, hrun, hduty⟩ := h.take_answers ht' s' time
    have hnone : d.agenda.next? time = none := by
      by_contra hsome
      obtain ⟨k, hk⟩ := Option.ne_none_iff_exists'.1 hsome
      exact hd.symm.next?_ne_none ht hk (hduty k hk) hn
    rwa [hrun, runBefore_of_none hnone]

/-! ### Twins -/

theorem Twins.passTo (h : Twins c c') (hs : s'.entitlement = s.entitlement)
    (htime : c.now ≤ time) : Twins (c.passTo s time) (c'.passTo s' time) := by
  have htime' : c'.now ≤ time := h.now ▸ htime
  have halike := h.toAlike.runBefore h.tidy h.tidy' hs time
  have hnow : (c.passTo s time).now = (c'.passTo s' time).now :=
    (now_passTo_of_le htime).trans (now_passTo_of_le htime').symm
  exact ⟨halike.clocks _ _, hnow, h.tidy.passTo s time, h.tidy'.passTo s' time⟩

theorem Twins.settle (h : Twins c c') (hs : s'.entitlement = s.entitlement) :
    Twins (c.settle s) (c'.settle s') := by
  have halike := h.toAlike.runBefore h.tidy h.tidy' hs (c.now + 1)
  refine ⟨?_, ?_, h.tidy.runBefore s _, h.tidy'.runBefore s' _⟩
  · rw [Console.settle, Console.settle, ← h.now]
    exact halike
  · rw [now_settle, now_settle, h.now]

theorem Twins.advance (h : Twins c c') (hs : s'.entitlement = s.entitlement) (duration : Nat) :
    Twins (c.advance s duration) (c'.advance s' duration) := by
  have hpass := h.passTo hs (now_le_after c duration)
  rw [h.after] at hpass
  rw [Console.advance, h.after]
  exact hpass.settle hs

end Console

/-! ### Steps -/

namespace Session

variable {s s' : Server} {c c' : Console} {x x' : Session}

/-- Sessions that nobody can tell apart. -/
structure Twins (x x' : Session) : Prop where
  console : x.console.Twins x'.console
  controllers : x.controllers = x'.controllers
  dispatchers : x.dispatchers = x'.dispatchers

theorem Twins.await (h : c.Twins c') (hs : s'.entitlement = s.entitlement) :
    (await s c).1 = (await s' c').1 ∧ (await s c).2.Twins (await s' c').2 := by
  have hasked : (c.record .entitlement).Twins (c'.record .entitlement) := h.record _
  simp only [Session.await, Console.ask, hs, h.calls, hasked.after, true_and]
  refine hasked.passTo hs ?_
  rw [← hasked.after]
  exact Console.now_le_after _ _

theorem Twins.dropController (h : Twins x x') (name : String) :
    Twins (x.dropController name) (x'.dropController name) := by
  unfold Session.dropController controller?
  rw [h.controllers]
  split
  · exact h
  · next i _ => exact ⟨h.console.disarm i, rfl, h.dispatchers⟩

theorem Twins.addController (h : Twins x x') (name : String) (interval : Nat) :
    Twins (x.addController name interval) (x'.addController name interval) := by
  have hdrop := h.dropController name
  refine ⟨hdrop.console.addController interval, ?_, hdrop.dispatchers⟩
  simp only [Session.addController, hdrop.controllers, hdrop.console.length_controllers]

theorem Twins.dropDispatcher (h : Twins x x') (name : String) :
    Twins (x.dropDispatcher name) (x'.dropDispatcher name) :=
  ⟨h.console, h.controllers, congrArg (without · name) h.dispatchers⟩

theorem Twins.addDispatcher (h : Twins x x') (name : String) (delay : Nat) :
    Twins (x.addDispatcher name delay) (x'.addDispatcher name delay) := by
  have hdrop := h.dropDispatcher name
  refine ⟨hdrop.console.addDispatcher delay, hdrop.controllers, ?_⟩
  simp only [Session.addDispatcher, hdrop.dispatchers, hdrop.console.length_dispatchers]

/-- A step has the same result in both sessions. -/
theorem Twins.begin (h : Twins x x') (hs : s'.entitlement = s.entitlement) (step : SessionStep) :
    (x.begin s step).1 = (x'.begin s' step).1 ∧
      Twins (x.begin s step).2 (x'.begin s' step).2 := by
  unfold Session.begin
  cases step with
  | act actions =>
    exact ⟨rfl, h.console.act (Page.acts · actions), h.controllers, h.dispatchers⟩
  | advance duration => exact ⟨rfl, h.console.advance hs duration, h.controllers, h.dispatchers⟩
  | addController name interval => exact ⟨rfl, h.addController name interval⟩
  | dropController name =>
    simp only [controller?, h.controllers, true_and]
    exact h.dropController name
  | pageLoaded name =>
    simp only [controller?, h.controllers]
    split
    · exact ⟨rfl, h⟩
    · next i _ =>
      have hloaded := h.console.pageLoaded i
      exact ⟨by rw [hloaded.reloadState], hloaded, rfl, h.dispatchers⟩
  | toggle name checked =>
    simp only [controller?, h.controllers]
    split
    · exact ⟨rfl, h⟩
    · next i _ =>
      have htoggled := h.console.toggle i checked
      exact ⟨by rw [htoggled.reloadState], htoggled, rfl, h.dispatchers⟩
  | addDispatcher name delay => exact ⟨rfl, h.addDispatcher name delay⟩
  | dropDispatcher name =>
    simp only [dispatcher?, h.dispatchers, true_and]
    exact h.dropDispatcher name
  | dispatch name request =>
    simp only [dispatcher?, h.dispatchers]
    split
    · exact ⟨rfl, h⟩
    · next i _ =>
      obtain ⟨hresult, hawaited⟩ := Twins.await h.console hs
      obtain ⟨houtcome, hconcluded⟩ :=
        hawaited.conclude i request (Session.await s x.console).1
      simp only [← hresult, houtcome]
      exact ⟨trivial, hconcluded, h.controllers, rfl⟩
  | start name request =>
    simp only [dispatcher?, h.dispatchers]
    split
    · exact ⟨rfl, h⟩
    · next i _ =>
      have hstarted : Console.Twins (x.console.schedule 0 (.dispatch i request))
          (x'.console.schedule 0 (.dispatch i request)) :=
        h.console.schedule 0 rfl (by simp) (by simp)
      exact ⟨rfl, hstarted, h.controllers, rfl⟩
  | check =>
    obtain ⟨hresult, hawaited⟩ := Twins.await h.console hs
    simp only [hresult, true_and]
    exact ⟨hawaited, h.controllers, h.dispatchers⟩
  | enforce =>
    obtain ⟨hresult, hawaited⟩ := Twins.await h.console hs
    obtain ⟨hdecision, henforced⟩ := hawaited.enforce (Session.await s x.console).1
    simp only [← hresult, hdecision]
    exact ⟨trivial, henforced, h.controllers, h.dispatchers⟩

theorem Twins.step (h : Twins x x') (hs : s'.entitlement = s.entitlement) (step : SessionStep) :
    (x.step s step).1 = (x'.step s' step).1 ∧ Twins (x.step s step).2 (x'.step s' step).2 := by
  obtain ⟨hresult, hbegin⟩ := h.begin hs step
  exact ⟨hresult, hbegin.console.settle hs, hbegin.controllers, hbegin.dispatchers⟩

/-! ### Traces -/

/-- The result of every step, and what is seen after it. -/
def trace (s : Server) : Session → List SessionStep → List (SessionResult × Sight)
  | _, [] => []
  | x, t :: ts => ((x.step s t).1, (x.step s t).2.console.sight) :: trace s (x.step s t).2 ts

theorem Twins.trace (h : Twins x x') (hs : s'.entitlement = s.entitlement)
    (steps : List SessionStep) : x.trace s steps = x'.trace s' steps := by
  induction steps generalizing x x' with
  | nil => rfl
  | cons step steps ih =>
    obtain ⟨hresult, hstep⟩ := h.step hs step
    simp only [Session.trace, hresult, hstep.console.sight, ih hstep]

theorem Twins.ofPage (page : Page) : Twins (.ofPage page) (.ofPage page) :=
  ⟨.refl (Console.tidy_ofPage page), rfl, rfl⟩

end Session

/-! ### What a submission comes to -/

/-- How submissions are answered makes no difference that anybody could see. -/
structure Unheard (s s' : Server) (page : Page) : Prop where
  /-- The same steps have the same results, and what is seen after each of them is the same. -/
  sessions : ∀ steps, (Session.ofPage page).trace s steps = (Session.ofPage page).trace s' steps
  /-- In whatever way the activities are interleaved, two runs in which the same is done lead to
  worlds that look the same, and in which the same answers are waited for. -/
  worlds : ∀ {w w' : World}, World.Abreast s s' (.ofPage page) w w' →
    World.Reaches s (.ofPage page) w ∧ World.Reaches s' (.ofPage page) w' ∧
      w.console.sight = w'.console.sight ∧ w.waiting = w'.waiting
  /-- Whatever is done in one world can be done in the other. -/
  follows : ∀ {w w' : World} {ms : List Move}, World.Abreast s s' (.ofPage page) w w' →
    World.Lawful s w ms → ∃ w'', World.Abreast s s' (.ofPage page) (w.run s ms) w''

/-- Nobody hears what became of a submission: whether it succeeds or fails, and when, or
whether it is answered at all. -/
theorem unheard_of_submission (s : Server)
    (submission : List CallRecord → CommandRequest → Option (Answer Unit)) (page : Page) :
    Unheard s { s with submission } page where
  sessions steps := by
    have hs : ({ s with submission } : Server).entitlement = s.entitlement := rfl
    exact (Session.Twins.ofPage page).trace hs steps
  worlds h := by
    have htwins := h.twins (Console.tidy_ofPage page) rfl
    exact ⟨h.reaches.1, h.reaches.2, htwins.console.sight, htwins.waiting⟩
  follows h hl := h.follow (Console.tidy_ofPage page) rfl hl

end ClusterConsole
