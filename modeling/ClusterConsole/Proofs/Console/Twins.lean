import ClusterConsole.Proofs.Console.Duty

/-! Consoles that nobody can tell apart. Twins have the same page and the same calls, owners that
look the same, and the same duties at the same time; the answers of submissions that wait on
their agendas may be others. Whatever is done to both of them at the same time leaves them
twins, and an answer that is there changes nothing at all. -/

namespace ClusterConsole

/-- What can be seen of a console. Of a controller its interval, its state and whether its timer
runs, and of a dispatcher its delay and whether its redirect waits. -/
structure Sight where
  now : Nat
  page : Page
  calls : List CallRecord
  controllers : List (Nat × ReloadState × Bool)
  dispatchers : List (Nat × Bool)
  completed : List Completion

namespace Console

def sight (c : Console) : Sight where
  now := c.now
  page := c.page
  calls := c.calls
  controllers := c.controllers.map fun k => (k.interval, k.state, c.isArmed k)
  dispatchers := c.dispatchers.map fun d => (d.delay, c.hasPendingRedirect d)
  completed := c.completed

/-- The two differ at most in the clock, in identifiers and in answers of submissions. -/
structure Alike (c c' : Console) : Prop where
  page : c.page = c'.page
  calls : c.calls = c'.calls
  completed : c.completed = c'.completed
  controllers : c.controllers.map (fun k => (k.interval, k.state)) =
    c'.controllers.map fun k => (k.interval, k.state)
  dispatchers : c.dispatchers.map (·.delay) = c'.dispatchers.map (·.delay)
  duties : c.duties = c'.duties

structure Twins (c c' : Console) : Prop extends Alike c c' where
  now : c.now = c'.now
  tidy : c.Tidy
  tidy' : c'.Tidy

variable {c c' : Console}

theorem Alike.refl (c : Console) : Alike c c := ⟨rfl, rfl, rfl, rfl, rfl, rfl⟩

theorem Alike.symm (h : Alike c c') : Alike c' c :=
  ⟨h.page.symm, h.calls.symm, h.completed.symm, h.controllers.symm, h.dispatchers.symm,
    h.duties.symm⟩

theorem Alike.trans {c'' : Console} (h : Alike c c') (h' : Alike c' c'') : Alike c c'' :=
  ⟨h.page.trans h'.page, h.calls.trans h'.calls, h.completed.trans h'.completed,
    h.controllers.trans h'.controllers, h.dispatchers.trans h'.dispatchers,
    h.duties.trans h'.duties⟩

/-- The clocks do not matter. -/
theorem Alike.clocks (h : Alike c c') (time time' : Nat) :
    Alike { c with now := time } { c' with now := time' } :=
  ⟨h.page, h.calls, h.completed, h.controllers, h.dispatchers, h.duties⟩

theorem Twins.symm (h : Twins c c') : Twins c' c :=
  ⟨h.toAlike.symm, h.now.symm, h.tidy', h.tidy⟩

theorem Twins.refl (h : c.Tidy) : Twins c c := ⟨.refl c, rfl, h, h⟩

/-! ### Owners -/

theorem Alike.length_controllers (h : Alike c c') :
    c.controllers.length = c'.controllers.length := by
  simpa using congrArg List.length h.controllers

theorem Alike.length_dispatchers (h : Alike c c') :
    c.dispatchers.length = c'.dispatchers.length := by
  simpa using congrArg List.length h.dispatchers

/-- A controller of one has a counterpart in the other. -/
theorem Alike.controller (h : Alike c c') (i : Nat) :
    c.controllers[i]? = none ∧ c'.controllers[i]? = none ∨
      ∃ k k', c.controllers[i]? = some k ∧ c'.controllers[i]? = some k' ∧
        k.interval = k'.interval ∧ k.state = k'.state := by
  have hi := congrArg (·[i]?) h.controllers
  simp only [List.getElem?_map] at hi
  cases hk : c.controllers[i]? with
  | none =>
    rw [hk, Option.map_none] at hi
    exact .inl ⟨rfl, Option.map_eq_none_iff.1 hi.symm⟩
  | some k =>
    rw [hk, Option.map_some] at hi
    obtain ⟨k', hk', he⟩ := Option.map_eq_some_iff.1 hi.symm
    obtain ⟨hinterval, hstate⟩ := Prod.mk.inj he
    exact .inr ⟨k, k', rfl, hk', hinterval.symm, hstate.symm⟩

theorem Alike.dispatcher (h : Alike c c') (i : Nat) :
    c.dispatchers[i]? = none ∧ c'.dispatchers[i]? = none ∨
      ∃ d d', c.dispatchers[i]? = some d ∧ c'.dispatchers[i]? = some d' ∧ d.delay = d'.delay := by
  have hi := congrArg (·[i]?) h.dispatchers
  simp only [List.getElem?_map] at hi
  cases hd : c.dispatchers[i]? with
  | none =>
    rw [hd, Option.map_none] at hi
    exact .inl ⟨rfl, Option.map_eq_none_iff.1 hi.symm⟩
  | some d =>
    rw [hd, Option.map_some] at hi
    obtain ⟨d', hd', hdelay⟩ := Option.map_eq_some_iff.1 hi.symm
    exact .inr ⟨d, d', rfl, hd', hdelay.symm⟩

theorem Alike.reloadState (h : Alike c c') (i : Nat) : c.reloadState i = c'.reloadState i := by
  simp only [Console.reloadState]
  rcases h.controller i with ⟨hk, hk'⟩ | ⟨k, k', hk, hk', -, hstate⟩
  · rw [hk, hk']
  · simp [hk, hk', hstate]

theorem Twins.sight (h : Twins c c') : c.sight = c'.sight := by
  have hcontrollers : c.sight.controllers = c'.sight.controllers := by
    refine List.ext_getElem? fun i => ?_
    simp only [Console.sight, List.getElem?_map]
    rcases h.controller i with ⟨hk, hk'⟩ | ⟨k, k', hk, hk', hinterval, hstate⟩
    · simp only [hk, hk', Option.map_none]
    · have harmed : c.isArmed k = c'.isArmed k' := by
        rw [isArmed, isArmed, h.tidy.isPending_timer hk, h.tidy'.isPending_timer hk', h.duties]
      simp only [hk, hk', Option.map_some, hinterval, hstate, harmed]
  have hdispatchers : c.sight.dispatchers = c'.sight.dispatchers := by
    refine List.ext_getElem? fun i => ?_
    simp only [Console.sight, List.getElem?_map]
    rcases h.dispatcher i with ⟨hd, hd'⟩ | ⟨d, d', hd, hd', hdelay⟩
    · simp only [hd, hd', Option.map_none]
    · have hpending : c.hasPendingRedirect d = c'.hasPendingRedirect d' := by
        rw [hasPendingRedirect, hasPendingRedirect, h.tidy.isPending_redirect hd,
          h.tidy'.isPending_redirect hd', h.duties]
      simp only [hd, hd', Option.map_some, hdelay, hpending]
  simp only [Console.sight] at hcontrollers hdispatchers
  simp only [Console.sight, h.now, h.page, h.calls, h.completed, hcontrollers, hdispatchers]

/-! ### Operations -/

theorem Twins.after (h : Twins c c') (delay : Nat) : c.after delay = c'.after delay := by
  rw [Console.after, Console.after, h.now]

theorem Twins.act (h : Twins c c') (f : Page → Page) :
    Twins { c with page := f c.page } { c' with page := f c'.page } where
  __ := h.toAlike
  page := congrArg f h.page
  now := h.now
  tidy := h.tidy.page _
  tidy' := h.tidy'.page _

theorem Twins.record (h : Twins c c') (call : Call) : Twins (c.record call) (c'.record call) where
  __ := h.toAlike
  calls := by simp only [Console.record, h.calls, h.now]
  now := h.now
  tidy := h.tidy.record call
  tidy' := h.tidy'.record call

theorem Twins.schedule (h : Twins c c') (delay : Nat) {task : Task}
    (hanswer : task.isAnswer = false) (hr : task ≠ .reload) (hg : task ≠ .goHome) :
    Twins (c.schedule delay task) (c'.schedule delay task) where
  __ := h.toAlike
  duties := by
    rw [h.tidy.duties_schedule delay hanswer, h.tidy'.duties_schedule delay hanswer, h.duties,
      unowned, unowned, h.after, h.length_controllers, h.length_dispatchers]
  now := h.now
  tidy := h.tidy.schedule delay hr hg
  tidy' := h.tidy'.schedule delay hr hg

theorem Twins.addController (h : Twins c c') (interval : Nat) :
    Twins (c.addController interval) (c'.addController interval) where
  __ := h.toAlike
  controllers := by simp only [Console.addController, List.map_append, h.controllers]
  duties := by rw [duties_addController, duties_addController, h.duties]
  now := h.now
  tidy := h.tidy.addController interval
  tidy' := h.tidy'.addController interval

theorem Twins.addDispatcher (h : Twins c c') (delay : Nat) :
    Twins (c.addDispatcher delay) (c'.addDispatcher delay) where
  __ := h.toAlike
  dispatchers := by simp only [Console.addDispatcher, List.map_append, h.dispatchers]
  duties := by rw [duties_addDispatcher, duties_addDispatcher, h.duties]
  now := h.now
  tidy := h.tidy.addDispatcher delay
  tidy' := h.tidy'.addDispatcher delay

theorem Twins.setState (h : Twins c c') (i : Nat) (state : ReloadState) :
    Twins (c.setState i state) (c'.setState i state) where
  __ := h.toAlike
  controllers := by
    refine List.ext_getElem? fun n => ?_
    simp only [List.getElem?_map, getElem?_setState]
    rcases h.controller n with ⟨hk, hk'⟩ | ⟨k, k', hk, hk', hinterval, hstate⟩
    · simp [hk, hk']
    · by_cases hi : i = n
      · simp [hk, hk', hi, hinterval]
      · simp [hk, hk', hi, hinterval, hstate]
  duties := by
    have hsame (c : Console) : (c.setState i state).duties = c.duties :=
      duties_congr rfl (timers_setState state) rfl
    rw [hsame, hsame, h.duties]
  now := h.now
  tidy := h.tidy.setState i state
  tidy' := h.tidy'.setState i state

theorem Twins.disarm (h : Twins c c') (i : Nat) : Twins (c.disarm i) (c'.disarm i) := by
  have hduties : (c.disarm i).duties = (c'.disarm i).duties := by
    rw [duties_disarm, duties_disarm, h.duties]
  have htidy := h.tidy.disarm i
  have htidy' := h.tidy'.disarm i
  rcases h.controller i with ⟨hk, hk'⟩ | ⟨k, k', hk, hk', hinterval, hstate⟩
  · rwa [disarm_of_none hk, disarm_of_none hk']
  · rw [disarm_of_some hk] at hduties htidy ⊢
    rw [disarm_of_some hk'] at hduties htidy' ⊢
    refine ⟨⟨h.page, h.calls, h.completed, ?_, h.dispatchers, hduties⟩, h.now, htidy, htidy'⟩
    rw [List.map_set, List.map_set, h.controllers, hinterval, hstate]

theorem Twins.arm (h : Twins c c') (i : Nat) : Twins (c.arm i) (c'.arm i) := by
  have htidy := h.tidy.arm i
  have htidy' := h.tidy'.arm i
  rcases h.controller i with ⟨hk, hk'⟩ | ⟨k, k', hk, hk', hinterval, hstate⟩
  · rwa [arm_of_none hk, arm_of_none hk']
  · have hduties : (c.arm i).duties = (c'.arm i).duties := by
      rw [h.tidy.duties_arm hk, h.tidy'.duties_arm hk', h.duties, h.after, hinterval,
        h.length_controllers, h.length_dispatchers]
    rw [arm_of_some hk] at hduties htidy ⊢
    rw [arm_of_some hk'] at hduties htidy' ⊢
    refine ⟨⟨h.page, h.calls, h.completed, ?_, h.dispatchers, hduties⟩, h.now, htidy, htidy'⟩
    rw [List.map_set, List.map_set, h.controllers, hinterval, hstate]

theorem Twins.armRedirect (h : Twins c c') (i : Nat) :
    Twins (c.armRedirect i) (c'.armRedirect i) := by
  have htidy := h.tidy.armRedirect i
  have htidy' := h.tidy'.armRedirect i
  rcases h.dispatcher i with ⟨hd, hd'⟩ | ⟨d, d', hd, hd', hdelay⟩
  · rwa [armRedirect_of_none hd, armRedirect_of_none hd']
  · have hduties : (c.armRedirect i).duties = (c'.armRedirect i).duties := by
      rw [h.tidy.duties_armRedirect hd, h.tidy'.duties_armRedirect hd', h.duties, h.after, hdelay,
        h.length_controllers, h.length_dispatchers]
    rw [armRedirect_of_some hd] at hduties htidy ⊢
    rw [armRedirect_of_some hd'] at hduties htidy' ⊢
    refine ⟨⟨h.page, h.calls, h.completed, h.controllers, ?_, hduties⟩, h.now, htidy, htidy'⟩
    rw [List.map_set, List.map_set, h.dispatchers, hdelay]

theorem Twins.navigate (h : Twins c c') (target : String) :
    Twins (c.navigate target) (c'.navigate target) :=
  h.act (Page.navigate · target)

theorem Twins.pageLoaded (h : Twins c c') (i : Nat) : Twins (c.pageLoaded i) (c'.pageLoaded i) := by
  unfold Console.pageLoaded
  rw [h.page]
  split
  · exact ((h.arm i).setState i .on).act (Page.setChecked · true)
  · exact h

theorem Twins.toggle (h : Twins c c') (i : Nat) (checked : Bool) :
    Twins (c.toggle i checked) (c'.toggle i checked) := by
  unfold Console.toggle
  split
  · exact ((h.act (Page.replace · _)).arm i).setState i .on
  · exact ((h.act (Page.replace · _)).disarm i).setState i .off

/-! ### Dispatches -/

theorem Twins.conclude (h : Twins c c') (i : Nat) (request : CommandRequest)
    (result : Except String EntitlementResponse) :
    (c.conclude i request result).1 = (c'.conclude i request result).1 ∧
      Twins (c.conclude i request result).2 (c'.conclude i request result).2 := by
  unfold Console.conclude
  split
  · exact ⟨rfl, h⟩
  · exact ⟨rfl, h.navigate _⟩
  · exact ⟨rfl, (h.schedule 0 rfl (by simp) (by simp)).armRedirect i⟩

theorem Twins.enforce (h : Twins c c') (result : Except String EntitlementResponse) :
    (c.enforce result).1 = (c'.enforce result).1 ∧
      Twins (c.enforce result).2 (c'.enforce result).2 := by
  unfold Console.enforce
  split
  · exact ⟨rfl, h.navigate _⟩
  · exact ⟨rfl, h⟩

/-! ### Submissions -/

variable {s s' : Server} {j j' : Job Task} {n : Nat} {request : CommandRequest}

theorem Twins.schedule_answer (h : Twins c c') (delay : Nat) (result : Except String Unit) :
    Twins (c.schedule delay (.submitted result)) c' where
  __ := h.toAlike
  duties := (duties_schedule_answer delay rfl).trans h.duties
  now := h.now
  tidy := h.tidy.schedule delay (by simp) (by simp)
  tidy' := h.tidy'

/-- Nobody can tell a submission that is answered from one that is not. -/
theorem Twins.submit_left (h : Twins (c.record (.submit request)) c') (s : Server) :
    Twins (c.submit s request) c' := by
  unfold Console.submit
  split
  · exact h
  · exact h.schedule_answer _ _

theorem Twins.submit (h : Twins c c') (s s' : Server) (request : CommandRequest) :
    Twins (c.submit s request) (c'.submit s' request) := by
  have hleft : Twins (c.submit s request) (c'.record (.submit request)) :=
    (h.record _).submit_left s
  exact (hleft.symm.submit_left s').symm

/-! ### Jobs -/

theorem Twins.perform (h : Twins c c') (hs : s'.entitlement = s.entitlement) (task : Task) :
    Twins (c.perform s task) (c'.perform s' task) := by
  cases task with
  | reload => exact h.act Page.reload
  | goHome => exact h.navigate _
  | submit request => exact h.submit s s' request
  | submitted result => exact h
  | dispatch i request =>
    simp only [Console.perform, ask, hs, h.calls]
    exact (h.record .entitlement).schedule _ rfl (by simp) (by simp)
  | conclude i request result =>
    obtain ⟨houtcome, hconclude⟩ := h.conclude i request result
    refine { hconclude.toAlike with now := hconclude.now, completed := ?_, tidy := ?_, tidy' := ?_ }
    · simp only [Console.perform, hconclude.completed, hconclude.now, houtcome]
    · exact hconclude.tidy.congr rfl rfl rfl rfl
    · exact hconclude.tidy'.congr rfl rfl rfl rfl
  | act actions => exact h.act (Page.acts · actions)

/-- The jobs at the same place are the same duty. -/
theorem Alike.job (h : Alike c c') (hj : (outward c.agenda.jobs)[n]? = some j)
    (hj' : (outward c'.agenda.jobs)[n]? = some j') : j.due = j'.due ∧ j.task = j'.task := by
  have hduty : some (dutyOf c.timers c.redirects j) = some (dutyOf c'.timers c'.redirects j') := by
    rw [← getElem?_duties hj, ← getElem?_duties hj', h.duties]
  injection Option.some.inj hduty with _ hdue htask
  exact ⟨hdue, congrArg Duty.task htask⟩

/-- A duty of one is a duty of the other. -/
theorem Alike.counterpart (h : Alike c c') (hj : j ∈ c.agenda.jobs)
    (ho : j.task.isAnswer = false) : ∃ (n : Nat) (j' : Job Task),
      (outward c.agenda.jobs)[n]? = some j ∧ (outward c'.agenda.jobs)[n]? = some j' ∧
        j'.due = j.due := by
  obtain ⟨n, hn⟩ := List.mem_iff_getElem?.1 (mem_outward.2 ⟨hj, ho⟩)
  -- The duties are the same list, so the other has a duty at the same place.
  have hduty := getElem?_duties hn
  rw [h.duties, Console.duties, dutiesOf, List.getElem?_map] at hduty
  obtain ⟨j', hn', -⟩ := Option.map_eq_some_iff.1 hduty
  exact ⟨n, j', hn, hn', (h.job hn hn').1.symm⟩

/-- The jobs at one place can be done if the clocks agree when they are. -/
theorem Alike.resume (h : Alike c c') (ht : c.Tidy) (ht' : c'.Tidy)
    (hs : s'.entitlement = s.entitlement) (hj : (outward c.agenda.jobs)[n]? = some j)
    (hj' : (outward c'.agenda.jobs)[n]? = some j') (hmin : ∀ k ∈ c.agenda.jobs, j.due ≤ k.due)
    (hmin' : ∀ k ∈ c'.agenda.jobs, j'.due ≤ k.due) (hnow : max c.now j.due = max c'.now j'.due) :
    Twins (c.resume s j) (c'.resume s' j') := by
  have htake : Twins { c.cancel (some j.id) with now := max c.now j.due }
      { c'.cancel (some j'.id) with now := max c'.now j'.due } := by
    have hduties : (c.cancel (some j.id)).duties = (c'.cancel (some j'.id)).duties := by
      rw [ht.duties_cancel hj, ht'.duties_cancel hj', h.duties]
    exact ⟨{ h with duties := hduties }, hnow, ht.take hmin, ht'.take hmin'⟩
  rw [Console.resume, Console.resume, ← (h.job hj hj').2]
  exact htake.perform hs j.task

/-- An answer that is there only takes itself away. -/
theorem Tidy.resume_answer (h : c.Tidy) (hj : j ∈ c.agenda.jobs) (ha : j.task.isAnswer = true) :
    Alike (c.resume s j) c := by
  obtain ⟨result, htask⟩ : ∃ result, j.task = .submitted result := by
    cases htask : j.task <;> simp_all [Task.isAnswer]
  have hduties := h.duties_cancel_answer hj ha
  rw [Console.resume, htask]
  exact { Alike.refl c with duties := hduties }

end Console

end ClusterConsole
