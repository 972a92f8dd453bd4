import ClusterConsole.Proofs.Console.Owner

/-! The timers of the controllers. A controller is reset when it is wound up, which puts a timer
on the agenda in the place of the one before, and when it is switched off or dropped; no
other move touches its timer, except the one at which it goes off. -/

namespace ClusterConsole

/-! ### Winding up -/

/-- The controller is wound up: it is switched on, or told of the load of a page with the
fragment. -/
def World.Winds (w : World) (i : Nat) : Move → Prop
  | .toggle k true => k = i
  | .pageLoaded k => k = i ∧ w.console.page.fragment = some autoReloadFragment
  | _ => False

/-- The controller is switched off or dropped. -/
def Move.Stops (i : Nat) : Move → Prop
  | .toggle k false => k = i
  | .dropController k => k = i
  | _ => False

/-- The timer with an identifier goes off. -/
def Move.goesOff (id : Nat) : Move → Bool
  | .resume ⟨k, _, .reload⟩ => k == id
  | _ => false

theorem Move.goesOff_iff {id : Nat} {m : Move} :
    m.goesOff id = true ↔ ∃ due, m = .resume ⟨id, due, .reload⟩ := by
  cases m with
  | resume j =>
    obtain ⟨k, due, task⟩ := j
    cases task with
    | reload => simp [goesOff]
    | _ => simp [goesOff]
  | _ => simp [goesOff]

namespace Console

/-- The handles of the controllers. -/
def timers (c : Console) : List (Option Nat) := c.controllers.map (·.timer)

variable {c : Console} {i : Nat} {k : Controller}

/-! ### Operations -/

@[simp] theorem timers_setState (state : ReloadState) : (c.setState i state).timers = c.timers :=
  setState_timers c i state

theorem timers_of_controllers {d : Console} (h : d.controllers = c.controllers) :
    d.timers = c.timers := by rw [timers, h, timers]

theorem exists_controller (hi : i < c.timers.length) : ∃ k, c.controllers[i]? = some k := by
  have hlt : i < c.controllers.length := by simpa [timers] using hi
  exact ⟨c.controllers[i], List.getElem?_eq_getElem hlt⟩

theorem no_controller (hi : c.timers.length ≤ i) : c.controllers[i]? = none := by
  have hle : c.controllers.length ≤ i := by simpa [timers] using hi
  exact List.getElem?_eq_none hle

/-- A timer that is armed is due after the interval of its controller. -/
theorem reset_arm (hk : c.controllers[i]? = some k) :
    Reset c.agenda (c.arm i).agenda c.timers (c.arm i).timers .reload i
      (some ⟨c.agenda.nextId, c.after k.interval, .reload⟩) := by
  have htimers : (c.arm i).timers = c.timers.set i (some c.agenda.nextId) := by
    rw [arm_of_some hk, timers, List.map_set]
    rfl
  rw [htimers, arm_of_some hk]
  exact .schedule (getElem?_timer hk) _

theorem reset_disarm (hk : c.controllers[i]? = some k) :
    Reset c.agenda (c.disarm i).agenda c.timers (c.disarm i).timers .reload i none := by
  have htimers : (c.disarm i).timers = c.timers.set i none := by
    rw [disarm_of_some hk, timers, List.map_set]
    rfl
  rw [htimers, disarm_of_some hk]
  exact .cancel (getElem?_timer hk)

/-! ### Jobs -/

theorem perform_controllers (s : Server) (task : Task) :
    (c.perform s task).controllers = c.controllers := by
  cases task with
  | goHome => exact navigate_controllers c _
  | submit request => exact submit_controllers c request s
  | conclude i request result => exact conclude_controllers c i request result
  | _ => rfl

theorem Tidy.keeps_conclude (h : c.Tidy) (request : CommandRequest)
    (result : Except String EntitlementResponse) :
    c.agenda.Keeps (· = .reload) (c.conclude i request result).2.agenda := by
  by_cases he : Entitled result
  · rw [conclude_of_entitled he]
    have hsubmit : (c.schedule 0 (.submit request)).Tidy := h.schedule 0 (by simp) (by simp)
    exact (Agenda.keeps_schedule _ _ (by simp)).trans (hsubmit.keeps_armRedirect (by simp))
  · exact .of_eq (conclude_agenda he)

/-- To do a job puts no timer on the agenda, and takes none away. -/
theorem Tidy.keeps_perform (h : c.Tidy) (s : Server) (task : Task) :
    c.agenda.Keeps (· = .reload) (c.perform s task).agenda := by
  cases task with
  | goHome => exact .of_eq (navigate_agenda c _)
  | submit request => exact keeps_submit (by simp) request
  | dispatch i request => exact Agenda.keeps_schedule _ _ (by simp)
  | conclude i request result => exact h.keeps_conclude request result
  | _ => exact .refl _

end Console

/-! ### Moves -/

namespace World

variable {s : Server} {w : World} {m : Move} {i : Nat} {k : Controller}

/-- What is left of a move that winds a controller up. -/
theorem winds_elim (hm : w.Winds i m) : ∃ c : Console, c.now = w.console.now ∧
    c.agenda = w.console.agenda ∧ c.controllers = w.console.controllers ∧
    (w.move s m).console.agenda = (c.arm i).agenda ∧
    (w.move s m).console.timers = (c.arm i).timers := by
  match m, hm with
  | .toggle k true, hki =>
    obtain rfl : k = i := hki
    refine ⟨{ w.console with page := w.console.page.replace ("#" ++ autoReloadFragment) },
      rfl, rfl, rfl, ?_⟩
    simp [move, Console.toggle]
  | .pageLoaded k, ⟨hki, hfragment⟩ =>
    obtain rfl : k = i := hki
    refine ⟨w.console, rfl, rfl, rfl, ?_⟩
    simp only [move, Console.pageLoaded, hfragment, if_true]
    exact ⟨rfl, Console.timers_setState _⟩

theorem stops_elim (hm : m.Stops i) : ∃ c : Console, c.agenda = w.console.agenda ∧
    c.controllers = w.console.controllers ∧
    (w.move s m).console.agenda = (c.disarm i).agenda ∧
    (w.move s m).console.timers = (c.disarm i).timers := by
  match m, hm with
  | .toggle k false, hki =>
    obtain rfl : k = i := hki
    refine ⟨{ w.console with page := w.console.page.replace Route.home }, rfl, rfl, ?_⟩
    simp [move, Console.toggle]
  | .dropController k, hki =>
    obtain rfl : k = i := hki
    exact ⟨w.console, rfl, rfl, rfl, rfl⟩

/-- A controller that is wound up has a new timer, due after its interval. -/
theorem reset_of_winds (hm : w.Winds i m) (hk : w.console.controllers[i]? = some k) :
    Reset w.console.agenda (w.move s m).console.agenda w.console.timers
      (w.move s m).console.timers .reload i
      (some ⟨w.console.agenda.nextId, w.console.after k.interval, .reload⟩) := by
  obtain ⟨c, hnow, hagenda, hcontrollers, hagenda', htimers'⟩ := winds_elim (s := s) hm
  have hreset := Console.reset_arm (c := c) (i := i) (k := k) (by rw [hcontrollers, hk])
  have hafter : c.after k.interval = w.console.after k.interval := by
    simp only [Console.after, hnow]
  rwa [hagenda', htimers', ← hagenda, ← Console.timers_of_controllers hcontrollers, ← hafter]

theorem reset_of_stops (hm : m.Stops i) (hk : w.console.controllers[i]? = some k) :
    Reset w.console.agenda (w.move s m).console.agenda w.console.timers
      (w.move s m).console.timers .reload i none := by
  obtain ⟨c, hagenda, hcontrollers, hagenda', htimers'⟩ := stops_elim (s := s) (w := w) hm
  have hreset := Console.reset_disarm (c := c) (i := i) (k := k) (by rw [hcontrollers, hk])
  rwa [hagenda', htimers', ← hagenda, ← Console.timers_of_controllers hcontrollers]

/-- To wind up or to stop what is not there spares all timers. -/
theorem spared_of_winds (hwinds : w.Winds i m) (hi : w.console.timers.length ≤ i)
    (hm : ∀ id, m.goesOff id = false) :
    Spared w.console.agenda (w.move s m).console.agenda w.console.timers
      (w.move s m).console.timers .reload (m.goesOff ·) := by
  obtain ⟨c, -, hagenda, hcontrollers, hagenda', htimers'⟩ := winds_elim (s := s) hwinds
  have hnone : c.controllers[i]? = none := by rw [hcontrollers, Console.no_controller hi]
  rw [Console.arm_of_none hnone] at hagenda' htimers'
  refine .of_keeps ?_ (.of_eq ?_) hm
  · rw [htimers', Console.timers_of_controllers hcontrollers]
  · rw [hagenda', hagenda]

theorem spared_of_stops (hstops : m.Stops i) (hi : w.console.timers.length ≤ i)
    (hm : ∀ id, m.goesOff id = false) :
    Spared w.console.agenda (w.move s m).console.agenda w.console.timers
      (w.move s m).console.timers .reload (m.goesOff ·) := by
  obtain ⟨c, hagenda, hcontrollers, hagenda', htimers'⟩ := stops_elim (s := s) (w := w) hstops
  have hnone : c.controllers[i]? = none := by rw [hcontrollers, Console.no_controller hi]
  rw [Console.disarm_of_none hnone] at hagenda' htimers'
  refine .of_keeps ?_ (.of_eq ?_) hm
  · rw [htimers', Console.timers_of_controllers hcontrollers]
  · rw [hagenda', hagenda]

theorem spared_resume (ht : w.console.Tidy) {j : Job Task} (ha : w.Allows (.resume j)) :
    Spared w.console.agenda (w.move s (.resume j)).console.agenda w.console.timers
      (w.move s (.resume j)).console.timers .reload ((Move.resume j).goesOff ·) := by
  have hresume : (w.move s (.resume j)).console =
      (w.console.cancel (some j.id)).perform s j.task := Console.resume_of_due ha.2
  have hcontrollers := Console.perform_controllers (c := w.console.cancel (some j.id)) s j.task
  rw [hresume]
  exact .of_resume Move.goesOff_iff ht ha.1 (Console.timers_of_controllers hcontrollers)
    ((ht.cancel (some j.id)).keeps_perform s j.task)

/-- A move that winds no controller up and stops none spares the timers. -/
theorem spared_of_not_resets (ht : w.console.Tidy) (ha : w.Allows m)
    (hm : ∀ i, w.Winds i m ∨ m.Stops i → w.console.timers.length ≤ i) :
    Spared w.console.agenda (w.move s m).console.agenda w.console.timers
      (w.move s m).console.timers .reload (m.goesOff ·) := by
  have aside : ∀ {c : Console}, (w.move s m).console = c → (∀ id, m.goesOff id = false) →
      c.timers = w.console.timers → w.console.agenda.Keeps (· = .reload) c.agenda →
      Spared w.console.agenda (w.move s m).console.agenda w.console.timers
        (w.move s m).console.timers .reload (m.goesOff ·) := by
    rintro c rfl hno hc hkeeps
    exact .of_keeps hc hkeeps hno
  cases m with
  | resume j => exact spared_resume ht ha
  | answer q =>
    obtain ⟨purpose, call, due, result⟩ := q
    cases purpose with
    | dispatch i request =>
      have hcontrollers := Console.conclude_controllers w.console i request result
      exact aside rfl (fun _ => rfl) (Console.timers_of_controllers hcontrollers)
        (ht.keeps_conclude request result)
    | check => exact aside rfl (fun _ => rfl) rfl (.refl _)
    | enforce =>
      have hcontrollers := Console.enforce_controllers w.console result
      exact aside rfl (fun _ => rfl) (Console.timers_of_controllers hcontrollers)
        (.of_eq (Console.enforce_agenda _ result))
  | start i request =>
    exact aside rfl (fun _ => rfl) rfl (Agenda.keeps_schedule _ _ (by simp))
  | plan delay actions =>
    exact aside rfl (fun _ => rfl) rfl (Agenda.keeps_schedule _ _ (by simp))
  | addController interval =>
    refine ⟨Nat.le_refl _, ⟨[none], ?_, by simp⟩, fun j _ => (and_iff_left rfl).symm⟩
    simp [move, Console.addController, Console.timers]
  | pageLoaded i =>
    by_cases hfragment : w.console.page.fragment = some autoReloadFragment
    · exact spared_of_winds ⟨rfl, hfragment⟩ (hm i (.inl ⟨rfl, hfragment⟩)) fun _ => rfl
    · refine aside ?_ (fun _ => rfl) rfl (.refl _)
      simp only [move, Console.pageLoaded, hfragment, if_false]
  | toggle i checked =>
    cases checked with
    | true => exact spared_of_winds rfl (hm i (.inl rfl)) fun _ => rfl
    | false => exact spared_of_stops rfl (hm i (.inr rfl)) fun _ => rfl
  | dropController i => exact spared_of_stops rfl (hm i (.inr rfl)) fun _ => rfl
  | _ => exact aside rfl (fun _ => rfl) rfl (.refl _)

theorem resets_unique {i k : Nat} (hi : w.Winds i m ∨ m.Stops i) (hk : w.Winds k m ∨ m.Stops k) :
    i = k := by
  cases m with
  | toggle n checked =>
    cases checked with
    | true =>
      have hn : n = i := hi.elim id False.elim
      have hn' : n = k := hk.elim id False.elim
      omega
    | false =>
      have hn : n = i := hi.elim False.elim id
      have hn' : n = k := hk.elim False.elim id
      omega
  | pageLoaded n =>
    have hn : n = i := hi.elim And.left False.elim
    have hn' : n = k := hk.elim And.left False.elim
    omega
  | dropController n =>
    have hn : n = i := hi.elim False.elim id
    have hn' : n = k := hk.elim False.elim id
    omega
  | _ => exact (hi.elim id id).elim

end World

/-- The controllers own the reloads on the agenda. -/
def timers : Owners where
  kind := .reload
  handles := Console.timers
  resets w i m := w.Winds i m ∨ m.Stops i
  does := Move.goesOff
  held ht := ht.timers
  does_iff := Move.goesOff_iff
  not_resets hdone := by
    obtain ⟨due, rfl⟩ := Move.goesOff_iff.1 hdone
    exact fun h => h.elim id id
  resets_unique := World.resets_unique
  reset ht ha hm hi := by
    obtain ⟨k, hk⟩ := Console.exists_controller hi
    rcases hm with hm | hm
    · exact ⟨_, World.reset_of_winds hm hk⟩
    · exact ⟨_, World.reset_of_stops hm hk⟩
  spared := World.spared_of_not_resets

end ClusterConsole
