import ClusterConsole.Proofs.Console.Homecoming
import ClusterConsole.Proofs.Console.Timer

/-! The reloads of a run. A controller that is wound up reloads the page once, when its interval
is over, unless it is wound up again, switched off or dropped before; all other reloads are
somebody's explicit actions, and the controllers do not disturb each other. -/

namespace ClusterConsole

/-! ### Reloads -/

namespace Page

variable (p : Page)

theorem reloads_navigate (target : String) : (p.navigate target).reloads = p.reloads := by
  unfold navigate
  split <;> rfl

theorem reloads_replace (target : String) : (p.replace target).reloads = p.reloads := by
  unfold replace
  split <;> rfl

theorem reloads_acts (actions : List PageAction) :
    (p.acts actions).reloads = p.reloads + actions.count .reload := by
  induction actions generalizing p with
  | nil => rfl
  | cons action actions ih =>
    have hstep : (p.acts (action :: actions)).reloads =
        (p.act action).reloads + actions.count .reload := ih (p.act action)
    rw [hstep]
    cases action with
    | navigate target => simp [act, reloads_navigate]
    | replace target => simp [act, reloads_replace]
    | reload =>
      rw [List.count_cons_self]
      show p.reloads + 1 + _ = _
      omega
    | setChecked checked => simp [act, setChecked]

end Page

/-- What somebody does to the page. -/
def Move.pageActions : Move → List PageAction
  | .act actions => actions
  | .resume ⟨_, _, .act actions⟩ => actions
  | _ => []

/-- Some timer goes off. -/
def Move.reloads : Move → Bool
  | .resume ⟨_, _, .reload⟩ => true
  | _ => false

namespace Console

variable (s : Server) (c : Console)

theorem reloads_conclude (i : Nat) (request : CommandRequest)
    (result : Except String EntitlementResponse) :
    (c.conclude i request result).2.page.reloads = c.page.reloads := by
  rcases conclude_page c i request result with h | h
  · rw [h]
  · rw [h, Page.reloads_navigate]

theorem reloads_enforce (result : Except String EntitlementResponse) :
    (c.enforce result).2.page.reloads = c.page.reloads := by
  rcases enforce_page c result with h | h
  · rw [h]
  · rw [h, Page.reloads_navigate]

theorem reloads_pageLoaded (i : Nat) : (c.pageLoaded i).page.reloads = c.page.reloads := by
  rw [pageLoaded_page]
  split
  · rfl
  · rfl

theorem reloads_toggle (i : Nat) (checked : Bool) :
    (c.toggle i checked).page.reloads = c.page.reloads := by
  rw [toggle_page, Page.reloads_replace]

end Console

namespace World

variable {s : Server} {w : World} {m : Move} {ms pre post : List Move} {page : Page} {i id : Nat}

theorem reloads_resume {j : Job Task} (ha : w.Allows (.resume j)) :
    (w.move s (.resume j)).console.page.reloads = w.console.page.reloads +
      (Move.resume j).pageActions.count .reload + if (Move.resume j).reloads then 1 else 0 := by
  obtain ⟨k, due, task⟩ := j
  have hresume : (w.move s (.resume ⟨k, due, task⟩)).console =
      (w.console.cancel (some k)).perform s task := Console.resume_of_due ha.2
  rw [hresume]
  cases task with
  | goHome =>
    rw [Console.perform, Console.navigate_page, Page.reloads_navigate, Console.cancel_page]
    rfl
  | submit request =>
    rw [Console.perform, Console.submit_page, Console.cancel_page]
    rfl
  | conclude i request result => exact Console.reloads_conclude _ i request result
  | act actions => exact Page.reloads_acts _ actions
  | _ => rfl

theorem reloads_move (s : Server) (ha : w.Allows m) :
    (w.move s m).console.page.reloads =
      w.console.page.reloads + m.pageActions.count .reload + if m.reloads then 1 else 0 := by
  cases m with
  | resume j => exact reloads_resume ha
  | answer q =>
    obtain ⟨purpose, call, due, result⟩ := q
    cases purpose with
    | dispatch i request => exact Console.reloads_conclude _ i request result
    | check => rfl
    | enforce => exact Console.reloads_enforce _ result
  | act actions => exact Page.reloads_acts _ actions
  | pageLoaded i => exact Console.reloads_pageLoaded _ i
  | toggle i checked => exact Console.reloads_toggle _ i checked
  | dropController i =>
    show (w.console.disarm i).page.reloads = _
    rw [Console.disarm_page]
    rfl
  | _ => rfl

/-- The page is reloaded by explicit actions and by timers that go off, and by nothing else. -/
theorem reloads_run (hl : Lawful s w ms) :
    (w.run s ms).console.page.reloads =
      w.console.page.reloads + (ms.flatMap Move.pageActions).count .reload +
        ms.countP Move.reloads := by
  induction ms generalizing w with
  | nil => rfl
  | cons m ms ih =>
    have hmove := reloads_move s hl.1
    rw [run_cons, ih hl.2, hmove, List.flatMap_cons, List.count_append, List.countP_cons]
    omega

end World

/-! ### States -/

/-- A controller that is off has no timer. -/
def Console.OffIdle (c : Console) : Prop :=
  ∀ (i : Nat) (k : Controller), c.controllers[i]? = some k → k.state = .off → k.timer = none

namespace Console

variable {c : Console} {i n : Nat}

theorem getElem?_arm (hn : i ≠ n) : (c.arm i).controllers[n]? = c.controllers[n]? := by
  cases hk : c.controllers[i]? with
  | none => rw [arm_of_none hk]
  | some k => rw [arm_of_some hk, List.getElem?_set_ne hn]

theorem getElem?_disarm (hn : i ≠ n) : (c.disarm i).controllers[n]? = c.controllers[n]? := by
  cases hk : c.controllers[i]? with
  | none => rw [disarm_of_none hk]
  | some k => rw [disarm_of_some hk, List.getElem?_set_ne hn]

theorem timer_disarm {k : Controller} (hk : (c.disarm i).controllers[i]? = some k) :
    k.timer = none := by
  cases h : c.controllers[i]? with
  | none =>
    rw [disarm_of_none h, h] at hk
    cases hk
  | some d =>
    rw [disarm_of_some h, List.getElem?_set_self (List.getElem?_eq_some_iff.1 h).1] at hk
    cases hk
    rfl

theorem OffIdle.of_controllers (h : c.OffIdle) {d : Console} (hd : d.controllers = c.controllers) :
    d.OffIdle := by
  unfold OffIdle
  rwa [hd]

theorem OffIdle.disarm (h : c.OffIdle) (i : Nat) : (c.disarm i).OffIdle := by
  intro n k hk hoff
  by_cases hn : i = n
  · subst hn
    exact timer_disarm hk
  · rw [getElem?_disarm hn] at hk
    exact h n k hk hoff

theorem OffIdle.setState (h : c.OffIdle) {state : ReloadState}
    (hi : ∀ k, c.controllers[i]? = some k → state = .off → k.timer = none) :
    (c.setState i state).OffIdle := by
  intro n k hk hoff
  rw [getElem?_setState] at hk
  obtain ⟨d, hd, hk⟩ := Option.map_eq_some_iff.1 hk
  by_cases hn : i = n
  · subst hn
    rw [if_pos rfl] at hk
    subst hk
    exact hi d hd hoff
  · rw [if_neg hn] at hk
    subst hk
    exact h n d hd hoff

/-- A controller that is wound up is on. -/
theorem OffIdle.wind (h : c.OffIdle) (i : Nat) : ((c.arm i).setState i .on).OffIdle := by
  intro n k hk hoff
  rw [getElem?_setState] at hk
  obtain ⟨d, hd, hk⟩ := Option.map_eq_some_iff.1 hk
  by_cases hn : i = n
  · rw [if_pos hn] at hk
    subst hk
    cases hoff
  · rw [if_neg hn] at hk
    subst hk
    rw [getElem?_arm hn] at hd
    exact h n d hd hoff

theorem OffIdle.pageLoaded (h : c.OffIdle) (i : Nat) : (c.pageLoaded i).OffIdle := by
  unfold Console.pageLoaded
  split
  · exact (h.wind i).of_controllers rfl
  · exact h

theorem OffIdle.toggle (h : c.OffIdle) (i : Nat) (checked : Bool) : (c.toggle i checked).OffIdle := by
  unfold Console.toggle
  have hpage : ∀ page, ({ c with page } : Console).OffIdle := fun _ => h.of_controllers rfl
  split
  · exact (hpage _).wind i
  · exact ((hpage _).disarm i).setState fun k hk _ => timer_disarm hk

theorem OffIdle.addController (h : c.OffIdle) (interval : Nat) :
    (c.addController interval).OffIdle := by
  intro n k hk hoff
  simp only [Console.addController, List.getElem?_append] at hk
  split at hk
  · exact h n k hk hoff
  · have hnew := List.mem_of_getElem? hk
    rw [List.mem_singleton] at hnew
    rw [hnew]

theorem isArmed_iff (ht : c.Tidy) {k : Controller} (hk : c.controllers[i]? = some k) :
    c.isArmed k = true ↔ ∃ j ∈ c.agenda.jobs, j.task = .reload ∧ k.timer = some j.id := by
  have hholds : c.isArmed k = true ↔ ∃ id, k.timer = some id ∧ ∃ j ∈ c.agenda.jobs, j.id = id := by
    simp only [isArmed, isPending, Option.any_eq_true, Agenda.holds_iff]
  rw [hholds]
  constructor
  · rintro ⟨id, htimer, j, hj, rfl⟩
    have hmem : some j.id ∈ c.controllers.map (·.timer) :=
      List.mem_of_getElem? (by rw [getElem?_timer hk, htimer])
    exact ⟨j, hj, ht.timers.kind_of_mem j hj hmem, htimer⟩
  · rintro ⟨j, hj, -, htimer⟩
    exact ⟨j.id, htimer, j, hj, rfl⟩

end Console

namespace World

variable {s : Server} {w : World} {m : Move} {ms pre post : List Move} {page : Page} {i id : Nat}

theorem offIdle_move (h : w.console.OffIdle) (s : Server) (ha : w.Allows m) :
    (w.move s m).console.OffIdle := by
  cases m with
  | resume j =>
    refine h.of_controllers ?_
    have hresume : (w.move s (.resume j)).console =
        (w.console.cancel (some j.id)).perform s j.task := Console.resume_of_due ha.2
    rw [hresume, Console.perform_controllers, Console.cancel_controllers]
  | answer q =>
    obtain ⟨purpose, call, due, result⟩ := q
    cases purpose with
    | dispatch i request => exact h.of_controllers (Console.conclude_controllers _ i request result)
    | check => exact h
    | enforce => exact h.of_controllers (Console.enforce_controllers _ result)
  | addController interval => exact h.addController interval
  | pageLoaded i => exact h.pageLoaded i
  | toggle i checked => exact h.toggle i checked
  | dropController i => exact h.disarm i
  | _ => exact h.of_controllers rfl

theorem offIdle_run (h : w.console.OffIdle) (hl : Lawful s w ms) : (w.run s ms).console.OffIdle :=
  run_keeps (P := fun w => w.console.OffIdle) (fun _ _ h ha => offIdle_move h s ha) h hl

/-! ### Who wound what up -/

/-- In a run the controller `i` was wound up with the timer `id`. -/
def WoundUp (s : Server) (w : World) (ms : List Move) (i id : Nat) : Prop :=
  ∃ pre m post, ms = pre ++ m :: post ∧ (w.run s pre).Winds i m ∧
    timers.Holds ((w.run s pre).move s m).console i id

theorem not_holds_of_stops (hm : m.Stops i) : ¬ timers.Holds (w.move s m).console i id := by
  obtain ⟨c, -, -, -, htimers⟩ := stops_elim (s := s) (w := w) hm
  intro hold
  have hdisarm : (c.disarm i).timers[i]? = some (some id) := htimers ▸ hold
  rw [Console.timers, List.getElem?_map] at hdisarm
  obtain ⟨k, hk, htimer⟩ := Option.map_eq_some_iff.1 hdisarm
  rw [Console.timer_disarm hk] at htimer
  cases htimer

/-- A timer is taken only by being wound up. -/
theorem woundUp_iff : WoundUp s w ms i id ↔ timers.Took s w ms i id := by
  constructor
  · rintro ⟨pre, m, post, hms, hm, hold⟩
    exact ⟨pre, m, post, hms, .inl hm, hold⟩
  · rintro ⟨pre, m, post, hms, hm | hm, hold⟩
    · exact ⟨pre, m, post, hms, hm, hold⟩
    · exact absurd hold (not_holds_of_stops hm)

/-! ### The law of reloads -/

/-- What becomes of the timers of the controller `i` in a run. A timer is due `wait interval`
after the controller was wound up. -/
structure AutoReloads (s : Server) (w : World) (ms : List Move) (i : Nat) (wait : Nat → Nat) :
    Prop where
  /-- At most one is live, the one that the controller holds. -/
  one : ∀ j ∈ (w.run s ms).console.agenda.jobs, ∀ k ∈ (w.run s ms).console.agenda.jobs,
    j.task = .reload → k.task = .reload → WoundUp s w ms i j.id → WoundUp s w ms i k.id →
      j = k ∧ timers.Holds (w.run s ms).console i j.id
  /-- A controller with a live timer is on, and one that is off has no timer. -/
  states : ∀ k, (w.run s ms).console.controllers[i]? = some k →
    ((w.run s ms).console.isArmed k = true → k.state = .on) ∧ (k.state = .off → k.timer = none)
  /-- Until the controller is reset its timer waits on the agenda, up to its time, or it went off
  once, at its time; afterwards it does not go off. -/
  once : ∀ pre m post k, ms = pre ++ m :: post → (w.run s pre).Winds i m →
    (w.run s pre).console.controllers[i]? = some k →
    let wound := (w.run s pre).move s m
    let due := (w.run s pre).console.now + wait k.interval
    ∃ id, timers.Holds wound.console i id ∧
      (∀ p rest, post = p ++ rest → timers.Undisturbed s i wound p →
        timers.times s id wound p = [] ∧ ⟨id, due, .reload⟩ ∈ (wound.run s p).console.agenda.jobs ∧
            (wound.run s p).console.now ≤ due ∨
          timers.times s id wound p = [due] ∧
            ∀ j ∈ (wound.run s p).console.agenda.jobs, j.id ≠ id) ∧
      ∀ p m' rest, post = p ++ m' :: rest → timers.resets (wound.run s p) i m' →
        timers.times s id (wound.run s p) (m' :: rest) = []
  /-- Every timer that goes off reloads the page, and some controller was wound up with it. -/
  owned : ∀ pre j post, ms = pre ++ .resume j :: post → j.task = .reload →
    ((w.run s pre).move s (.resume j)).console.page = (w.run s pre).console.page.reload ∧
      ∃ k, WoundUp s w pre k j.id
  /-- There are no reloads but these and the explicit ones. -/
  counted : (w.run s ms).console.page.reloads =
    w.console.page.reloads + (ms.flatMap Move.pageActions).count .reload + ms.countP Move.reloads
  /-- No move takes a timer away, or changes its time, but the one at which it goes off and those
  that reset its own controller. -/
  spared : ∀ pre m post, ms = pre ++ m :: post → ¬ timers.resets (w.run s pre) i m →
    ∀ j ∈ (w.run s pre).console.agenda.jobs, j.task = .reload → WoundUp s w pre i j.id →
      m.goesOff j.id = false → j ∈ ((w.run s pre).move s m).console.agenda.jobs

theorem once_of_winds (ht : w.console.Tidy) (ha : w.Allows m) (hm : w.Winds i m) {k : Controller}
    (hk : w.console.controllers[i]? = some k) (hl : Lawful s (w.move s m) post) :
    let wound := w.move s m
    let due := w.console.after k.interval
    ∃ id, timers.Holds wound.console i id ∧
      (∀ p rest, post = p ++ rest → timers.Undisturbed s i wound p →
        timers.times s id wound p = [] ∧ ⟨id, due, .reload⟩ ∈ (wound.run s p).console.agenda.jobs ∧
            (wound.run s p).console.now ≤ due ∨
          timers.times s id wound p = [due] ∧
            ∀ j ∈ (wound.run s p).console.agenda.jobs, j.id ≠ id) ∧
      ∀ p m' rest, post = p ++ m' :: rest → timers.resets (wound.run s p) i m' →
        timers.times s id (wound.run s p) (m' :: rest) = [] := by
  intro wound due
  have hreset := reset_of_winds (s := s) hm hk
  have ht' : wound.console.Tidy := tidy_move ht ha
  have hlt : i < w.console.timers.length :=
    (List.getElem?_eq_some_iff.1 (Console.getElem?_timer hk)).1
  have hold := Owners.Holds.of_reset (o := timers) (d := wound.console) hreset hlt
  have hj : ⟨w.console.agenda.nextId, due, .reload⟩ ∈ wound.console.agenda.jobs :=
    (hreset.jobs ⟨_, due, .reload⟩ rfl).2 (.inl rfl)
  refine ⟨_, hold, ?_, ?_⟩
  · rintro p rest rfl hp
    have hlp := (lawful_append.1 hl).1
    have htp := tidy_run ht' hlp
    rcases Owners.times_of_holds hold ht' hj hlp hp with ⟨htimes, hjp⟩ | ⟨htimes, hgone⟩
    · exact .inl ⟨htimes, hjp, htp.due _ hjp⟩
    · refine .inr ⟨htimes, fun j hj hid => ?_⟩
      have holdp := hold.stays ht' hlp hp
      exact hgone.2 j hj (holdp.kind htp hj hid) hid
  · rintro p m' rest rfl hm'
    obtain ⟨hlp, hrest⟩ := lawful_append.1 hl
    exact Owners.times_of_resets (hold.run ht' hlp) (tidy_run ht' hlp) hrest hm'

/-- A controller that is wound up reloads the page at the end of its interval, or of the longest
wait, unless it is reset before. -/
theorem autoReloads_run (hl : Lawful s (ofPage page) ms) (i : Nat) :
    AutoReloads s (ofPage page) ms i (min · Console.longestWait) := by
  have ht : (ofPage page).console.Tidy := Console.tidy_ofPage page
  constructor
  case one =>
    intro j hj k hk hjr hkr hjw hkw
    have hjh := (woundUp_iff.1 hjw).holds_of_mem ht hl hj hjr rfl
    have hkh := (woundUp_iff.1 hkw).holds_of_mem ht hl hk hkr rfl
    exact ⟨(tidy_ofPage hl).ordered.eq_of_id_eq hj hk (hjh.unique hkh), hjh⟩
  case states =>
    intro k hk
    have hidle : ((ofPage page).run s ms).console.OffIdle :=
      offIdle_run (fun i k hk => by cases hk) hl
    refine ⟨fun harmed => ?_, hidle i k hk⟩
    obtain ⟨j, -, -, htimer⟩ := (Console.isArmed_iff (tidy_ofPage hl) hk).1 harmed
    cases hstate : k.state with
    | on => rfl
    | off =>
      rw [hidle i k hk hstate] at htimer
      cases htimer
  case once =>
    rintro pre m post k rfl hm hk
    obtain ⟨hpre, ha, hpost⟩ := lawful_append.1 hl
    exact once_of_winds (tidy_ofPage hpre) ha hm hk hpost
  case owned =>
    rintro pre ⟨id, due, task⟩ post rfl rfl
    obtain ⟨hpre, ha, -⟩ := lawful_append.1 hl
    obtain ⟨k, htook⟩ := Owners.exists_took (o := timers) hpre ha.1 rfl
    refine ⟨?_, k, woundUp_iff.2 htook⟩
    simp only [move, Console.resume_of_due ha.2, Console.perform, Console.cancel_page]
  case counted => exact reloads_run hl
  case spared =>
    rintro pre m post rfl hm ⟨id, due, task⟩ hj rfl hwound hno
    obtain ⟨hpre, ha, -⟩ := lawful_append.1 hl
    have hold := (woundUp_iff.1 hwound).holds_of_mem ht hpre hj rfl rfl
    exact hold.mem_move (tidy_ofPage hpre) ha hm hno hj

/-- Two controllers, of which the first is wound up again and the second dropped before its
time. -/
def rewound : List Move :=
  [.addController 3, .addController 5, .toggle 0 true, .toggle 1 true, .wait 1, .toggle 0 true,
    .wait 4, .resume ⟨2, 4, .reload⟩, .dropController 1]

theorem autoReloads_run_rewound :
    let w := ofPage default
    Lawful entitling w rewound ∧ timers.times entitling 0 w rewound = [] ∧
      timers.times entitling 2 w rewound = [4] ∧
      AutoReloads entitling w rewound 0 (min · Console.longestWait) := by
  intro w
  have hl : Lawful entitling w rewound := by
    refine ⟨trivial, trivial, trivial, trivial, ⟨Nat.zero_le _, ?_⟩, trivial, ⟨?_, ?_⟩,
      ⟨.head _, Nat.le_refl _⟩, trivial, trivial⟩
    · intro j hj
      rcases hj with _ | ⟨_, _ | ⟨_, ⟨⟩⟩⟩
      · exact show 1 ≤ 3 by decide
      · exact show 1 ≤ 5 by decide
    · exact show 1 ≤ 4 by decide
    · intro j hj
      rcases hj with _ | ⟨_, _ | ⟨_, ⟨⟩⟩⟩
      · exact Nat.le_refl _
      · exact show 4 ≤ 5 by decide
  exact ⟨hl, rfl, rfl, autoReloads_run hl 0⟩

/-- A controller whose interval is longer than any wait. -/
def distant : List Move :=
  let due := (Console.ofPage default).after 9223372036854775808
  [.addController 9223372036854775808, .toggle 0 true, .wait due, .resume ⟨0, due, .reload⟩]

/-- Not every timer goes off at the end of the interval: no wait is longer than the longest. -/
theorem not_autoReloads_interval : ¬ ∀ (s : Server) (page : Page) (ms : List Move) (i : Nat),
    Lawful s (ofPage page) ms → AutoReloads s (ofPage page) ms i fun interval => interval := by
  intro h
  have hl : Lawful entitling (ofPage default) distant := by
    refine ⟨trivial, trivial, ⟨Nat.zero_le _, ?_⟩, ⟨List.mem_of_mem_head? rfl, Nat.le_refl _⟩,
      trivial⟩
    intro j hj
    obtain rfl : j = ⟨0, (Console.ofPage default).after 9223372036854775808, .reload⟩ :=
      List.mem_singleton.1 hj
    exact Nat.le_refl _
  obtain ⟨timer, hold, honce, -⟩ := (h _ _ distant 0 hl).once (distant.take 1) (.toggle 0 true)
    (distant.drop 2) ⟨9223372036854775808, .off, none⟩ rfl rfl rfl
  have hundisturbed : timers.Undisturbed entitling 0
      (((ofPage default).run entitling (distant.take 1)).move entitling (.toggle 0 true))
      (distant.drop 2) :=
    ⟨fun hreset => hreset.elim id id, fun hreset => hreset.elim id id, trivial⟩
  obtain rfl : timer = 0 := by
    cases hold
    rfl
  rcases honce (distant.drop 2) [] (List.append_nil _).symm hundisturbed with
    ⟨htimes, -, -⟩ | ⟨htimes, -⟩
  · cases htimes
  · replace htimes : [(Console.ofPage default).after 9223372036854775808] =
        [0 + 9223372036854775808] := htimes
    exact absurd (List.cons.inj htimes).1 (by decide)

end World

end ClusterConsole
