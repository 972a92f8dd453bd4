import ClusterConsole.Proofs.Cli.Chronicle
import ClusterConsole.Proofs.Console.Calls
import ClusterConsole.Proofs.Console.Denial
import ClusterConsole.Proofs.Console.Reloading

/-! The law of a command that watches the page. Its own moves tend one new controller at a time,
so that whatever happens beside it at most one timer is live that it has wound up, and only while
it waits for the page. -/

namespace ClusterConsole

/-! ### Tending a controller -/

/-- A move for a view, or one by which no controller is used but one. -/
def Move.Tends (i : Nat) : Move → Prop
  | .view _ | .addController _ => True
  | .pageLoaded k | .toggle k _ | .dropController k => k = i
  | _ => False

namespace World

variable {s : Server} {w : World} {m : Move} {i k id : Nat}

theorem eq_of_resets (hm : m.Tends i) (hreset : timers.resets w k m) : k = i := by
  match m, hm with
  | .pageLoaded _, rfl => exact (hreset.elim And.left False.elim).symm
  | .toggle _ true, rfl => exact (hreset.elim id False.elim).symm
  | .toggle _ false, rfl => exact (hreset.elim False.elim id).symm
  | .dropController _, rfl => exact (hreset.elim False.elim id).symm
  | .view _, _ | .addController _, _ => exact (hreset.elim id id).elim

theorem not_resets_of_outside (hm : m.Outside) : ¬ timers.resets w k m := by
  match m, hm with
  | .wait _, _ | .resume _, _ | .act _, _ | .plan _ _, _ => exact fun h => h.elim id id

/-- Whoever tends a controller leaves the history as it is. -/
theorem past_of_tends (s : Server) (w : World) (hm : m.Tends i) :
    (w.move s m).console.page.past = w.console.page.past := by
  match m, hm with
  | .view _, _ | .addController _, _ => rfl
  | .pageLoaded k, _ => exact Console.pageLoaded_past _ k
  | .toggle k checked, _ =>
    have hpage : (w.move s (.toggle k checked)).console.page = _ := Console.toggle_page _ k checked
    rw [hpage, Page.replace_past]
  | .dropController k, _ => exact congrArg Page.past (Console.disarm_page _ k)

theorem call_of_tends (hm : m.Tends i) : m.call? = none ∨ ∃ path, m = .view path := by
  match m, hm with
  | .view path, _ => exact .inr ⟨path, rfl⟩
  | .addController _, _ | .pageLoaded _, _ | .toggle _ _, _ | .dropController _, _ => exact .inl rfl

theorem past_of_reload (s : Server) (w : World) (hm : m.reloads = true) :
    (w.move s m).console.page.past = w.console.page.past := by
  match m, hm with
  | .resume ⟨_, _, .reload⟩, _ => rfl

/-- Whoever tends a controller disturbs no other. -/
theorem undisturbed_of_tends {ms : List Move} (h : ∀ m ∈ ms, m.Tends k) (hne : i ≠ k) :
    timers.Undisturbed s i w ms := by
  induction ms generalizing w with
  | nil => trivial
  | cons m ms ih =>
    have hm := h m List.mem_cons_self
    exact ⟨fun hreset => hne (eq_of_resets hm hreset),
      ih fun x hx => h x (List.mem_cons_of_mem m hx)⟩

theorem controllers_le_move (ht : w.console.Tidy) (ha : w.Allows m) :
    w.console.controllers.length ≤ (w.move s m).console.controllers.length := by
  have hle := Owners.length_le_move (o := timers) (s := s) ht ha
  have hlength : ∀ c : Console, (timers.handles c).length = c.controllers.length :=
    fun c => List.length_map _
  rwa [hlength, hlength] at hle

theorem controllers_le_run {ms : List Move} (ht : w.console.Tidy) (hl : Lawful s w ms) :
    w.console.controllers.length ≤ (w.run s ms).console.controllers.length := by
  induction ms generalizing w with
  | nil => exact Nat.le_refl _
  | cons m ms ih =>
    exact Nat.le_trans (controllers_le_move ht hl.1) (ih (tidy_move ht hl.1) hl.2)

end World

namespace Cli

/-! ### Counting -/

namespace Deed

/-- A view is asked for. -/
def isView : Deed → Bool
  | does (.view _) => true
  | _ => false

/-- A reload is read from the feed. -/
def isReload : Deed → Bool
  | reads (.reloaded _) => true
  | _ => false

/-- A controller is switched on. -/
def switchesOn : Deed → Bool
  | does (.toggle _ true) => true
  | _ => false

theorem isView_does (m : Move) : (m.call?.any Call.isView) = isView (.does m) := by
  cases m with
  | resume j =>
    obtain ⟨id, due, task⟩ := j
    cases task <;> rfl
  | _ => rfl

theorem isView_beside {m : Move} (hm : m.Outside) : m.call?.any Call.isView = false := by
  match m, hm with
  | .wait _, _ | .act _, _ | .plan _ _, _ => rfl
  | .resume j, _ => exact isView_does (.resume j)

end Deed

/-- If others ask for no view, the views among the calls are those of the command. -/
theorem countP_view {ds : List Deed} (h : ∀ m, .beside m ∈ ds → m.Outside) :
    ((moves ds).filterMap Move.call?).countP Call.isView = ds.countP Deed.isView := by
  unfold moves
  rw [List.filterMap_filterMap, List.countP_filterMap]
  refine List.countP_congr fun d hd => ?_
  have hview : (d.move?.bind Move.call?).any Call.isView = d.isView := by
    cases d with
    | does m => exact Deed.isView_does m
    | reads event => rfl
    | beside m => exact Deed.isView_beside (h m hd)
  rw [← hview]
  cases d.move?.bind Move.call? <;> rfl

/-- The controller that the command tends at a stage. -/
def WatchStage.controller (c : Console) : WatchStage → Nat
  | waiting i _ _ => i
  | _ => c.controllers.length

namespace Watch

variable {p : Watch} {s : Server} {c c₀ : Console} {stage stage' : WatchStage}
  {start r r' : Run WatchStage} {es : List Event} {ds new before after : List Deed} {m : Move}
  {i n id : Nat}

/-! ### Turns -/

theorem tends_opening {enable : Bool} (h : m ∈ p.opening c enable) :
    m.Tends c.controllers.length := by
  unfold opening at h
  simp only at h
  rcases List.mem_append.1 h with h | h
  · rcases h with _ | ⟨_, _ | ⟨_, ⟨⟩⟩⟩
    · trivial
    · rfl
  · split at h
    · cases List.mem_singleton.1 h
      rfl
    · cases h

/-- In a turn the command tends one controller. -/
theorem Does.tends (h : Does p s c stage new stage') :
    ∀ m ∈ moves new, m.Tends (stage.controller c) := by
  intro m hm
  cases h with
  | start =>
    cases List.mem_singleton.1 hm
    trivial
  | on hdue hon =>
    rw [moves_does] at hm
    exact tends_opening hm
  | off hdue hoff =>
    rw [moves_does] at hm
    rcases List.mem_append.1 hm with hm | hm
    · exact tends_opening hm
    · cases List.mem_singleton.1 hm
      rfl
  | reloaded =>
    rcases hm with _ | ⟨_, _ | ⟨_, ⟨⟩⟩⟩
    · rfl
    · trivial
  | stopped =>
    rcases hm with _ | ⟨_, _ | ⟨_, ⟨⟩⟩⟩
    · rfl
    · rfl
  | _ =>
    cases List.mem_singleton.1 hm
    rfl

/-- After a turn the command waits with the controller that it tended, or that one has no timer. -/
theorem Does.released (h : Does p s c stage new stage') :
    (∃ position signal, stage' = .waiting (stage.controller c) position signal) ∨
      ∀ id, ¬ timers.Holds (World.run s ⟨c, []⟩ (moves new)).console (stage.controller c) id := by
  cases h with
  | start =>
    refine .inr fun id hold => ?_
    have hlt : c.controllers.length < c.timers.length := hold.lt_length
    rw [Console.timers, List.length_map] at hlt
    exact Nat.lt_irrefl _ hlt
  | on => exact .inl ⟨_, _, rfl⟩
  | off =>
    refine .inr fun id => ?_
    rw [moves_does, World.run_append]
    exact World.not_holds_of_stops (s := s) (m := .dropController _) rfl
  | reloaded =>
    exact .inr fun id => World.not_holds_of_stops (w := ⟨c, []⟩) (m := .dropController _) rfl
  | stopped =>
    exact .inr fun id => World.not_holds_of_stops (s := s) (m := .dropController _) rfl
  | _ =>
    exact .inr fun id =>
      World.not_holds_of_stops (s := s) (w := ⟨c, []⟩) (m := .dropController _) rfl

theorem Does.waits {k position : Nat} {signal : Option Nat}
    (h : Does p s c stage new (.waiting k position signal)) :
    k = c.controllers.length ∧ ∃ due result location enable position signal,
      stage = .loading due result location enable position signal := by
  generalize hnext : WatchStage.waiting k position signal = next at h
  cases h with
  | on =>
    cases hnext
    exact ⟨rfl, _, _, _, _, _, _, rfl⟩
  | _ => cases hnext

/-! ### Timers -/

/-- What holds of the controllers from the `n`-th on, those of the command: none has a timer but
the one with which it waits. -/
structure Kept (n : Nat) (c : Console) (stage : WatchStage) : Prop where
  le : n ≤ c.controllers.length
  waits : ∀ i position signal, stage = .waiting i position signal → n ≤ i
  holds : ∀ i id, n ≤ i → timers.Holds c i id →
    ∃ position signal, stage = .waiting i position signal

theorem Kept.le_controller (h : Kept n c stage) : n ≤ stage.controller c := by
  cases stage with
  | waiting i position signal => exact h.waits i position signal rfl
  | _ => exact h.le

theorem kept_start (c : Console) : Kept c.controllers.length c .start where
  le := Nat.le_refl _
  waits := nofun
  holds i id hi hold := by
    have hlt : i < c.timers.length := hold.lt_length
    rw [Console.timers, List.length_map] at hlt
    exact absurd hlt (Nat.not_lt_of_le hi)

theorem Kept.turn (h : Kept n c stage) (ht : c.Tidy) (hdoes : Does p s c stage new stage') :
    Kept n (World.run s ⟨c, []⟩ (moves new)).console stage' := by
  have hl := hdoes.lawful (s := s) ⟨c, []⟩
  constructor
  case le => exact Nat.le_trans h.le (World.controllers_le_run (w := ⟨c, []⟩) ht hl)
  case waits =>
    rintro i position signal rfl
    rw [hdoes.waits.1]
    exact h.le
  case holds =>
    intro i id hi hold
    by_cases hne : i = stage.controller c
    · subst hne
      rcases hdoes.released with hwaits | hnone
      · exact hwaits
      · exact absurd hold (hnone id)
    · -- Another controller had its timer before, so that the command waited with it.
      have hbefore := hold.of_run ht hl (World.undisturbed_of_tends hdoes.tends hne)
      obtain ⟨position, signal, rfl⟩ := h.holds i id hi hbefore
      exact absurd rfl hne

theorem Kept.other (h : Kept n c stage) (ht : c.Tidy) (hm : m.Outside)
    (ha : World.Allows ⟨c, []⟩ m) : Kept n (World.move s ⟨c, []⟩ m).console stage where
  le := Nat.le_trans h.le (World.controllers_le_move (w := ⟨c, []⟩) ht ha)
  waits := h.waits
  holds i id hi hold :=
    h.holds i id hi (hold.of_move ht ha (World.not_resets_of_outside hm))

theorem Chronicle.kept (h : Chronicle p s (p.activity.begin c₀) es ds r) (ht : c₀.Tidy) :
    Kept c₀.controllers.length r.console r.stage := by
  induction h with
  | nil => exact kept_start c₀
  | turn hbefore hturn hdoes hrun ih =>
    have hkept := ih.turn (hbefore.tidy ht) hdoes
    rwa [hrun] at hkept
  | other hbefore he ih =>
    cases he with
    | other ready hready hwaits hm ha => exact ih.other (hbefore.tidy ht) hm ha

/-- Among what happened from `c₀` on, the command wound up the timer `id`. -/
def Arms (s : Server) (c₀ : Console) (ds : List Deed) (id : Nat) : Prop :=
  ∃ pre m post i, ds = pre ++ .does m :: post ∧
    (World.run s ⟨c₀, []⟩ (moves pre)).Winds i m ∧
      timers.Holds ((World.run s ⟨c₀, []⟩ (moves pre)).move s m).console i id

theorem Arms.append (h : Arms s c₀ ds id) (new : List Deed) : Arms s c₀ (ds ++ new) id := by
  obtain ⟨pre, m, post, i, rfl, hwinds, hold⟩ := h
  exact ⟨pre, m, post ++ new, i, by simp, hwinds, hold⟩

/-- The controller is one of the command's own, and it took the timer. -/
theorem Arms.took (h : Arms s c₀ ds id) (hc : Chronicle p s (p.activity.begin c₀) es ds r)
    (ht : c₀.Tidy) :
    ∃ i, c₀.controllers.length ≤ i ∧ timers.Took s ⟨c₀, []⟩ (moves ds) i id := by
  obtain ⟨pre, m, post, i, rfl, hwinds, hold⟩ := h
  have htook : timers.Took s ⟨c₀, []⟩ (moves (pre ++ .does m :: post)) i id :=
    ⟨moves pre, m, moves post, moves_append pre _, .inl hwinds, hold⟩
  obtain ⟨es₁, ds₁, r₁, hbefore, ⟨before, after, stage', rfl, hdoes⟩ | ⟨_, _, _, hd, -⟩⟩ :=
    hc.split rfl
  · have hmem : m ∈ moves (before ++ .does m :: after) := by
      rw [moves_append]
      exact List.mem_append_right _ List.mem_cons_self
    have hi : i = r₁.stage.controller r₁.console :=
      World.eq_of_resets (hdoes.tends m hmem) (.inl hwinds)
    exact ⟨i, hi ▸ (hbefore.kept ht).le_controller, htook⟩
  · cases hd

/-- A live timer that the command wound up is held by the controller with which it waits. -/
theorem Arms.live (h : Arms s c₀ ds id) (hc : Chronicle p s (p.activity.begin c₀) es ds r)
    (ht : c₀.Tidy) {j : Job Task} (hj : j ∈ r.console.agenda.jobs) (hreload : j.task = .reload)
    (hid : j.id = id) : ∃ i position signal, r.stage = .waiting i position signal ∧
      timers.Holds r.console i id := by
  obtain ⟨i, hi, htook⟩ := h.took hc ht
  obtain ⟨hl, hled⟩ := hc.led
  have hconsole : (World.run s ⟨c₀, []⟩ (moves ds)).console = r.console :=
    congrArg World.console hled
  rw [← hconsole] at hj
  have hold := htook.holds_of_mem ht hl hj hreload hid
  rw [hconsole] at hold
  obtain ⟨position, signal, hstage⟩ := (hc.kept ht).holds i id hi hold
  exact ⟨i, position, signal, hstage, hold⟩

/-! ### Views and switches -/

/-- What a stage says of the number of views, reloads and switches before it. -/
def Counted (p : Watch) (ds : List Deed) : WatchStage → Prop
  | .start => ds.countP Deed.isView = 0 ∧ ds.countP Deed.isReload = 0 ∧
      ds.countP Deed.switchesOn = 0
  | .loading _ _ _ enable _ _ => ds.countP Deed.isView = 1 + ds.countP Deed.isReload ∧
      ds.countP Deed.switchesOn ≤ 1 ∧
        (enable = true → p.enable = true ∧ ds.countP Deed.isView = 1 ∧
          ds.countP Deed.switchesOn = 0)
  | _ => ds.countP Deed.isView = 1 + ds.countP Deed.isReload ∧ ds.countP Deed.switchesOn ≤ 1

theorem isView_opening (p : Watch) (c : Console) (enable : Bool) :
    ((p.opening c enable).map Deed.does).countP Deed.isView = 0 := by
  unfold opening
  cases enable && !c.page.location.isOn <;> rfl

theorem isReload_opening (p : Watch) (c : Console) (enable : Bool) :
    ((p.opening c enable).map Deed.does).countP Deed.isReload = 0 := by
  unfold opening
  cases enable && !c.page.location.isOn <;> rfl

theorem switchesOn_opening (p : Watch) (c : Console) (enable : Bool) :
    ((p.opening c enable).map Deed.does).countP Deed.switchesOn =
      if enable && !c.page.location.isOn then 1 else 0 := by
  unfold opening
  cases enable && !c.page.location.isOn <;> rfl

theorem Counted.turn (h : Counted p ds stage) (hdoes : Does p s c stage new stage') :
    Counted p (ds ++ new) stage' := by
  unfold Counted
  simp only [List.countP_append]
  cases hdoes with
  | start =>
    obtain ⟨hviews, hreloads, hswitches⟩ := h
    rw [hviews, hreloads, hswitches]
    exact ⟨rfl, Nat.zero_le 1, fun henable => ⟨henable, rfl, rfl⟩⟩
  | @on due result location enable position signal =>
    obtain ⟨hviews, hswitches, hfirst⟩ := h
    rw [isView_opening, isReload_opening, switchesOn_opening]
    refine ⟨hviews, ?_⟩
    split
    · next hswitch =>
      obtain ⟨-, -, hnone⟩ := hfirst (Bool.and_eq_true_iff.1 hswitch).1
      omega
    · exact hswitches
  | off =>
    obtain ⟨hviews, hswitches, -⟩ := h
    simp only [List.map_append, List.countP_append]
    rw [isView_opening, isReload_opening, switchesOn_opening]
    exact ⟨hviews, hswitches⟩
  | reloaded =>
    obtain ⟨hviews, hswitches⟩ := h
    rw [hviews]
    exact ⟨Nat.add_assoc 1 _ 1, hswitches, nofun⟩
  | _ => exact h

theorem Counted.beside (h : Counted p ds stage) (m : Move) :
    Counted p (ds ++ [Deed.beside m]) stage := by
  have hcount : ∀ f : Deed → Bool, f (.beside m) = false →
      (ds ++ [Deed.beside m]).countP f = ds.countP f := by
    intro f hf
    rw [List.countP_append, List.countP_singleton, hf]
    rfl
  unfold Counted at h ⊢
  rwa [hcount _ rfl, hcount _ rfl, hcount _ rfl]

theorem Chronicle.counted (h : Chronicle p s (p.activity.begin c₀) es ds r) :
    Counted p ds r.stage := by
  induction h with
  | nil => exact ⟨rfl, rfl, rfl⟩
  | turn _ _ hdoes _ ih => exact ih.turn hdoes
  | other _ he ih =>
    cases he with
    | other ready hready hwaits hm ha => exact ih.beside _

/-- The command switches auto-reload on only if that is asked for, at its first load. -/
theorem Does.switches (h : Does p s c stage new stage') (hpos : 0 < new.countP Deed.switchesOn) :
    ∃ due result location position signal,
      stage = .loading due result location true position signal ∧
        new.countP Deed.isView = 0 := by
  cases h with
  | @on due result location enable position signal =>
    rw [switchesOn_opening] at hpos
    cases enable with
    | true => exact ⟨due, result, location, position, signal, rfl, isView_opening p c true⟩
    | false => exact absurd hpos (Nat.lt_irrefl 0)
  | _ => exact absurd hpos (Nat.lt_irrefl 0)

/-- The command asks for the view of the location where the page is. -/
theorem Does.view {path : String}
    (h : Does p s c stage (before ++ .does (.view path) :: after) stage') :
    path = (World.run s ⟨c, []⟩ (moves before)).console.page.location.text := by
  have hpos : 0 < (before ++ .does (.view path) :: after).countP Deed.isView :=
    List.countP_pos_iff.2 ⟨_, List.mem_append_right _ List.mem_cons_self, rfl⟩
  generalize hnew : before ++ .does (.view path) :: after = new at h hpos
  cases h with
  | start =>
    rcases before with _ | ⟨_, before⟩
    · cases hnew
      rfl
    · exact absurd (List.cons.inj hnew).2 (by simp)
  | on =>
    rw [isView_opening] at hpos
    exact absurd hpos (Nat.lt_irrefl 0)
  | reloaded =>
    rcases before with _ | ⟨_, _ | ⟨_, _ | ⟨_, before⟩⟩⟩
    · cases hnew
    · cases hnew
    · cases hnew
      exact congrArg (·.location.text) (Console.disarm_page c _).symm
    · exact absurd (List.cons.inj (List.cons.inj (List.cons.inj hnew).2).2).2 (by simp)
  | _ => exact absurd hpos (Nat.lt_irrefl 0)

/-! ### The law -/

/-- The law of a command that watches a page: `ds` is what happened from the console `c₀` on, up to
the run `r`. -/
structure Orderly (p : Watch) (s : Server) (c₀ : Console) (ds : List Deed) (r : Run WatchStage) :
    Prop where
  /-- What happened leads to where the run is. -/
  led : World.Lawful s ⟨c₀, []⟩ (moves ds) ∧ World.run s ⟨c₀, []⟩ (moves ds) = ⟨r.console, []⟩
  /-- The command adds no entry to the history, and calls the server for views only. -/
  aside : ∀ pre m post, ds = pre ++ .does m :: post →
    let w := World.run s ⟨c₀, []⟩ (moves pre)
    (w.move s m).console.page.past = w.console.page.past ∧
      (m.call? = none ∨ m.call? = some (.view w.console.page.location.text))
  /-- Nor does a timer that goes off. -/
  timed : ∀ pre m post, ds = pre ++ .beside m :: post → m.reloads = true →
    let w := World.run s ⟨c₀, []⟩ (moves pre)
    (w.move s m).console.page.past = w.console.page.past
  /-- It switches auto-reload on once at most, if that is asked for, on its first load. -/
  switches : ds.countP Deed.switchesOn ≤ 1 ∧
    ∀ pre i post, ds = pre ++ .does (.toggle i true) :: post →
      p.enable = true ∧ pre.countP Deed.isView = 1
  /-- Once it has begun it has loaded a view, and one more for each reload that it has read. -/
  views : r.stage ≠ .start → ds.countP Deed.isView = 1 + ds.countP Deed.isReload
  /-- These are the views for which the server was called. -/
  called : r.console.views = c₀.views + ds.countP Deed.isView
  /-- At most one timer is live that the command wound up. -/
  one : ∀ j ∈ r.console.agenda.jobs, ∀ k ∈ r.console.agenda.jobs, j.task = .reload →
    k.task = .reload → Arms s c₀ ds j.id → Arms s c₀ ds k.id → j = k
  /-- None is unless the command waits for the page: it is not while a view is loaded, nor when
  the command has ended. -/
  live : ∀ j ∈ r.console.agenda.jobs, j.task = .reload → Arms s c₀ ds j.id →
    ∃ i position signal, r.stage = .waiting i position signal
  /-- Once the command has ended no reload comes by a timer that it wound up. -/
  done : ∀ ending, r.stage = .ended ending → ∀ es' ds' r', Chronicle p s r es' ds' r' →
    ∀ id due, .beside (.resume ⟨id, due, .reload⟩) ∈ ds' → ¬ Arms s c₀ ds id

theorem Chronicle.ended (h : Chronicle p s r es ds r') {ending : Ending}
    (hended : r.stage = .ended ending) : r'.stage = .ended ending := by
  induction h with
  | nil => exact hended
  | turn _ _ hdoes _ ih =>
    rw [ih] at hdoes
    cases hdoes
  | other _ he ih =>
    cases he
    exact ih

/-- An own move is part of a turn, before which the run was at some stage. -/
theorem Chronicle.aside (h : Chronicle p s (p.activity.begin c₀) es ds r) {pre post : List Deed}
    (hds : ds = pre ++ .does m :: post) :
    let w := World.run s ⟨c₀, []⟩ (moves pre)
    (w.move s m).console.page.past = w.console.page.past ∧
      (m.call? = none ∨ m.call? = some (.view w.console.page.location.text)) := by
  intro w
  obtain ⟨es₁, ds₁, r₁, hbefore, ⟨before, after, stage', rfl, hdoes⟩ | ⟨_, _, _, hd, -⟩⟩ :=
    h.split hds
  · have hmem : m ∈ moves (before ++ .does m :: after) := by
      rw [moves_append]
      exact List.mem_append_right _ List.mem_cons_self
    have htends := hdoes.tends m hmem
    refine ⟨World.past_of_tends s w htends, ?_⟩
    have hw : w = World.run s ⟨r₁.console, []⟩ (moves before) := by
      have hled : World.run s ⟨c₀, []⟩ (moves ds₁) = ⟨r₁.console, []⟩ := hbefore.led.2
      rw [← hled, ← World.run_append, ← moves_append]
    rcases World.call_of_tends htends with hnone | ⟨path, rfl⟩
    · exact .inl hnone
    · rw [hw, ← hdoes.view]
      exact .inr rfl
  · cases hd

theorem Chronicle.switches (h : Chronicle p s (p.activity.begin c₀) es ds r)
    {pre post : List Deed} (hds : ds = pre ++ .does (.toggle i true) :: post) :
    p.enable = true ∧ pre.countP Deed.isView = 1 := by
  obtain ⟨es₁, ds₁, r₁, hbefore, ⟨before, after, stage', rfl, hdoes⟩ | ⟨_, _, _, hd, -⟩⟩ :=
    h.split hds
  · have hpos : 0 < (before ++ .does (.toggle i true) :: after).countP Deed.switchesOn :=
      List.countP_pos_iff.2 ⟨_, List.mem_append_right _ List.mem_cons_self, rfl⟩
    obtain ⟨due, result, location, position, signal, hstage, hviews⟩ := hdoes.switches hpos
    have hcounted := hbefore.counted
    rw [hstage] at hcounted
    obtain ⟨henable, hone, -⟩ := hcounted.2.2 rfl
    rw [List.countP_append] at hviews ⊢
    exact ⟨henable, by omega⟩
  · cases hd

theorem Does.own (h : Does p s c stage new stage') (m : Move) : .beside m ∉ new := by
  intro hmem
  cases h with
  | on =>
    obtain ⟨_, -, hdoes⟩ := List.mem_map.1 hmem
    cases hdoes
  | off =>
    obtain ⟨_, -, hdoes⟩ := List.mem_map.1 hmem
    cases hdoes
  | _ => simp at hmem

theorem Chronicle.outside (h : Chronicle p s start es ds r) (hmem : .beside m ∈ ds) :
    m.Outside := by
  obtain ⟨pre, post, hds⟩ := List.append_of_mem hmem
  obtain ⟨_, _, _, -, ⟨before, after, _, -, hdoes⟩ | ⟨_, _, -, hm, hother⟩⟩ := h.split hds
  · exact absurd (List.mem_append_right before List.mem_cons_self) (hdoes.own m)
  · cases hm
    cases hother with
    | other ready hready hwaits hm ha => exact hm

theorem Chronicle.orderly (h : Chronicle p s (p.activity.begin c₀) es ds r) (ht : c₀.Tidy) :
    Orderly p s c₀ ds r := by
  have hled := h.led
  constructor
  case led => exact hled
  case aside => exact fun pre m post => h.aside
  case timed => exact fun pre m post _ => World.past_of_reload s _
  case switches =>
    refine ⟨?_, fun pre i post => h.switches⟩
    have hcounted := h.counted
    cases hstage : r.stage with
    | start =>
      rw [hstage] at hcounted
      exact Nat.le_trans (Nat.le_of_eq hcounted.2.2) (Nat.zero_le 1)
    | loading due result location enable position signal =>
      rw [hstage] at hcounted
      exact hcounted.2.1
    | _ =>
      rw [hstage] at hcounted
      exact hcounted.2
  case views =>
    intro hbegun
    have hcounted := h.counted
    cases hstage : r.stage with
    | start => exact absurd hstage hbegun
    | _ =>
      rw [hstage] at hcounted
      exact hcounted.1
  case called =>
    have hviews := World.views_run hled.1
    rw [hled.2, countP_view fun m => h.outside] at hviews
    exact hviews
  case one =>
    intro j hj k hk hjr hkr hja hka
    obtain ⟨i, position, signal, hstage, hjh⟩ := hja.live h ht hj hjr rfl
    obtain ⟨i', position', signal', hstage', hkh⟩ := hka.live h ht hk hkr rfl
    obtain ⟨rfl, -, -⟩ := WatchStage.waiting.inj (hstage.symm.trans hstage')
    exact (h.tidy ht).ordered.eq_of_id_eq hj hk (hjh.unique hkh)
  case live =>
    intro j hj hreload harms
    obtain ⟨i, position, signal, hstage, -⟩ := harms.live h ht hj hreload rfl
    exact ⟨i, position, signal, hstage⟩
  case done =>
    intro ending hended es' ds' r' h' id due hmem harms
    obtain ⟨pre, post, hds⟩ := List.append_of_mem hmem
    obtain ⟨es₁, ds₁, r₁, hto, ⟨before, after, stage', -, hdoes⟩ | ⟨m, r₂, -, hm, hother⟩⟩ :=
      h'.split hds
    · rw [hto.ended hended] at hdoes
      cases hdoes
    · cases hm
      cases hother with
      | other ready hready hwaits hm ha =>
        obtain ⟨i, position, signal, hstage, -⟩ :=
          (harms.append ds₁).live (h.append hto) ht ha.1 rfl rfl
        rw [hto.ended hended] at hstage
        cases hstage

/-- The law of every run of a command that watches. -/
structure Watches (p : Watch) (s : Server) (c₀ : Console) : Prop where
  /-- Whatever happens beside the command, in whatever order. -/
  any : ∀ es r, Goes p.activity s (p.activity.begin c₀) es r →
    ∃ ds, Chronicle p s (p.activity.begin c₀) es ds r ∧ Orderly p s c₀ ds r
  /-- The order of the program is one of these. -/
  own : ∀ limit n, ∃ es, Goes p.activity s (p.activity.begin c₀) es
    (p.activity.steps s limit n (p.activity.begin c₀))

/-- A command that watches is orderly, whatever happens on a tidy console beside it. -/
theorem watches_of_tidy (ht : c₀.Tidy) (p : Watch) (s : Server) : Watches p s c₀ := by
  constructor
  case any =>
    intro es r hgoes
    obtain ⟨ds, hchronicle⟩ := exists_chronicle hgoes
    exact ⟨ds, hchronicle, hchronicle.orderly ht⟩
  case own => exact fun limit n => goes_steps (keepsTidy p s) limit n ht

/-- A console whose page somebody leaves between two reloads. -/
def departing : Console :=
  (Console.ofPage World.consolePage).schedule 2500 (.act [.navigate "/away"])

theorem watches_of_tidy_departing :
    let p : Watch := { interval := 1000, enable := true }
    let r := p.activity.run World.entitling 5000 departing
    p.activity.ending? r.stage = some (.ok .done) ∧ r.console.calls.map (·.time) = [0, 1000, 2000] ∧
      Watches p World.entitling departing := by
  intro p r
  have ht : departing.Tidy := (Console.tidy_ofPage World.consolePage).schedule 2500 nofun nofun
  exact ⟨by decide +kernel, by decide +kernel, watches_of_tidy ht p World.entitling⟩

end Watch

end Cli

end ClusterConsole
