import ClusterConsole.Proofs.Cli.Departing

/-! What the control of a page shows while a command watches it and nobody else acts on it. A
controller that takes auto-reload over from the page checks the control. One that is switched
leaves it as it is, so that the control does not follow the command: it stays unchecked when the
command has switched auto-reload on, and checked when the signal has switched it off. -/

namespace ClusterConsole.Cli.Watch

/-! ### The control -/

/-- The control says what the state of a controller is. -/
def Agrees (c : Console) (i : Nat) : Prop := c.page.checked = true ↔ c.reloadState i = .on

/-- The page, which was opened at `u`, had the fragment when its view was loaded last: from the
start, or since the command has waited for it once. -/
def Restored (u : Url) (c : Console) : Prop := u.isOn = true ∨ 2 ≤ c.views

/-- A view is loaded, the first one or another. -/
structure Loads (p : Watch) (u : Url) (c : Console) (enable : Bool) (position : Nat) : Prop where
  checked : c.page.checked = false
  position_le : position ≤ c.page.feed.sent.length
  silent : c.page.feed.Silent position
  views : c.views = 1 ∧ enable = p.enable ∧ c.page.location = u ∨
    2 ≤ c.views ∧ enable = false ∧ c.page.location.isOn = true

/-- The timer has gone off, and the command is still to see it. -/
structure Reloaded (c : Console) (position : Nat) : Prop where
  jobs : c.agenda.jobs = []
  checked : c.page.checked = false
  finds : ∃ i, c.page.feed.Finds position i .reloaded ∧ i + 1 = c.page.feed.sent.length

/-- The controller waits for its timer, or that has gone off. -/
structure Waits (u : Url) (c : Console) (i position : Nat) : Prop where
  state : c.reloadState i = .on
  on : c.page.location.isOn = true
  views : 1 ≤ c.views
  position_le : position ≤ c.page.feed.sent.length
  shown : c.page.feed.Silent position ∧ (c.page.checked = true ↔ Restored u c) ∨
    Reloaded c position

/-- What is behind a stage. -/
def Facts (p : Watch) (u : Url) (c : Console) : WatchStage → Prop
  | .start => c = .ofPage (.at u)
  | .loading _ _ _ enable position _ => Loads p u c enable position
  | .waiting i position _ => Waits u c i position
  | .ended _ => True

variable {p : Watch} {s : Server} {u : Url} {c : Console} {stage stage' : WatchStage}
  {new : List Deed} {r r' : Run WatchStage} {m : Move} {i position : Nat} {signal : Option Nat}

/-! ### Turns -/

theorem openController_calls (p : Watch) (c : Console) (enable : Bool) :
    (p.openController c enable).calls = c.calls := by
  have hopened : ((c.addController p.interval).pageLoaded c.controllers.length).calls = c.calls :=
    Console.pageLoaded_calls _ _
  unfold openController
  simp only
  split
  · rw [Console.toggle_calls, hopened]
  · exact hopened

/-- A controller that is dropped says what it said before. -/
theorem reloadState_disarm (c : Console) (i k : Nat) :
    (c.disarm i).reloadState k = c.reloadState k := by
  cases hk : c.controllers[i]? with
  | none => rw [Console.disarm_of_none hk]
  | some controller =>
    rw [Console.disarm_of_some hk]
    unfold Console.reloadState
    simp only [List.getElem?_set]
    split
    · next heq =>
      obtain ⟨hlt, hcontroller⟩ := List.getElem?_eq_some_iff.1 hk
      subst heq
      simp [hlt, hcontroller]
    · rfl

theorem views_openController (p : Watch) (c : Console) (enable : Bool) :
    (p.openController c enable).views = c.views :=
  congrArg (List.countP _) (openController_calls p c enable)

theorem page_switchOn (page : Page) : page.replace (switchTarget true) = { page with
    location := page.location.switched true
    feed := page.feed.send (.replaced (page.location.switched true)) } := by
  have hjoin : page.location.join (switchTarget true) = .ok (page.location.switched true) := by
    rw [Url.switched_true]
    exact Url.join_autoReload page.location
  unfold Page.replace
  rw [hjoin]

/-- A page with the fragment has its control checked. -/
theorem Loads.restored {enable : Bool} (h : Loads p u c enable position)
    (hon : c.page.location.isOn = true) :
    Waits u (p.openController c enable) c.controllers.length position := by
  have hviews := views_openController p c enable
  have hpage : (p.openController c enable).page = c.page.setChecked true := by
    rw [openController_page, if_pos hon]
  have hrestored : Restored u (p.openController c enable) := by
    unfold Restored
    rw [hviews]
    rcases h.views with ⟨-, -, hu⟩ | ⟨htwo, -⟩
    · exact .inl (hu ▸ hon)
    · exact .inr htwo
  constructor
  case state => rw [reloadState_openController, hon, Bool.or_true, if_pos rfl]
  case on =>
    rw [hpage]
    exact hon
  case views =>
    rw [hviews]
    rcases h.views with ⟨hone, -⟩ | ⟨htwo, -⟩
    · exact Nat.le_of_eq hone.symm
    · exact Nat.le_of_succ_le htwo
  case position_le =>
    rw [hpage]
    exact h.position_le
  case shown =>
    rw [hpage]
    exact .inl ⟨h.silent, iff_of_true rfl hrestored⟩

/-- On another page auto-reload is switched on, which leaves the control as it is. -/
theorem Loads.switchedOn (h : Loads p u c true position) (hoff : c.page.location.isOn = false) :
    Waits u (p.openController c true) c.controllers.length position := by
  have hviews := views_openController p c true
  obtain ⟨hone, -, hu⟩ := h.views.resolve_right fun ⟨_, hno, _⟩ => by cases hno
  have hpage : (p.openController c true).page = { c.page with
      location := c.page.location.switched true
      feed := c.page.feed.send (.replaced (c.page.location.switched true)) } := by
    rw [openController_page, hoff, if_neg (by decide), if_pos rfl, page_switchOn]
  have hnot : ¬ Restored u (p.openController c true) := by
    unfold Restored
    rw [hviews, hone, ← hu, hoff]
    decide
  constructor
  case state => rw [reloadState_openController, Bool.true_or, if_pos rfl]
  case on =>
    rw [hpage]
    exact Url.isOn_switched_true _
  case views =>
    rw [hviews]
    exact Nat.le_of_eq hone.symm
  case position_le =>
    rw [hpage]
    exact Nat.le_trans h.position_le (Feed.grows_send _ _).length_le
  case shown =>
    rw [hpage]
    refine .inl ⟨h.silent.send_replaced _, iff_of_false ?_ hnot⟩
    rw [h.checked]
    decide

/-- After a reload the view is loaded again. -/
theorem Reloaded.loads (h : Reloaded c position) (hon : c.page.location.isOn = true)
    (hviews : 1 ≤ c.views) {j : Nat} (hfinds : c.page.feed.Finds position j .reloaded) (i : Nat)
    (path : String) : Loads p u ((c.dropController i).record (.view path)) false (j + 1) := by
  have hpage : ((c.dropController i).record (.view path)).page = c.page := Console.disarm_page c i
  have hcalls : ((c.dropController i).record (.view path)).calls =
      c.calls ++ [⟨(c.dropController i).now, .view path⟩] :=
    congrArg (· ++ _) (Console.disarm_calls c i)
  have hmore : ((c.dropController i).record (.view path)).views = c.views + 1 := by
    rw [Console.views, hcalls, List.countP_append]
    rfl
  obtain ⟨k, hk, hlast⟩ := h.finds
  obtain rfl : j = k := by
    have hsame := (Feed.nextLoad_of_finds hfinds).symm.trans (Feed.nextLoad_of_finds hk)
    exact Nat.succ.inj (congrArg Prod.snd hsame)
  constructor
  case checked =>
    rw [hpage]
    exact h.checked
  case position_le =>
    rw [hpage]
    exact Nat.le_of_eq hlast
  case silent =>
    rw [hpage, hlast]
    exact Feed.silent_subscribe _
  case views =>
    rw [hpage, hmore]
    exact .inr ⟨Nat.succ_le_succ hviews, rfl, hon⟩

theorem Facts.turn (h : Facts p u c stage) (hdoes : Does p s c stage new stage') :
    Facts p u (World.run s ⟨c, []⟩ (moves new)).console stage' := by
  cases hdoes with
  | start =>
    replace h : c = .ofPage (.at u) := h
    subst h
    exact ⟨rfl, Nat.le_refl _, Feed.silent_subscribe _, .inl ⟨rfl, rfl, rfl⟩⟩
  | @on due result location enable position signal hdue hon =>
    replace h : Loads p u c enable position := h
    rw [moves_does, run_opening]
    cases hpage : c.page.location.isOn with
    | true => exact h.restored hpage
    | false =>
      rw [hpage, Bool.or_false] at hon
      subst hon
      exact h.switchedOn hpage
  | @reloaded i position j signal v hfinds hevent =>
    replace h : Waits u c i position := h
    rcases h.shown with ⟨hsilent, -⟩ | hreloaded
    · exact absurd hfinds hsilent.not_finds
    · have hloads := hreloaded.loads (p := p) (u := u) h.on h.views hfinds i
        c.page.location.text
      exact hloads
  | _ => trivial

/-! ### The timer -/

/-- Only reloads are left to be done. -/
def OnlyReloads (c : Console) : Prop := ∀ j ∈ c.agenda.jobs, j.task = .reload

theorem keeps_tends {w : World} (ht : w.console.Tidy) (hm : m.Tends i) :
    w.console.agenda.Keeps (· ≠ .reload) (w.move s m).console.agenda := by
  match m, hm with
  | .view _, _ | .addController _, _ => exact .refl _
  | .pageLoaded _, _ => exact ht.keeps_pageLoaded (not_not_intro rfl)
  | .toggle _ checked, _ => exact ht.keeps_toggle (not_not_intro rfl) checked
  | .dropController _, _ => exact ht.keeps_disarm (not_not_intro rfl)

theorem onlyReloads_run {w : World} {ms : List Move} (h : OnlyReloads w.console)
    (ht : w.console.Tidy) (hl : World.Lawful s w ms) (hms : ∀ m ∈ ms, m.Tends i) :
    OnlyReloads (w.run s ms).console := by
  induction ms generalizing w with
  | nil => exact h
  | cons m ms ih =>
    have hkeeps := keeps_tends (s := s) ht (hms m List.mem_cons_self)
    refine ih (fun j hj => ?_) (World.tidy_move ht hl.1) hl.2
      fun x hx => hms x (List.mem_cons_of_mem m hx)
    by_contra hno
    exact hno (h j ((hkeeps.mem j hno).1 hj))

/-- A timer on the agenda is that of the controller with which the command waits. -/
theorem Kept.waiting_of_job (h : Kept 0 c stage) (ht : c.Tidy) (honly : OnlyReloads c)
    {j : Job Task} (hj : j ∈ c.agenda.jobs) :
    ∃ i position signal, stage = .waiting i position signal ∧ timers.Holds c i j.id := by
  obtain ⟨i, hi⟩ := List.mem_iff_getElem?.1 (ht.timers.mem_of_kind j hj (honly j hj))
  obtain ⟨position, signal, hstage⟩ := h.holds i j.id (Nat.zero_le i) hi
  exact ⟨i, position, signal, hstage, hi⟩

/-- There is no other. -/
theorem Kept.eq_of_jobs (h : Kept 0 c stage) (ht : c.Tidy) (honly : OnlyReloads c)
    {j k : Job Task} (hj : j ∈ c.agenda.jobs) (hk : k ∈ c.agenda.jobs) : j.id = k.id := by
  obtain ⟨i, position, signal, hstage, hold⟩ := h.waiting_of_job ht honly hj
  obtain ⟨i', position', signal', hstage', hold'⟩ := h.waiting_of_job ht honly hk
  obtain ⟨rfl, -, -⟩ := WatchStage.waiting.inj (hstage.symm.trans hstage')
  exact hold.unique hold'

/-- When the timer goes off the control is cleared. -/
theorem Waits.resume (h : Waits u c i position) (hkept : Kept 0 c stage) (ht : c.Tidy)
    (honly : OnlyReloads c) (hcapacity : 0 < c.page.feed.capacity) {j : Job Task}
    (ha : World.Allows ⟨c, []⟩ (.resume j)) :
    Waits u (World.move s ⟨c, []⟩ (.resume j)).console i position := by
  have hresume : (World.move s ⟨c, []⟩ (.resume j)).console =
      { c.cancel (some j.id) with page := c.page.reload } := by
    have hdue : c.resume s j = (c.cancel (some j.id)).perform s j.task :=
      Console.resume_of_due ha.2
    rw [honly j ha.1] at hdue
    exact hdue
  have hnone : (World.move s ⟨c, []⟩ (.resume j)).console.agenda.jobs = [] := by
    rw [hresume]
    refine List.eq_nil_iff_forall_not_mem.2 fun k hk => ?_
    obtain ⟨hkc, hne⟩ := (Console.mem_cancel c _).1 hk
    exact hne (congrArg some (hkept.eq_of_jobs ht honly hkc ha.1))
  rcases h.shown with ⟨hsilent, -⟩ | hreloaded
  · have hfinds : (c.page.feed.send (.reloaded c.page.location)).Finds position
        c.page.feed.sent.length .reloaded := hsilent.finds_send h.position_le hcapacity rfl
    rw [hresume] at hnone ⊢
    refine ⟨h.state, h.on, h.views, ?_, .inr ⟨hnone, rfl, _, hfinds, ?_⟩⟩
    · exact Nat.le_trans h.position_le (Feed.grows_send _ _).length_le
    · simp [Page.reload, Feed.send]
  · have hmem : j ∈ c.agenda.jobs := ha.1
    rw [hreloaded.jobs] at hmem
    cases hmem

/-! ### Alone with the page -/

/-- A run of the command from a page opened at `u`, with nobody beside it. -/
abbrev FromPage (p : Watch) (s : Server) (u : Url) (r : Run WatchStage) : Prop :=
  Alone p.activity s (p.activity.begin (.ofPage (.at u))) r

/-- What holds of it. -/
structure Calm (p : Watch) (u : Url) (r : Run WatchStage) : Prop where
  onlyReloads : OnlyReloads r.console
  isOpen : r.console.page.feed.closed = false
  capacity : 0 < r.console.page.feed.capacity
  facts : Facts p u r.console r.stage

theorem FromPage.tidy (h : FromPage p s u r) : r.console.Tidy :=
  Alone.tidy (keepsTidy p s) (Console.tidy_ofPage _) h

theorem FromPage.kept (h : FromPage p s u r) : Kept 0 r.console r.stage := by
  obtain ⟨es, hgoes, -⟩ := h
  obtain ⟨ds, hchronicle⟩ := exists_chronicle hgoes
  exact hchronicle.kept (Console.tidy_ofPage _)

theorem Calm.turn (h : Calm p u r) (ht : r.console.Tidy)
    (hturn : p.activity.takeTurn? s r = some r') : Calm p u r' := by
  obtain ⟨t, ht', rfl⟩ := Option.map_eq_some_iff.1 hturn
  obtain ⟨new, hdoes, hrun⟩ := performs_of_turn ht'
  have hconsole : (World.run s ⟨r.console, []⟩ (moves new)).console = t.console :=
    congrArg World.console hrun
  constructor
  case onlyReloads =>
    rw [← hconsole]
    exact onlyReloads_run (w := ⟨r.console, []⟩) h.onlyReloads ht (hdoes.lawful _) hdoes.tends
  case isOpen =>
    rw [← hconsole, World.closed_run]
    exact h.isOpen
  case capacity =>
    rw [← hconsole, (World.grows_run s ⟨r.console, []⟩ (moves new)).capacity]
    exact h.capacity
  case facts =>
    rw [← hconsole]
    exact h.facts.turn hdoes

theorem Calm.resume (h : Calm p u r) (hkept : Kept 0 r.console r.stage) (ht : r.console.Tidy)
    {j : Job Task} (ha : World.Allows ⟨r.console, []⟩ (.resume j)) (ready : Bool) :
    Calm p u { r with
      console := (World.move s ⟨r.console, []⟩ (.resume j)).console
      ready } := by
  obtain ⟨i, position, signal, hstage, -⟩ := hkept.waiting_of_job ht h.onlyReloads ha.1
  have hresume : (World.move s ⟨r.console, []⟩ (.resume j)).console =
      (r.console.cancel (some j.id)).perform s j.task := Console.resume_of_due ha.2
  have hwaits := h.facts
  rw [hstage] at hwaits
  constructor
  case onlyReloads =>
    intro k hk
    rw [hresume, h.onlyReloads j ha.1] at hk
    exact h.onlyReloads k ((Console.mem_cancel _ _).1 hk).1
  case isOpen =>
    have hclosed := World.closed_move s ⟨r.console, []⟩ (.resume j)
    exact hclosed.trans h.isOpen
  case capacity =>
    have hgrows := World.grows_move s ⟨r.console, []⟩ (.resume j)
    exact Nat.lt_of_lt_of_eq h.capacity hgrows.capacity.symm
  case facts =>
    show Facts p u _ r.stage
    rw [hstage]
    exact Waits.resume hwaits hkept ht h.onlyReloads h.capacity ha

/-- The clock is nobody's fact. -/
theorem Calm.wait (h : Calm p u r) (hbegun : r.stage ≠ .start) (time : Nat) (ready : Bool) :
    Calm p u { r with console := { r.console with now := time }, ready } := by
  refine ⟨h.onlyReloads, h.isOpen, h.capacity, ?_⟩
  have hfacts := h.facts
  cases hstage : r.stage with
  | start => exact absurd hstage hbegun
  | loading due result location enable position signal =>
    rw [hstage] at hfacts
    obtain ⟨hchecked, hle, hsilent, hviews⟩ := hfacts
    exact ⟨hchecked, hle, hsilent, hviews⟩
  | waiting i position signal =>
    rw [hstage] at hfacts
    obtain ⟨hstate, hon, hviews, hle, hshown⟩ := hfacts
    exact ⟨hstate, hon, hviews, hle, hshown.imp_right fun h => ⟨h.jobs, h.checked, h.finds⟩⟩
  | ended e => trivial

theorem FromPage.begun (h : FromPage p s u r) {m : Move}
    (he : Happens p.activity s r (.other m) r') : r.stage ≠ .start := by
  obtain ⟨es, hgoes, -⟩ := h
  obtain ⟨ds, hchronicle⟩ := exists_chronicle hgoes
  intro hstart
  obtain rfl := hchronicle.known.start hstart
  exact begin_waits he

theorem FromPage.calm (h : FromPage p s u r) : Calm p u r := by
  refine Alone.keeps h ⟨nofun, rfl, show 0 < Feed.roundUp 64 by decide, rfl⟩ ?_
  intro r r' e halone hcalm hown he
  have ht : r.console.Tidy := FromPage.tidy halone
  cases he with
  | turn hturn => exact hcalm.turn ht hturn
  | @other m ready hready hwaits hm ha =>
    have hbegun := FromPage.begun halone (.other ready hready hwaits hm ha)
    match m, hown with
    | .resume j, _ => exact hcalm.resume (FromPage.kept halone) ht ha ready
    | .wait time, _ => exact hcalm.wait hbegun time ready

/-! ### What the control shows -/

/-- The command waits on, or the timer has gone off. -/
theorem Waits.cases (h : Waits u c i position) (hopen : c.page.feed.closed = false) :
    (c.page.feed.nextLoad position).1 = .waiting ∧ (c.page.checked = true ↔ Restored u c) ∨
      (c.page.feed.nextLoad position).1 = .reloaded ∧ c.page.checked = false := by
  rcases h.shown with ⟨hsilent, hchecked⟩ | hreloaded
  · have hload := hsilent.nextLoad
    rw [hopen] at hload
    exact .inl ⟨hload, hchecked⟩
  · obtain ⟨j, hfinds, -⟩ := hreloaded.finds
    exact .inr ⟨congrArg Prod.fst (Feed.nextLoad_of_finds hfinds), hreloaded.checked⟩

/-- The control is checked while the command waits on a page that had the fragment. -/
theorem Waits.checked_iff (h : Waits u c i position) (hopen : c.page.feed.closed = false) :
    c.page.checked = true ↔
      Restored u c ∧ (c.page.feed.nextLoad position).1 = .waiting := by
  rcases h.cases hopen with ⟨hload, hchecked⟩ | ⟨hload, hchecked⟩
  · rw [hchecked, hload]
    exact (and_iff_left rfl).symm
  · rw [hchecked, hload]
    exact iff_of_false (by decide) fun h => by cases h.2

theorem lt_length_of_on (h : c.reloadState i = .on) : i < c.controllers.length := by
  by_contra hno
  rw [Console.reloadState, List.getElem?_eq_none (Nat.le_of_not_lt hno)] at h
  cases h

theorem page_switchOff (c : Console) (i : Nat) :
    ((c.toggle i false).dropController i).page.checked = c.page.checked := by
  have hpage : ((c.toggle i false).dropController i).page = c.page.replace Route.home :=
    (Console.disarm_page _ i).trans (Console.toggle_page c i false)
  rw [hpage]
  unfold Page.replace
  split <;> rfl

/-- What the control shows beside a command that watches a page opened at `u`, where nobody else
acts. -/
structure Shown (p : Watch) (s : Server) (u : Url) : Prop where
  /-- While the command waits for the next load its controller is on. The control agrees exactly if
  the page had the fragment when its view was loaded last: it does not if the command itself has
  switched auto-reload on since. -/
  waiting : ∀ r i position signal, FromPage p s u r → r.stage = .waiting i position signal →
    (r.console.page.feed.nextLoad position).1 = .waiting →
      r.console.reloadState i = .on ∧ (Agrees r.console i ↔ Restored u r.console)
  /-- The load that it waits for is a reload. That has cleared the control, which it leaves so
  until the view is there. -/
  reloaded : ∀ r i position signal, FromPage p s u r → r.stage = .waiting i position signal →
    (r.console.page.feed.nextLoad position).1 ≠ .waiting →
      (r.console.page.feed.nextLoad position).1 = .reloaded ∧ r.console.reloadState i = .on ∧
        r.console.page.checked = false
  /-- A command that does not wait at all ends with a controller that is off, and the control
  agrees. -/
  off : ∀ r r' e, FromPage p s u r → Happens p.activity s r .turn r' → r'.stage = .ended e →
    (∀ i position signal, r.stage ≠ .waiting i position signal) →
      e = .ok .done ∧ r'.console.reloadState r.console.controllers.length = .off ∧
        Agrees r'.console r.console.controllers.length
  /-- Otherwise it ends at the signal. If that switches auto-reload off, the control does not agree
  exactly if it agreed before; and if nobody can wait for the signal it is left as it was. -/
  signalled : ∀ r r' e i position signal, FromPage p s u r → Happens p.activity s r .turn r' →
    r'.stage = .ended e → r.stage = .waiting i position signal →
      r'.console.page.checked = r.console.page.checked ∧
      (r.console.page.checked = true ↔ Restored u r.console ∧
        (r.console.page.feed.nextLoad position).1 = .waiting) ∧
      (e = .ok .done ∧ r'.console.reloadState i = .off ∧
          (Agrees r'.console i ↔ ¬ Agrees r.console i) ∨
        ∃ message, e = .error (.signal message) ∧ r'.console.reloadState i = .on ∧
          (Agrees r'.console i ↔ Agrees r.console i))
  /-- Once it has ended nothing changes any more. -/
  kept : ∀ r r' e, FromPage p s u r → r.stage = .ended e → Alone p.activity s r r' →
    r'.console.page = r.console.page ∧ r'.console.controllers = r.console.controllers
  /-- The order of the program is one of those in which things may happen. -/
  own : ∀ limit n, FromPage p s u (p.activity.steps s limit n (p.activity.begin (.ofPage (.at u))))

theorem FromPage.waits (h : FromPage p s u r) (hstage : r.stage = .waiting i position signal) :
    Waits u r.console i position := by
  have hfacts := (FromPage.calm h).facts
  rwa [hstage] at hfacts

/-- A command that ends without having waited is one whose page never had the fragment. -/
theorem FromPage.off (h : FromPage p s u r) (hturn : Happens p.activity s r .turn r') {e : Ending}
    (hended : r'.stage = .ended e)
    (hnot : ∀ i position signal, r.stage ≠ .waiting i position signal) :
    e = .ok .done ∧ r'.console.reloadState r.console.controllers.length = .off ∧
      r'.console.page.checked = false := by
  have hfacts := (FromPage.calm h).facts
  obtain ⟨hturn⟩ := hturn
  obtain ⟨t, ht, rfl⟩ := Option.map_eq_some_iff.1 hturn
  obtain ⟨new, hdoes, hrun⟩ := performs_of_turn ht
  have hconsole : (World.run s ⟨r.console, []⟩ (moves new)).console = t.console :=
    congrArg World.console hrun
  rw [show t.stage = .ended e from hended] at hdoes
  generalize hstage : r.stage = stage at hdoes hfacts
  cases hdoes with
  | @off due result location position signal hdue hoff =>
    replace hfacts : Loads p u r.console false position := hfacts
    have hstate := reloadState_openController p r.console false
    have hpage := openController_page p r.console false
    rw [hoff] at hstate hpage
    rw [moves_does, World.run_append, run_opening] at hconsole
    replace hconsole : (p.openController r.console false).dropController
      r.console.controllers.length = t.console := hconsole
    refine ⟨rfl, ?_, ?_⟩
    · show t.console.reloadState _ = _
      rw [← hconsole, Console.dropController, reloadState_disarm]
      exact hstate
    · show t.console.page.checked = _
      rw [← hconsole, Console.dropController, Console.disarm_page, hpage]
      exact hfacts.checked
  | _ => exact absurd hstage (hnot _ _ _)

/-- A command that has waited ends at the signal. -/
theorem FromPage.signalled (h : FromPage p s u r) (hturn : Happens p.activity s r .turn r')
    {e : Ending} (hended : r'.stage = .ended e) (hstage : r.stage = .waiting i position signal) :
    r'.console.page.checked = r.console.page.checked ∧
      (e = .ok .done ∧ r'.console.reloadState i = .off ∨
        ∃ message, e = .error (.signal message) ∧ r'.console.reloadState i = .on) := by
  have hopen := (FromPage.calm h).isOpen
  have hwaits := FromPage.waits h hstage
  obtain ⟨hturn⟩ := hturn
  obtain ⟨t, ht, rfl⟩ := Option.map_eq_some_iff.1 hturn
  obtain ⟨new, hdoes, hrun⟩ := performs_of_turn ht
  have hconsole : (World.run s ⟨r.console, []⟩ (moves new)).console = t.console :=
    congrArg World.console hrun
  rw [show t.stage = .ended e from hended, hstage] at hdoes
  show t.console.page.checked = _ ∧ (_ ∧ t.console.reloadState i = _ ∨
    ∃ _, _ ∧ t.console.reloadState i = _)
  rw [← hconsole]
  cases hdoes with
  | navigated hfinds hevent =>
    have hload := congrArg Prod.fst (Feed.nextLoad_of_finds hfinds)
    rcases hwaits.cases hopen with ⟨hwaiting, -⟩ | ⟨hreloaded, -⟩
    · rw [hwaiting] at hload
      cases hload
    · rw [hreloaded] at hload
      cases hload
  | closed hclosed =>
    rcases hwaits.cases hopen with ⟨hwaiting, -⟩ | ⟨hreloaded, -⟩
    · rw [hwaiting] at hclosed
      cases hclosed
    · rw [hreloaded] at hclosed
      cases hclosed
  | stopped htime =>
    refine ⟨page_switchOff r.console i, .inl ⟨rfl, ?_⟩⟩
    have hstate := Console.reloadState_toggle r.console i (lt_length_of_on hwaits.state) false
    exact (reloadState_disarm (r.console.toggle i false) i i).trans hstate
  | failed htime message =>
    have hpage : (r.console.dropController i).page = r.console.page := Console.disarm_page _ i
    refine ⟨congrArg Page.checked hpage, .inr ⟨message, rfl, ?_⟩⟩
    exact (reloadState_disarm r.console i i).trans hwaits.state

/-- The command has ended, and nothing has changed since the run `start`. -/
structure Rests (e : Ending) (start r : Run WatchStage) : Prop where
  stage : r.stage = .ended e
  agenda : r.console.agenda = start.console.agenda
  page : r.console.page = start.console.page
  controllers : r.console.controllers = start.console.controllers

theorem Rests.step {start : Run WatchStage} {e : Ending} {event : Event} (h : Rests e start r)
    (hnone : ∀ j, j ∉ start.console.agenda.jobs) (hown : event.Own)
    (he : Happens p.activity s r event r') : Rests e start r' := by
  cases he with
  | turn hturn =>
    obtain ⟨t, ht, -⟩ := Option.map_eq_some_iff.1 hturn
    rw [h.stage] at ht
    cases ht
  | @other m ready hready hwaits hm ha =>
    match m, hown with
    | .wait time, _ => exact ⟨h.stage, h.agenda, h.page, h.controllers⟩
    | .resume j, _ =>
      have hmem : j ∈ r.console.agenda.jobs := ha.1
      rw [h.agenda] at hmem
      exact absurd hmem (hnone j)

theorem FromPage.rests (h : FromPage p s u r) {e : Ending} (hended : r.stage = .ended e)
    (hlater : Alone p.activity s r r') : Rests e r r' := by
  have hnone : ∀ j, j ∉ r.console.agenda.jobs := by
    intro j hj
    obtain ⟨i, position, signal, hstage, -⟩ := (FromPage.kept h).waiting_of_job
      (FromPage.tidy h) (FromPage.calm h).onlyReloads hj
    rw [hended] at hstage
    cases hstage
  exact Alone.keeps hlater ⟨hended, rfl, rfl, rfl⟩
    fun _ _ _ _ hrests hown he => hrests.step hnone hown he

/-- The control follows a controller that takes auto-reload over from the page, and no other. -/
theorem shown_of_opened (p : Watch) (s : Server) (u : Url) : Shown p s u := by
  constructor
  case waiting =>
    intro r i position signal h hstage hload
    have hwaits := FromPage.waits h hstage
    have hchecked := hwaits.checked_iff (FromPage.calm h).isOpen
    unfold Agrees
    rw [hchecked, hwaits.state, hload]
    simp
  case reloaded =>
    intro r i position signal h hstage hload
    have hwaits := FromPage.waits h hstage
    obtain ⟨hwaiting, -⟩ | ⟨hreloaded, hchecked⟩ := hwaits.cases (FromPage.calm h).isOpen
    · exact absurd hwaiting hload
    · exact ⟨hreloaded, hwaits.state, hchecked⟩
  case off =>
    intro r r' e h hturn hended hnot
    obtain ⟨he, hstate, hchecked⟩ := FromPage.off h hturn hended hnot
    refine ⟨he, hstate, ?_⟩
    unfold Agrees
    rw [hstate, hchecked]
    decide
  case signalled =>
    intro r r' e i position signal h hturn hended hstage
    have hwaits := FromPage.waits h hstage
    obtain ⟨hpage, hcases⟩ := FromPage.signalled h hturn hended hstage
    refine ⟨hpage, hwaits.checked_iff (FromPage.calm h).isOpen, ?_⟩
    unfold Agrees
    rw [hpage, hwaits.state]
    refine hcases.imp ?_ ?_
    · rintro ⟨he, hoff⟩
      refine ⟨he, hoff, ?_⟩
      rw [hoff]
      simp
    · rintro ⟨message, he, hon⟩
      refine ⟨message, he, hon, ?_⟩
      rw [hon]
  case kept =>
    intro r r' e h hended hlater
    have hrests := FromPage.rests h hended hlater
    exact ⟨hrests.page, hrests.controllers⟩
  case own => exact fun limit n => alone_steps (keepsTidy p s) limit n (Console.tidy_ofPage _)

/-- A page on which the command switches auto-reload on does not show that it is on. -/
example :
    let p : Watch := { interval := 30000, enable := true }
    let c := (p.activity.steps World.entitling 10000 9
      (p.activity.begin (.ofPage World.consolePage))).console
    c.reloadState 0 = .on ∧ c.page.checked = false := by
  decide +kernel

end ClusterConsole.Cli.Watch
