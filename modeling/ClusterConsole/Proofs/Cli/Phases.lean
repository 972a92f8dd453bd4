import ClusterConsole.Proofs.Cli.Control
import ClusterConsole.Proofs.Cli.Homing
import ClusterConsole.Proofs.Cli.Steps

/-! The phases of a command that watches a page on which nobody else acts, and that no signal stops.
A view is loaded; when it is there the timer is set; when that goes off the page is reloaded, and
the next view is asked for at once. Each phase says where the page, the clock, the calls and the
agenda are, and from each there is one step to the next, if its time comes before the limit. -/

namespace ClusterConsole

/-! ### Timers -/

namespace Console

variable {c : Console} {i : Nat}

theorem jobs_disarm (h : c.agenda.jobs = []) : (c.disarm i).agenda.jobs = [] := by
  cases hk : c.controllers[i]? with
  | none => rwa [disarm_of_none hk]
  | some k =>
    rw [disarm_of_some hk]
    refine List.eq_nil_iff_forall_not_mem.2 fun j hj => ?_
    have hmem := ((mem_cancel c k.timer).1 hj).1
    rw [h] at hmem
    cases hmem

/-- A timer that is set on an empty agenda is all that is there. -/
theorem jobs_arm {k : Controller} (hk : c.controllers[i]? = some k) (htimer : k.timer = none)
    (h : c.agenda.jobs = []) :
    (c.arm i).agenda.jobs = [⟨c.agenda.nextId, c.after k.interval, .reload⟩] := by
  rw [arm_of_some hk, htimer]
  show Agenda.insert _ c.agenda.jobs = _
  rw [h]
  rfl

theorem pageLoaded_agenda (c : Console) (i : Nat) :
    (c.pageLoaded i).agenda = if c.page.location.isOn then (c.arm i).agenda else c.agenda := by
  have hon : c.page.fragment = some autoReloadFragment ↔ c.page.location.isOn = true :=
    decide_eq_true_iff.symm
  unfold pageLoaded
  rw [← if_congr hon rfl rfl]
  split <;> rfl

end Console

namespace Cli.Watch

variable {p : Watch} {s : Server} {u : Url} {c : Console} {enable : Bool} {limit k : Nat}
  {r r' : Run WatchStage}

/-- A new controller sets its timer as soon as it is on. -/
theorem jobs_openController (h : c.agenda.jobs = [])
    (hon : (enable || c.page.location.isOn) = true) :
    (p.openController c enable).agenda.jobs =
      [⟨c.agenda.nextId, c.after p.interval, .reload⟩] := by
  have hadded : (c.addController p.interval).controllers[c.controllers.length]? =
      some { interval := p.interval } := List.getElem?_concat_length
  have hstate := reloadState_opened c p.interval
  have hloaded := Console.pageLoaded_agenda (c.addController p.interval) c.controllers.length
  rw [show (c.addController p.interval).page = c.page from rfl] at hloaded
  unfold openController
  simp only
  rw [hstate]
  cases hpage : c.page.location.isOn with
  | true =>
    rw [hpage, if_pos rfl] at hloaded
    simp only [if_true, reduceCtorEq, and_false, if_false]
    rw [hloaded, Console.jobs_arm hadded rfl h]
    rfl
  | false =>
    rw [hpage, Bool.or_false] at hon
    subst hon
    have hsame : (c.addController p.interval).pageLoaded c.controllers.length =
        c.addController p.interval := by
      have hfragment : ¬ (c.addController p.interval).page.fragment = some autoReloadFragment :=
        decide_eq_false_iff_not.1 hpage
      rw [Console.pageLoaded, if_neg hfragment]
    simp only [Bool.false_eq_true, if_false, and_self, if_true]
    let opened : Console := { c.addController p.interval with
      page := c.page.replace (switchTarget true) }
    have htoggle : ((c.addController p.interval).toggle c.controllers.length true).agenda =
        (opened.arm c.controllers.length).agenda := rfl
    have hsame' : opened.controllers[c.controllers.length]? = some { interval := p.interval } :=
      hadded
    rw [hsame, htoggle, Console.jobs_arm hsame' rfl h]
    rfl

/-- A location with the fragment is where auto-reload takes it. -/
theorem switched_of_isOn (h : u.isOn = true) : u.switched true = u := by
  have htext : u.fragmentText = some autoReloadFragment := decide_eq_true_iff.1 h
  obtain ⟨fragment, hfragment, hof⟩ := Option.map_eq_some_iff.1 htext
  have hlist : autoReloadFragment.toList = fragment := by rw [← hof, String.toList_ofList]
  rw [Url.switched_true, hlist, ← hfragment]

/-- A controller that is on leaves the page at its location with the fragment. -/
theorem page_opened (p : Watch) (hon : (enable || c.page.location.isOn) = true) :
    let page := (p.openController c enable).page
    page.location = c.page.location.switched true ∧ page.past = c.page.past ∧
      page.reloads = c.page.reloads := by
  intro page
  have hpage : page = _ := openController_page p c enable
  cases hlocation : c.page.location.isOn with
  | true =>
    rw [hpage, hlocation, if_pos rfl]
    exact ⟨(switched_of_isOn hlocation).symm, rfl, rfl⟩
  | false =>
    rw [hlocation, Bool.or_false] at hon
    rw [hpage, hlocation, if_neg (by decide), if_pos hon, page_switchOn]
    exact ⟨rfl, rfl, rfl⟩

/-- With auto-reload on the command waits once the view is there. -/
theorem loaded_on (hp : p.shutdown = none) (hon : (enable || c.page.location.isOn) = true)
    (result : Except String View) (location : Url) (position : Nat) :
    let t := p.loaded c result location enable position none
    t.console = p.openController c enable ∧
      t.stage = .waiting c.controllers.length position none := by
  have hstate := reloadState_openController p c enable
  rw [hon, if_pos rfl] at hstate
  unfold loaded
  simp only
  rw [hstate, hp]
  exact ⟨rfl, rfl⟩

/-- With auto-reload off it ends, and its controller is dropped. -/
theorem loaded_off (p : Watch) (hoff : c.page.location.isOn = false)
    (result : Except String View) (location : Url) (position : Nat) :
    let t := p.loaded c result location false position none
    t.console = (c.addController p.interval).dropController c.controllers.length ∧
      t.stage = .ended (.ok .done) := by
  have hfragment : ¬ (c.addController p.interval).page.fragment = some autoReloadFragment :=
    decide_eq_false_iff_not.1 hoff
  have hopened : p.openController c false = c.addController p.interval := by
    unfold openController Console.pageLoaded
    simp [hfragment]
  have hstate := reloadState_openController p c false
  rw [hoff, if_neg (by decide)] at hstate
  unfold loaded
  simp only
  rw [hstate, hopened]
  exact ⟨rfl, rfl⟩

/-! ### The plan -/

/-- Where the page is at a load: at first where it was opened, and then at the same place with the
fragment. The first load has the number `0`. -/
def place (u : Url) : Nat → Url
  | 0 => u
  | _ + 1 => { u with fragment := some autoReloadFragment.toList }

/-- The calls before a load, and the moment at which it begins, if a wait for some time takes as
long as `wait` says. -/
def plan (p : Watch) (s : Server) (u : Url) (wait : Nat → Nat) : Nat → List CallRecord × Nat
  | 0 => ([], 0)
  | k + 1 =>
    let (calls, moment) := plan p s u wait k
    let answer := s.view calls (place u k).text
    (calls ++ [⟨moment, .view (place u k).text⟩], moment + wait answer.delay + wait p.interval)

def calls (p : Watch) (s : Server) (u : Url) (wait : Nat → Nat) (k : Nat) : List CallRecord :=
  (plan p s u wait k).1

def moment (p : Watch) (s : Server) (u : Url) (wait : Nat → Nat) (k : Nat) : Nat :=
  (plan p s u wait k).2

/-- The answer to a load, which may depend on those before. -/
def answer (p : Watch) (s : Server) (u : Url) (wait : Nat → Nat) (k : Nat) : Answer View :=
  s.view (p.calls s u wait k) (place u k).text

/-- The moment at which the answer to a load is there. -/
def due (p : Watch) (s : Server) (u : Url) (wait : Nat → Nat) (k : Nat) : Nat :=
  p.moment s u wait k + wait (p.answer s u wait k).delay

section Plan

variable {wait : Nat → Nat}

theorem calls_succ : p.calls s u wait (k + 1) =
    p.calls s u wait k ++ [⟨p.moment s u wait k, .view (place u k).text⟩] := rfl

theorem moment_succ : p.moment s u wait (k + 1) = p.due s u wait k + wait p.interval := rfl

theorem moment_le_due : p.moment s u wait k ≤ p.due s u wait k := Nat.le_add_right _ _

theorem due_le_moment : p.due s u wait k ≤ p.moment s u wait (k + 1) := Nat.le_add_right _ _

theorem moment_mono {i : Nat} (h : i ≤ k) : p.moment s u wait i ≤ p.moment s u wait k := by
  induction h with
  | refl => exact Nat.le_refl _
  | step _ ih => exact ih.trans (moment_le_due.trans due_le_moment)

theorem moment_eq_sum (k : Nat) : p.moment s u wait k =
    ((List.range k).map fun i => wait (p.answer s u wait i).delay + wait p.interval).foldl
      (· + ·) 0 := by
  induction k with
  | zero => rfl
  | succ k ih =>
    rw [List.range_succ, List.map_append, List.foldl_append, ← ih, moment_succ, due, Nat.add_assoc]
    rfl

theorem calls_eq_map (k : Nat) : p.calls s u wait k =
    (List.range k).map fun i => ⟨p.moment s u wait i, .view (place u i).text⟩ := by
  induction k with
  | zero => rfl
  | succ k ih =>
    rw [calls_succ, ih, List.range_succ, List.map_append]
    rfl

/-- A round takes a millisecond at least if the interval does. -/
theorem le_moment (h : 0 < wait p.interval) (k : Nat) : k ≤ p.moment s u wait k := by
  induction k with
  | zero => exact Nat.zero_le _
  | succ k ih =>
    rw [moment_succ, due]
    omega

theorem calls_prefix {i : Nat} (h : i ≤ k) : p.calls s u wait i <+: p.calls s u wait k := by
  induction h with
  | refl => exact List.prefix_refl _
  | step _ ih => exact ih.trans (List.prefix_append _ _)

end Plan

theorem place_succ (u : Url) (k : Nat) : place u (k + 1) = (place u k).switched true := by
  rw [Url.switched_true]
  cases k <;> rfl

theorem isOn_place_succ (u : Url) (k : Nat) : (place u (k + 1)).isOn = true := by
  rw [place_succ]
  exact Url.isOn_switched_true _

/-! ### Phases -/

/-- How long a wait takes. -/
def waited (delay : Nat) : Nat := min delay Console.longestWait

/-- The command has made its calls up to a load, and has left nothing behind on the page. -/
structure Stands (p : Watch) (s : Server) (u : Url) (k : Nat) (r : Run WatchStage) : Prop where
  own : FromPage p s u r
  calls : r.console.calls = p.calls s u waited (k + 1)
  past : r.console.page.past = []

/-- The view is to come. -/
structure Loading (p : Watch) (s : Server) (u : Url) (k : Nat) (r : Run WatchStage) : Prop extends
    Stands p s u k r where
  stage : ∃ enable position, (k = 0 → enable = p.enable) ∧
    r.stage = .loading (p.due s u waited k) (p.answer s u waited k).result (place u k) enable
      position none
  location : r.console.page.location = place u k
  reloads : r.console.page.reloads = k
  jobs : r.console.agenda.jobs = []
  now_le : r.console.now ≤ p.due s u waited k

/-- The view was there, and the timer is set. -/
structure Waiting (p : Watch) (s : Server) (u : Url) (k : Nat) (r : Run WatchStage) : Prop extends
    Stands p s u k r where
  stage : ∃ i position, r.stage = .waiting i position none
  location : r.console.page.location = place u (k + 1)
  reloads : r.console.page.reloads = k
  jobs : ∃ id, r.console.agenda.jobs = [⟨id, p.moment s u waited (k + 1), .reload⟩]
  now : r.console.now = p.due s u waited k

/-- The timer has gone off, and the command is still to see it. -/
structure Fired (p : Watch) (s : Server) (u : Url) (k : Nat) (r : Run WatchStage) : Prop extends
    Stands p s u k r where
  stage : ∃ i position, r.stage = .waiting i position none ∧
    ∃ j, r.console.page.feed.Finds position j .reloaded
  location : r.console.page.location = place u (k + 1)
  reloads : r.console.page.reloads = k + 1
  jobs : r.console.agenda.jobs = []
  now : r.console.now = p.moment s u waited (k + 1)

theorem FromPage.next (h : FromPage p s u r) (hnext : p.activity.next? s limit r = some r') :
    FromPage p s u r' :=
  Alone.trans h (alone_next (FromPage.tidy h) hnext)

/-- The command asks for the view at once. -/
theorem exists_first (p : Watch) (s : Server) (u : Url) (limit : Nat) : ∃ r,
    p.activity.next? s limit (p.activity.begin (.ofPage (.at u))) = some r ∧
      Loading p s u 0 r ∧ r.console.now = p.moment s u waited 0 ∧ r.console.page = .at u := by
  have hturn : p.turn? s (Console.ofPage (.at u)) .start =
      some (load s (.ofPage (.at u)) p.enable (Page.at u).feed.subscribe none) := rfl
  obtain ⟨r, htake, hconsole, hstage, -⟩ := Activity.takeTurn?_of_turn (a := p.activity)
    (r := p.activity.begin (.ofPage (.at u))) hturn
  have hnext : p.activity.next? s limit (p.activity.begin (.ofPage (.at u))) = some r :=
    Activity.next?_of_turn rfl (.inl rfl) htake
  refine ⟨r, hnext, ?_, by rw [hconsole]; rfl, by rw [hconsole]; rfl⟩
  constructor
  case toStands => exact ⟨FromPage.next (Alone.refl _) hnext, by rw [hconsole]; rfl,
    by rw [hconsole]; rfl⟩
  case stage => exact ⟨_, _, fun _ => rfl, hstage⟩
  case location => rw [hconsole]; rfl
  case reloads => rw [hconsole]; rfl
  case jobs => rw [hconsole]; rfl
  case now_le => rw [hconsole]; exact Nat.zero_le _

section Loading

variable (h : Loading p s u k r)

include h

theorem Loading.ending : p.activity.ending? r.stage = none := by
  obtain ⟨enable, position, -, hstage⟩ := h.stage
  rw [hstage]
  rfl

theorem Loading.waits (hlt : r.console.now < p.due s u waited k) :
    p.activity.takeTurn? s r = none := by
  obtain ⟨enable, position, -, hstage⟩ := h.stage
  apply Activity.takeTurn?_of_waits
  rw [hstage]
  exact if_neg (Nat.not_le_of_lt hlt)

/-- The clock goes to the moment at which the answer is there. -/
theorem Loading.wake (hlt : r.console.now < p.due s u waited k)
    (hlimit : p.due s u waited k ≤ limit) : ∃ r', p.activity.next? s limit r = some r' ∧
      Loading p s u k r' ∧ r'.console.now = p.due s u waited k ∧
        r'.console.page = r.console.page := by
  obtain ⟨enable, position, henable, hstage⟩ := h.stage
  have hwake : p.activity.wake? r.stage = some (p.due s u waited k) := by
    rw [hstage]
    rfl
  have hnext := Activity.next?_of_wake h.ending (h.waits hlt) h.jobs hwake hlimit
  have hnow : max r.console.now (p.due s u waited k) = p.due s u waited k :=
    Nat.max_eq_right (Nat.le_of_lt hlt)
  refine ⟨_, hnext, ?_, hnow, rfl⟩
  exact ⟨⟨FromPage.next h.own hnext, h.calls, h.past⟩, ⟨enable, position, henable, hstage⟩,
    h.location, h.reloads, h.jobs, Nat.le_of_eq hnow⟩

/-- Before that moment nothing happens. -/
theorem Loading.stuck (hnow : r.console.now ≤ limit) (hlimit : limit < p.due s u waited k) :
    p.activity.next? s limit r = none := by
  obtain ⟨enable, position, -, hstage⟩ := h.stage
  apply Activity.next?_eq_none h.ending (h.waits (Nat.lt_of_le_of_lt hnow hlimit))
  · rw [h.jobs]
    nofun
  · exact hnow
  · rw [hstage]
    intro time hwake
    cases hwake
    exact hlimit

/-- If the controller of the first load is on, so is that of every load. -/
theorem Loading.isOn {enable : Bool} (henable : k = 0 → enable = p.enable)
    (hon : (p.enable || u.isOn) = true) : (enable || r.console.page.location.isOn) = true := by
  rw [h.location]
  cases k with
  | zero =>
    rw [henable rfl]
    exact hon
  | succ k => rw [isOn_place_succ, Bool.or_true]

/-- When the view is there it is the turn of the command. -/
theorem Loading.exists_turn (hnow : r.console.now = p.due s u waited k) :
    ∃ enable position, (k = 0 → enable = p.enable) ∧ p.turn? s r.console r.stage =
      some (p.loaded r.console (p.answer s u waited k).result (place u k) enable position
        none) := by
  obtain ⟨enable, position, henable, hstage⟩ := h.stage
  refine ⟨enable, position, henable, ?_⟩
  rw [hstage]
  exact if_pos (Nat.le_of_eq hnow.symm)

/-- With auto-reload on, the timer is set then. -/
theorem Loading.opened (hp : p.shutdown = none) (hon : (p.enable || u.isOn) = true)
    (hnow : r.console.now = p.due s u waited k) (limit : Nat) : ∃ r',
      p.activity.next? s limit r = some r' ∧ Waiting p s u k r' := by
  obtain ⟨enable, position, henable, hturn⟩ := h.exists_turn hnow
  have hcontroller := h.isOn henable hon
  obtain ⟨hopened, hwaiting⟩ :=
    loaded_on hp hcontroller (p.answer s u waited k).result (place u k) position
  obtain ⟨r', htake, hconsole, hstage, -⟩ := Activity.takeTurn?_of_turn (a := p.activity) hturn
  rw [hopened] at hconsole
  have hprompt : Prompt r := .inr (by rw [h.jobs]; nofun)
  have hnext : p.activity.next? s limit r = some r' :=
    Activity.next?_of_turn h.ending hprompt htake
  obtain ⟨hlocation, hpast, hreloads⟩ := page_opened p hcontroller
  refine ⟨r', hnext, ?_⟩
  constructor
  case toStands =>
    refine ⟨FromPage.next h.own hnext, ?_, ?_⟩
    · rw [hconsole, openController_calls, h.calls]
    · rw [hconsole, hpast, h.past]
  case stage => exact ⟨_, _, hstage.trans hwaiting⟩
  case location => rw [hconsole, hlocation, h.location, place_succ]
  case reloads => rw [hconsole, hreloads, h.reloads]
  case jobs =>
    rw [hconsole, jobs_openController h.jobs hcontroller, Console.after, hnow]
    exact ⟨_, rfl⟩
  case now => rw [hconsole, openController_now, hnow]

end Loading

/-- The command has ended with its first view. -/
structure Done (p : Watch) (s : Server) (u : Url) (r : Run WatchStage) : Prop where
  stage : r.stage = .ended (.ok .done)
  now : r.console.now = p.due s u waited 0
  calls : r.console.calls = p.calls s u waited 1
  page : r.console.page = .at u
  jobs : r.console.agenda.jobs = []

/-- With auto-reload off, the command ends as soon as the view is there. -/
theorem Loading.done (h : Loading p s u 0 r) (hpage : r.console.page = .at u)
    (hon : (p.enable || u.isOn) = false) (hnow : r.console.now = p.due s u waited 0)
    (limit : Nat) : ∃ r', p.activity.next? s limit r = some r' ∧ Done p s u r' := by
  obtain ⟨henable, hoff⟩ := Bool.or_eq_false_iff.1 hon
  obtain ⟨enable, position, hsame, hturn⟩ := h.exists_turn hnow
  have hlocation : r.console.page.location.isOn = false := by
    rw [hpage]
    exact hoff
  obtain rfl : enable = false := (hsame rfl).trans henable
  obtain ⟨hdropped, hended⟩ :=
    loaded_off p hlocation (p.answer s u waited 0).result (place u 0) position
  obtain ⟨r', htake, hconsole, hstage, -⟩ := Activity.takeTurn?_of_turn (a := p.activity) hturn
  rw [hdropped] at hconsole
  have hprompt : Prompt r := .inr (by rw [h.jobs]; nofun)
  refine ⟨r', Activity.next?_of_turn h.ending hprompt htake, ?_⟩
  constructor
  case stage => exact hstage.trans hended
  case now =>
    rw [hconsole, Console.dropController, Console.disarm_now]
    exact hnow
  case calls =>
    rw [hconsole, Console.dropController, Console.disarm_calls]
    exact h.calls
  case page =>
    rw [hconsole, Console.dropController, Console.disarm_page]
    exact hpage
  case jobs =>
    rw [hconsole]
    exact Console.jobs_disarm (c := r.console.addController p.interval) h.jobs

/-! ### Reloads -/

theorem turn?_waiting (p : Watch) (s : Server) (c : Console) (i position : Nat) :
    p.turn? s c (.waiting i position none) = look? s c i position none := by
  have hnone : p.stop? c i none = none := rfl
  unfold turn?
  simp only [hnone]
  cases look? s c i position none <;> split <;> rfl

/-- While the timer runs there is nothing to be seen on the page. -/
theorem Waiting.exists_silent (h : Waiting p s u k r) : ∃ i position,
    r.stage = .waiting i position none ∧ position ≤ r.console.page.feed.sent.length ∧
      r.console.page.feed.Silent position := by
  obtain ⟨i, position, hstage⟩ := h.stage
  obtain ⟨id, hjobs⟩ := h.jobs
  have hfacts := FromPage.waits h.own hstage
  refine ⟨i, position, hstage, hfacts.position_le, ?_⟩
  rcases hfacts.shown with ⟨hsilent, -⟩ | hreloaded
  · exact hsilent
  · have hnone := hreloaded.jobs
    rw [hjobs] at hnone
    cases hnone

theorem Waiting.waits (h : Waiting p s u k r) : p.activity.takeTurn? s r = none ∧
    p.activity.ending? r.stage = none ∧ p.activity.wake? r.stage = none := by
  obtain ⟨i, position, hstage, -, hsilent⟩ := h.exists_silent
  have hload : (r.console.page.feed.nextLoad position).1 = .waiting := by
    rw [hsilent.nextLoad, (FromPage.calm h.own).isOpen]
    rfl
  refine ⟨Activity.takeTurn?_of_waits ?_, by rw [hstage]; rfl, by rw [hstage]; rfl⟩
  rw [hstage]
  show p.turn? s r.console (.waiting i position none) = none
  rw [turn?_waiting, look?]
  split
  · rfl
  all_goals
    next heq =>
      rw [heq] at hload
      cases hload

/-- When the timer goes off the page is reloaded. -/
theorem Waiting.fired (h : Waiting p s u k r) (hlimit : p.moment s u waited (k + 1) ≤ limit) :
    ∃ r', p.activity.next? s limit r = some r' ∧ Fired p s u k r' := by
  obtain ⟨hwaits, hending, hwake⟩ := h.waits
  obtain ⟨i, position, hstage, hposition, hsilent⟩ := h.exists_silent
  obtain ⟨id, hjobs⟩ := h.jobs
  have hcapacity := (FromPage.calm h.own).capacity
  have hnext := Activity.next?_of_job hending hwaits hwake hjobs hlimit
  obtain ⟨-, hresume, hrest⟩ := Send.take_first (s := s) (FromPage.tidy h.own) hjobs
  replace hresume : r.console.resume s ⟨id, p.moment s u waited (k + 1), .reload⟩ =
      { r.console with
        now := p.moment s u waited (k + 1)
        agenda := r.console.agenda.cancel id
        page := r.console.page.reload } := hresume
  rw [hresume] at hnext
  refine ⟨_, hnext, ?_⟩
  constructor
  case toStands => exact ⟨FromPage.next h.own hnext, h.calls, h.past⟩
  case stage => exact ⟨i, position, hstage, _, hsilent.finds_send hposition hcapacity rfl⟩
  case location => exact h.location
  case reloads => exact congrArg (· + 1) h.reloads
  case jobs => exact hrest
  case now => rfl

/-- Until then nothing happens. -/
theorem Waiting.stuck (h : Waiting p s u k r) (hnow : r.console.now ≤ limit)
    (hlimit : limit < p.moment s u waited (k + 1)) : p.activity.next? s limit r = none := by
  obtain ⟨hwaits, hending, hwake⟩ := h.waits
  obtain ⟨id, hjobs⟩ := h.jobs
  apply Activity.next?_eq_none hending hwaits
  · rw [hjobs]
    intro j hj
    obtain rfl := List.mem_singleton.1 hj
    exact hlimit
  · exact hnow
  · rw [hwake]
    nofun

/-- The reload is seen at once, and the next view is asked for. -/
theorem Fired.next (h : Fired p s u k r) (limit : Nat) : ∃ r',
    p.activity.next? s limit r = some r' ∧ Loading p s u (k + 1) r' ∧
      r'.console.now = p.moment s u waited (k + 1) := by
  obtain ⟨i, position, hstage, j, hfinds⟩ := h.stage
  have hturn : p.turn? s r.console r.stage =
      some (load s (r.console.dropController i) false (j + 1) none) := by
    rw [hstage, turn?_waiting, look?, Feed.nextLoad_of_finds hfinds]
  have hending : p.activity.ending? r.stage = none := by
    rw [hstage]
    rfl
  obtain ⟨r', htake, hconsole, hstage', -⟩ := Activity.takeTurn?_of_turn (a := p.activity) hturn
  have hprompt : Prompt r := .inr (by rw [h.jobs]; nofun)
  have hnext : p.activity.next? s limit r = some r' :=
    Activity.next?_of_turn hending hprompt htake
  obtain ⟨hnow, hpage, hcalls⟩ : (r.console.dropController i).now = p.moment s u waited (k + 1) ∧
      (r.console.dropController i).page = r.console.page ∧
        (r.console.dropController i).calls = p.calls s u waited (k + 1) :=
    ⟨(Console.disarm_now _ i).trans h.now, Console.disarm_page _ i,
      (Console.disarm_calls _ i).trans h.calls⟩
  have hanswer : s.view (r.console.dropController i).calls
      (r.console.dropController i).page.location.text = p.answer s u waited (k + 1) := by
    rw [hcalls, hpage, h.location, answer]
  have hnow' : r'.console.now = p.moment s u waited (k + 1) := by
    rw [hconsole]
    exact hnow
  have hpage' : r'.console.page = r.console.page := by
    rw [hconsole]
    exact hpage
  refine ⟨r', hnext, ?_, hnow'⟩
  constructor
  case toStands =>
    refine ⟨FromPage.next h.own hnext, ?_, by rw [hpage', h.past]⟩
    rw [hconsole, calls_succ]
    show (r.console.dropController i).calls ++ [⟨(r.console.dropController i).now,
      .view (r.console.dropController i).page.location.text⟩] = _
    rw [hcalls, hnow, hpage, h.location]
  case stage =>
    refine ⟨false, j + 1, nofun, ?_⟩
    rw [hstage', load]
    simp only
    rw [hanswer, Console.after, hnow, hpage, h.location]
    rfl
  case location => rw [hpage', h.location]
  case reloads => rw [hpage', h.reloads]
  case jobs =>
    rw [hconsole]
    exact Console.jobs_disarm h.jobs
  case now_le => exact hnow' ▸ moment_le_due

end Cli.Watch

end ClusterConsole
