import ClusterConsole.Proofs.Cli.Homing
import ClusterConsole.Proofs.Url.Origin

/-! The time line of a command that is sent from a page on which nothing else happens. A form that
lacks something ends it at once. Otherwise the session is asked for one answer, and when that is
there the command fails, is denied, or goes to the server; then it ends when the page goes home,
whatever becomes of the submission. -/

namespace ClusterConsole

/-! ### Pages of a server -/

/-- A location with a path on the server of a URL, and nothing behind the path. -/
structure Url.IsPage (u : Url) (path : String) (v : Url) : Prop where
  origin : v.origin = u.origin
  path : v.path.render = path.toList
  query : v.query = none
  fragment : v.fragment = none

theorem Url.isPage_home (u : Url) : u.IsPage Route.home (u.pageNamed []) := ⟨rfl, rfl, rfl, rfl⟩

theorem Url.isPage_unauthorized (u : Url) : u.IsPage Route.unauthorized u.unauthorized :=
  ⟨rfl, rfl, rfl, rfl⟩

namespace Page

variable {page : Page} {url target : String} {u : Url}

theorem at_of_open (h : Page.open url = .ok page) : page = .at page.location := by
  unfold Page.open at h
  split at h
  · cases h
    rfl
  · cases h

theorem history_navigate (h : page.location.join target = .ok u) :
    (page.navigate target).history = page.history ++ [u] := by
  obtain ⟨hlocation, hpast⟩ := navigate_of_join h
  rw [history, hlocation, hpast, history]

end Page

namespace Cli.Send

/-! ### What has been reached -/

/-- The command has not ended yet, and so far it has come to this. -/
structure Pending (page : Page) (calls : List CallRecord) (r : Run SendStage) : Prop where
  stage : ∀ e, r.stage ≠ .ended e
  page : r.console.page = page
  calls : r.console.calls = calls

/-- The form lacks something. -/
def Incomplete (p : Send) : Prop := p.cluster = "" ∨ p.command = "" ∨ 256 < p.command.length

/-- The command after some steps, from a page on which nothing else happens. -/
def upTo (p : Send) (s : Server) (page : Page) (limit n : Nat) : Run SendStage :=
  p.activity.steps s limit n (p.activity.begin (.ofPage page))

/-- What a command comes to up to a limit if a wait for some time takes as long as `wait` says. It
takes seven steps at most. -/
structure Timeline (p : Send) (s : Server) (page : Page) (wait : Nat → Nat) : Prop where
  /-- A form that lacks something is refused, and no other is. -/
  invalid_iff : ∀ limit n, 7 ≤ n →
    ((p.upTo s page limit n).stage = .ended (.ok .invalid) ↔ p.Incomplete)
  /-- That happens at once, before anything is asked or done. -/
  untouched : p.Incomplete → ∀ limit n, 7 ≤ n →
    (p.upTo s page limit n).console = .ofPage page
  /-- Otherwise the command waits for the answer to one entitlement call. -/
  asking : ¬ p.Incomplete → ∀ limit n, 7 ≤ n → limit < wait (s.entitlement []).delay →
    Pending page [⟨0, .entitlement⟩] (p.upTo s page limit n)
  /-- The call fails. -/
  failed : ¬ p.Incomplete → ∀ source, (s.entitlement []).result = .error source →
    ∀ limit n, 7 ≤ n → wait (s.entitlement []).delay ≤ limit →
      Over (.error (.console (.entitlementCheck source))) (wait (s.entitlement []).delay) page
        [⟨0, .entitlement⟩] (p.upTo s page limit n)
  /-- The session is not entitled. -/
  denied : ¬ p.Incomplete → ∀ response, (s.entitlement []).result = .ok response →
    response.isEntitled = false →
      ∃ v, page.location.IsPage Route.unauthorized v ∧
        (page.navigate Route.unauthorized).history = page.history ++ [v] ∧
        ∀ limit n, 7 ≤ n → wait (s.entitlement []).delay ≤ limit →
          Over (.ok .denied) (wait (s.entitlement []).delay) (page.navigate Route.unauthorized)
            [⟨0, .entitlement⟩] (p.upTo s page limit n)
  /-- The session is entitled: the command goes to the server, and ends when the page goes home. -/
  sent : ¬ p.Incomplete → ∀ response, (s.entitlement []).result = .ok response →
    response.isEntitled = true →
      let answered := wait (s.entitlement []).delay
      let calls := [⟨0, .entitlement⟩, ⟨answered, .submit p.request⟩]
      ∃ v, page.location.IsPage Route.home v ∧
        (page.navigate Route.home).history = page.history ++ [v] ∧
        ∀ limit n, 7 ≤ n → answered ≤ limit →
          (limit < answered + wait p.delay → Pending page calls (p.upTo s page limit n)) ∧
          (answered + wait p.delay ≤ limit →
            Over (.ok .done) (answered + wait p.delay) (page.navigate Route.home) calls
              (p.upTo s page limit n))
  /-- The program takes as many steps. -/
  own : ∀ duration, ∃ n, 7 ≤ n ∧ p.activity.run s duration (.ofPage page) =
    p.activity.finish ((Console.ofPage page).after duration)
      (p.upTo s page ((Console.ofPage page).after duration) n)

variable {p : Send} {s : Server} {page : Page} {u : Url} {limit n position : Nat}
  {r : Run SendStage} {rest before after : List (Job Task)} {way : Job Task}

theorem valid_iff : p.Valid ↔ ¬ p.Incomplete := by
  simp [Valid, Incomplete, commandForm, Form.isValid, Field.isValid, Field.message?,
    Field.violated?, Constraint.isViolatedBy, maxCommandLength]

/-! ### On the way home -/

/-- The page is to go home, and until then at most answers come that nobody reads. -/
structure Homeward (position : Nat) (before : List (Job Task)) (way : Job Task)
    (after : List (Job Task)) (r : Run SendStage) : Prop where
  stage : r.stage = .leaving position
  tidy : r.console.Tidy
  jobs : r.console.agenda.jobs = before ++ way :: after
  task : way.task = .goHome
  unread : ∀ j ∈ before ++ after, Unread j
  stays : ¬ r.console.page.feed.Leaves position
  isOpen : r.console.page.feed.closed = false
  capacity : 0 < r.console.page.feed.capacity
  begun : position ≤ r.console.page.feed.sent.length
  leads : ∃ u, r.console.page.location.join Route.home = .ok u

section Homeward

variable (h : Homeward position before way after r)

include h

theorem Homeward.ending : p.activity.ending? r.stage = none := by
  rw [h.stage]
  rfl

theorem Homeward.waits : p.activity.takeTurn? s r = none := by
  apply Activity.takeTurn?_of_waits
  rw [h.stage]
  exact look_eq_none_iff.2 ⟨h.stays, h.isOpen⟩

/-- Nothing happens if the limit comes before all jobs. -/
theorem Homeward.stuck (hnow : r.console.now ≤ limit)
    (hlate : ∀ j ∈ r.console.agenda.jobs, limit < j.due) :
    p.activity.steps s limit n r = r := by
  apply Activity.steps_of_stuck
  refine Activity.next?_eq_none h.ending h.waits hlate hnow ?_
  rw [h.stage]
  nofun

theorem Homeward.pending : Pending r.console.page r.console.calls r := by
  refine ⟨fun e he => ?_, rfl, rfl⟩
  rw [h.stage] at he
  cases he

end Homeward

/-- The redirect takes the page home. -/
theorem Homeward.home (h : Homeward position [] way after r) :
    let c := r.console.resume s way
    Home position after { r with console := c, ready := false } ∧ c.now = way.due ∧
      c.page = r.console.page.navigate Route.home ∧ c.calls = r.console.calls := by
  obtain ⟨htidy, hresume, hrest⟩ := take_first (s := s) h.tidy h.jobs
  obtain ⟨u, hjoin⟩ := h.leads
  rw [h.task, Console.perform] at hresume
  intro c
  obtain ⟨hnow, hpage, hcalls, hjobs⟩ : c.now = way.due ∧
      c.page = r.console.page.navigate Route.home ∧ c.calls = r.console.calls ∧
        c.agenda.jobs = after := by
    rw [show c = _ from hresume]
    exact ⟨Console.navigate_now _ _, Console.navigate_page _ _, Console.navigate_calls _ _,
      (congrArg Agenda.jobs (Console.navigate_agenda _ _)).trans hrest⟩
  refine ⟨⟨h.stage, rfl, htidy, hjobs, fun j hj => .inr (h.unread j hj), ?_⟩, hnow, hpage, hcalls⟩
  show c.page.feed.Leaves position
  rw [hpage]
  exact Page.leaves_navigate hjoin h.capacity h.begun

/-- An answer that nobody reads changes nothing. -/
theorem Homeward.answered {j : Job Task} (h : Homeward position (j :: before) way after r) :
    let c := r.console.resume s j
    Homeward position before way after { r with console := c, ready := false } ∧ c.now = j.due ∧
      c.page = r.console.page ∧ c.calls = r.console.calls := by
  obtain ⟨htidy, hresume, hrest⟩ := take_first (s := s) h.tidy h.jobs
  obtain ⟨result, htask⟩ := h.unread j List.mem_cons_self
  rw [htask, Console.perform] at hresume
  intro c
  obtain ⟨hnow, hpage, hcalls, hjobs⟩ : c.now = j.due ∧ c.page = r.console.page ∧
      c.calls = r.console.calls ∧ c.agenda.jobs = before ++ way :: after := by
    rw [show c = _ from hresume]
    exact ⟨rfl, rfl, rfl, hrest⟩
  refine ⟨?_, hnow, hpage, hcalls⟩
  constructor
  case stage => exact h.stage
  case tidy => exact htidy
  case jobs => exact hjobs
  case task => exact h.task
  case unread => exact fun k hk => h.unread k (List.mem_cons_of_mem j hk)
  case stays => exact hpage ▸ h.stays
  case isOpen => exact hpage ▸ h.isOpen
  case capacity => exact hpage ▸ h.capacity
  case begun => exact hpage ▸ h.begun
  case leads => exact hpage ▸ h.leads

/-- The page goes home when that is due, and then the command ends. -/
theorem Homeward.steps (h : Homeward position before way after r) (hnow : r.console.now ≤ limit)
    (hn : before.length + after.length + 2 ≤ n) :
    (limit < way.due →
      Pending r.console.page r.console.calls (p.activity.steps s limit n r)) ∧
    (way.due ≤ limit →
      Over (.ok .done) way.due (r.console.page.navigate Route.home) r.console.calls
        (p.activity.steps s limit n r)) := by
  obtain ⟨m, rfl⟩ : ∃ m, n = m + 1 := ⟨n - 1, by omega⟩
  induction before generalizing r m with
  | nil =>
    by_cases hdue : way.due ≤ limit
    · obtain ⟨hhome, htime, hpage, hcalls⟩ := h.home (s := s)
      have hlength : after.length < m := by
        simp only [List.length_nil] at hn
        omega
      rw [Activity.steps_of_next (Activity.next?_of_job h.ending h.waits (by rw [h.stage]; rfl)
        h.jobs hdue), ← htime, ← hpage, ← hcalls]
      exact ⟨fun hlt => by omega, fun _ => hhome.steps hlength⟩
    · have hlate : ∀ k ∈ r.console.agenda.jobs, limit < k.due := fun k hk =>
        Nat.lt_of_lt_of_le (Nat.lt_of_not_le hdue) (h.tidy.ordered.first_due_le h.jobs k hk)
      rw [h.stuck hnow hlate]
      exact ⟨fun _ => h.pending, fun hle => absurd hle hdue⟩
  | cons j before ih =>
    by_cases hdue : j.due ≤ limit
    · obtain ⟨hnext, htime, hpage, hcalls⟩ := h.answered (s := s)
      obtain ⟨m, rfl⟩ : ∃ k, m = k + 1 := ⟨m - 1, by simp only [List.length_cons] at hn; omega⟩
      have hcases := ih hnext (by rwa [htime]) m (by simp only [List.length_cons] at hn; omega)
      rw [Activity.steps_of_next (Activity.next?_of_job h.ending h.waits (by rw [h.stage]; rfl)
        h.jobs hdue), ← hpage, ← hcalls]
      exact hcases
    · have hlate : ∀ k ∈ r.console.agenda.jobs, limit < k.due := fun k hk =>
        Nat.lt_of_lt_of_le (Nat.lt_of_not_le hdue) (h.tidy.ordered.first_due_le h.jobs k hk)
      have hway := hlate way (by rw [h.jobs]; simp)
      rw [h.stuck hnow hlate]
      exact ⟨fun _ => h.pending, fun hle => absurd hway (Nat.not_lt_of_le hle)⟩

/-! ### The answer -/

/-- The console on which the answer is awaited. -/
def asked (p : Send) (page : Page) (time : Nat) : Console :=
  { now := time, page, calls := [⟨0, .entitlement⟩], dispatchers := [{ delay := p.delay }] }

theorem tidy_asked (p : Send) (page : Page) (time : Nat) : (asked p page time).Tidy :=
  (((Console.tidy_ofPage page).addDispatcher p.delay).record .entitlement).wait nofun

/-- The answer is there, and it is the turn of the command. -/
structure Answering (p : Send) (s : Server) (page : Page) (r : Run SendStage) : Prop where
  console : r.console = asked p page (answerTime s)
  stage : r.stage = .asking (answerTime s) (s.entitlement []).result 0 page.feed.subscribe
  ready : r.ready = true

/-- A form that lacks something ends the command in one step. -/
theorem upTo_of_invalid (h : ¬ p.Valid) (hn : 1 ≤ n) :
    (p.upTo s page limit n).stage = .ended (.ok .invalid) ∧
      (p.upTo s page limit n).console = .ofPage page := by
  have hturn : p.turn? s (Console.ofPage page) .start = some (p.start s (.ofPage page)) := rfl
  obtain ⟨hconsole, hstage⟩ := start_of_invalid h s (.ofPage page)
  obtain ⟨r, htake, hrconsole, hrstage, -⟩ := Activity.takeTurn?_of_turn (a := p.activity)
    (r := p.activity.begin (.ofPage page)) hturn
  have hended : r.stage = .ended (.ok .invalid) := hrstage.trans hstage
  obtain ⟨m, rfl⟩ : ∃ m, n = m + 1 := ⟨n - 1, by omega⟩
  unfold upTo
  rw [Activity.steps_of_next (Activity.next?_of_turn rfl (.inl rfl) htake),
    steps_of_ended (by rw [hended]; rfl)]
  exact ⟨hended, hrconsole.trans hconsole⟩

/-- No other command is refused. -/
theorem invalid_of_upTo (h : (p.upTo s page limit n).stage = .ended (.ok .invalid)) :
    ¬ p.Valid := by
  obtain ⟨es, hgoes⟩ := goes_steps (r := p.activity.begin (.ofPage page)) (keepsTidy p s) limit n
    (Console.tidy_ofPage page)
  have hcourse := course_goes hgoes
  rw [show (p.activity.steps s limit n _).stage = _ from h] at hcourse
  replace hcourse : p.Ends s _ (.ok .invalid) := hcourse
  cases hcourse with
  | invalid hinvalid => exact hinvalid

/-- A form that lacks nothing has the session asked, in one step. -/
theorem exists_asking (hvalid : p.Valid) (s : Server) (page : Page) (limit : Nat) : ∃ r,
    (∀ n, p.upTo s page limit (n + 1) = p.activity.steps s limit n r) ∧
      r.console = asked p page 0 ∧
      r.stage = .asking (answerTime s) (s.entitlement []).result 0 page.feed.subscribe ∧
      r.ready = true := by
  have hturn : p.turn? s (Console.ofPage page) .start = some (p.start s (.ofPage page)) := rfl
  obtain ⟨hconsole, hstage⟩ := start_of_valid hvalid s (.ofPage page)
  obtain ⟨r, htake, hrconsole, hrstage, hready⟩ := Activity.takeTurn?_of_turn (a := p.activity)
    (r := p.activity.begin (.ofPage page)) hturn
  refine ⟨r, fun n => ?_, hrconsole.trans hconsole, ?_, hready⟩
  · exact Activity.steps_of_next (Activity.next?_of_turn rfl (.inl rfl) htake)
  · have hdue : (Console.ofPage page).after (s.entitlement (Console.ofPage page).calls).delay =
        answerTime s := Nat.zero_add _
    rw [hrstage, hstage, hdue]
    rfl

/-- It waits for the answer, which comes after a step or two. -/
theorem exists_answering (hvalid : p.Valid) (page : Page) (htime : answerTime s ≤ limit) :
    ∃ r k, k ≤ 2 ∧ (∀ n, p.upTo s page limit (n + k) = p.activity.steps s limit n r) ∧
      Answering p s page r := by
  obtain ⟨r, hsteps, hconsole, hstage, hready⟩ := exists_asking hvalid s page limit
  by_cases hzero : answerTime s = 0
  · refine ⟨r, 1, by omega, hsteps, ?_, hstage, hready⟩
    rw [hconsole, hzero]
  · have hending : p.activity.ending? r.stage = none := by
      rw [hstage]
      rfl
    have hwaits : p.activity.takeTurn? s r = none := by
      apply Activity.takeTurn?_of_waits
      rw [hstage, hconsole]
      exact if_neg (by show ¬ answerTime s ≤ 0; omega)
    have hwake : p.activity.wake? r.stage = some (answerTime s) := by
      rw [hstage]
      rfl
    have hnext := Activity.next?_of_wake hending hwaits
      (by rw [hconsole]; rfl) hwake htime
    refine ⟨{ r with
      console := { r.console with now := max r.console.now (answerTime s) }
      ready := true }, 2, Nat.le_refl 2, fun n => ?_, ?_, hstage, rfl⟩
    · rw [hsteps (n + 1)]
      exact Activity.steps_of_next hnext
    · rw [hconsole]
      simp [asked]

/-- Until the answer is there nothing happens. -/
theorem pending_of_asking (hvalid : p.Valid) (hn : 7 ≤ n) (htime : limit < answerTime s) :
    Pending page [⟨0, .entitlement⟩] (p.upTo s page limit n) := by
  obtain ⟨r, hsteps, hconsole, hstage, -⟩ := exists_asking hvalid s page limit
  obtain ⟨m, rfl⟩ : ∃ m, n = m + 1 := ⟨n - 1, by omega⟩
  have hending : p.activity.ending? r.stage = none := by
    rw [hstage]
    rfl
  have hwaits : p.activity.takeTurn? s r = none := by
    apply Activity.takeTurn?_of_waits
    rw [hstage, hconsole]
    exact if_neg (by show ¬ answerTime s ≤ 0; omega)
  have hnone : p.activity.next? s limit r = none := by
    apply Activity.next?_eq_none hending hwaits
    · rw [hconsole]
      nofun
    · rw [hconsole]
      exact Nat.zero_le _
    · rw [hstage]
      intro time hwake
      cases hwake
      exact htime
  rw [hsteps, Activity.steps_of_stuck hnone]
  refine ⟨fun e he => ?_, ?_, ?_⟩
  · rw [hstage] at he
    cases he
  · rw [hconsole]
    rfl
  · rw [hconsole]
    rfl

/-- The answer is taken in the next step. -/
theorem Answering.next (h : Answering p s page r) : ∃ r',
    (∀ limit n, p.activity.steps s limit (n + 1) r = p.activity.steps s limit n r') ∧
      r'.console = ((asked p page (answerTime s)).conclude 0 p.request
        (s.entitlement []).result).2 ∧
      r'.stage = (p.answered (asked p page (answerTime s)) (s.entitlement []).result 0
        page.feed.subscribe).stage ∧ r'.ready = true := by
  have hending : p.activity.ending? r.stage = none := by
    rw [h.stage]
    rfl
  have hturn : p.turn? s r.console r.stage = some (p.answered (asked p page (answerTime s))
      (s.entitlement []).result 0 page.feed.subscribe) := by
    rw [h.stage, h.console]
    exact if_pos (Nat.le_refl _)
  obtain ⟨r', htake, hconsole, hstage, hready⟩ :=
    Activity.takeTurn?_of_turn (a := p.activity) hturn
  refine ⟨r', fun limit n => ?_, ?_, hstage, hready⟩
  · exact Activity.steps_of_next (Activity.next?_of_turn hending (.inl h.ready) htake)
  · rw [hconsole]
    exact (answered_cases p _ _ _ _).1

/-- An answer that does not let the command through ends it. -/
theorem Answering.over (h : Answering p s page r) {e : Ending}
    (hstage : (p.answered (asked p page (answerTime s)) (s.entitlement []).result 0
      page.feed.subscribe).stage = .ended e) (limit : Nat) (hn : 1 ≤ n) :
    Over e (answerTime s) ((asked p page (answerTime s)).conclude 0 p.request
      (s.entitlement []).result).2.page [⟨0, .entitlement⟩] (p.activity.steps s limit n r) := by
  obtain ⟨r', hsteps, hconsole, hstage', -⟩ := h.next
  obtain ⟨m, rfl⟩ : ∃ m, n = m + 1 := ⟨n - 1, by omega⟩
  have hended : r'.stage = .ended e := hstage'.trans hstage
  rw [hsteps, steps_of_ended (by rw [hended]; rfl)]
  refine ⟨hended, ?_, ?_, ?_⟩
  · rw [hconsole, Console.conclude_now]
    rfl
  · rw [hconsole]
  · rw [hconsole, Console.conclude_calls]
    rfl

theorem over_of_answer (hvalid : p.Valid) {e : Ending}
    (hstage : (p.answered (asked p page (answerTime s)) (s.entitlement []).result 0
      page.feed.subscribe).stage = .ended e) (hn : 7 ≤ n) (htime : answerTime s ≤ limit) :
    Over e (answerTime s) ((asked p page (answerTime s)).conclude 0 p.request
      (s.entitlement []).result).2.page [⟨0, .entitlement⟩] (p.upTo s page limit n) := by
  obtain ⟨r, k, hk, hsteps, hanswering⟩ := exists_answering hvalid page htime
  obtain ⟨m, rfl⟩ : ∃ m, n = m + k := ⟨n - k, by omega⟩
  have hm : 1 ≤ m := by omega
  rw [hsteps]
  exact hanswering.over hstage limit hm

theorem over_of_failed (hvalid : p.Valid) {source : String}
    (hresult : (s.entitlement []).result = .error source) (hn : 7 ≤ n)
    (htime : answerTime s ≤ limit) :
    Over (.error (.console (.entitlementCheck source))) (answerTime s) page [⟨0, .entitlement⟩]
      (p.upTo s page limit n) := by
  have hstage : (p.answered (asked p page (answerTime s)) (s.entitlement []).result 0
      page.feed.subscribe).stage = .ended (.error (.console (.entitlementCheck source))) := by
    rw [hresult]
    rfl
  have hover := over_of_answer hvalid hstage hn htime
  rw [hresult] at hover
  exact hover

theorem over_of_denied (hvalid : p.Valid) {response : EntitlementResponse}
    (hresult : (s.entitlement []).result = .ok response) (hno : response.isEntitled = false)
    (hn : 7 ≤ n) (htime : answerTime s ≤ limit) :
    Over (.ok .denied) (answerTime s) (page.navigate Route.unauthorized) [⟨0, .entitlement⟩]
      (p.upTo s page limit n) := by
  have hstage : (p.answered (asked p page (answerTime s)) (s.entitlement []).result 0
      page.feed.subscribe).stage = .ended (.ok .denied) := by
    rw [hresult]
    unfold answered Console.conclude
    rw [Decision.ofAnswer_denied hno]
  have hover := over_of_answer hvalid hstage hn htime
  rwa [hresult, Console.conclude_denied_page _ _ _ hno] at hover

/-! ### The submission -/

/-- Where the page goes home. -/
def wayHome (p : Send) (s : Server) : Job Task :=
  ⟨1, answerTime s + min p.delay Console.longestWait, .goHome⟩

/-- The submission and the way home are left to the agenda. -/
theorem jobs_conclude (hentitled : Entitled (s.entitlement []).result) :
    ((asked p page (answerTime s)).conclude 0 p.request (s.entitlement []).result).2.agenda.jobs =
      [⟨0, answerTime s, .submit p.request⟩, p.wayHome s] := by
  have hlate : ¬ answerTime s + min p.delay Console.longestWait < answerTime s := by omega
  rw [Console.conclude_of_entitled hentitled]
  simp [asked, wayHome, Console.armRedirect, Console.schedule, Console.cancel, Console.after,
    Agenda.schedule, Agenda.insert, hlate]

/-- A submission leaves at most an answer behind. -/
theorem jobs_submit {c : Console} (hjobs : c.agenda.jobs = [way]) (s : Server)
    (request : CommandRequest) : ∃ before after,
      (c.submit s request).agenda.jobs = before ++ way :: after ∧
        (∀ j ∈ before ++ after, Unread j) ∧ before.length + after.length ≤ 1 := by
  unfold Console.submit
  split
  · exact ⟨[], [], hjobs, nofun, Nat.zero_le 1⟩
  · next answer hanswer =>
    have hunread : ∀ id due, ∀ j ∈ [(⟨id, due, .submitted answer.result⟩ : Job Task)],
        Unread j := by
      intro id due j hj
      obtain rfl := List.mem_singleton.1 hj
      exact ⟨_, rfl⟩
    rw [Console.schedule_agenda, Agenda.schedule, Console.record_agenda, hjobs, Agenda.insert]
    split
    · exact ⟨[_], [], rfl, hunread _ _, Nat.le_refl 1⟩
    · exact ⟨[], [_], rfl, hunread _ _, Nat.le_refl 1⟩

/-- The answer let the command through, on a page that was opened at `u`. -/
structure Leaving (p : Send) (s : Server) (u : Url) (r : Run SendStage) : Prop where
  stage : r.stage = .leaving 0
  now : r.console.now = answerTime s
  page : r.console.page = .at u
  calls : r.console.calls = [⟨0, .entitlement⟩]
  jobs : r.console.agenda.jobs = [⟨0, answerTime s, .submit p.request⟩, p.wayHome s]
  tidy : r.console.Tidy

theorem Answering.leaving (h : Answering p s (.at u) r)
    (hentitled : Entitled (s.entitlement []).result) : ∃ r',
      (∀ limit n, p.activity.steps s limit (n + 1) r = p.activity.steps s limit n r') ∧
        Leaving p s u r' := by
  obtain ⟨r', hsteps, hconsole, hstage, -⟩ := h.next
  refine ⟨r', hsteps, ?_⟩
  constructor
  case stage =>
    rw [hstage, answered_of_entitled hentitled]
    rfl
  case now =>
    rw [hconsole, Console.conclude_now]
    rfl
  case page =>
    rw [hconsole, Console.conclude_of_entitled hentitled, Console.armRedirect_page]
    rfl
  case calls =>
    rw [hconsole, Console.conclude_calls]
    rfl
  case jobs => rw [hconsole, jobs_conclude hentitled]
  case tidy =>
    rw [hconsole]
    exact (tidy_asked p (.at u) (answerTime s)).conclude _ _ _

theorem Leaving.waits (h : Leaving p s u r) : p.activity.takeTurn? s r = none := by
  apply Activity.takeTurn?_of_waits
  rw [h.stage]
  refine look_eq_none_iff.2 ⟨?_, ?_⟩
  · rw [h.page]
    exact Feed.not_leaves_end rfl
  · rw [h.page]
    rfl

/-- The command goes to the server before anything else is done. -/
theorem Leaving.homeward (h : Leaving p s u r) (hweb : u.IsWeb) (hpath : u.hasPath = true) :
    ∃ r' before after,
      (∀ limit n, p.activity.steps s limit (n + 1) r = p.activity.steps s limit n r') ∧
        Homeward 0 before (p.wayHome s) after r' ∧ before.length + after.length ≤ 1 ∧
          r'.console.now = answerTime s ∧ r'.console.page = .at u ∧
            r'.console.calls = [⟨0, .entitlement⟩, ⟨answerTime s, .submit p.request⟩] := by
  let job : Job Task := ⟨0, answerTime s, .submit p.request⟩
  obtain ⟨htidy, hresume, hrest⟩ := take_first (s := s) h.tidy h.jobs
  obtain ⟨before, after, hjobs, hunread, hlength⟩ := jobs_submit
    (c := { r.console with now := job.due, agenda := r.console.agenda.cancel job.id }) hrest s
    p.request
  obtain ⟨hnow, hpage, hcalls⟩ : (r.console.resume s job).now = answerTime s ∧
      (r.console.resume s job).page = .at u ∧ (r.console.resume s job).calls =
        [⟨0, .entitlement⟩, ⟨answerTime s, .submit p.request⟩] := by
    rw [hresume, Console.perform, Console.submit_now, Console.submit_page, Console.submit_calls]
    exact ⟨rfl, h.page, congrArg (· ++ _) h.calls⟩
  obtain ⟨segments, hrooted⟩ := Url.hasPath_iff.1 hpath
  refine ⟨{ r with console := r.console.resume s job, ready := false }, before, after,
    fun limit n => ?_, ?_, hlength, hnow, hpage, hcalls⟩
  · refine Activity.steps_of_next (Activity.next?_of_due ?_ (fun _ => h.waits) h.jobs ?_)
    · rw [h.stage]
      rfl
    · exact Nat.le_of_eq h.now.symm
  · constructor
    case stage => exact h.stage
    case tidy => exact htidy
    case jobs =>
      show (r.console.resume s job).agenda.jobs = _
      rw [hresume]
      exact hjobs
    case task => rfl
    case unread => exact hunread
    case stays =>
      rw [hpage]
      exact Feed.not_leaves_end rfl
    case isOpen =>
      rw [hpage]
      rfl
    case capacity =>
      rw [hpage]
      exact show 0 < Feed.roundUp 64 by decide
    case begun => exact Nat.zero_le _
    case leads =>
      rw [hpage]
      exact ⟨_, Url.join_home hrooted hweb.special.2⟩

/-- A command that is let through goes to the server, and ends when the page goes home. -/
theorem steps_of_entitled (hvalid : p.Valid) (hentitled : Entitled (s.entitlement []).result)
    (hweb : u.IsWeb) (hpath : u.hasPath = true) (hn : 7 ≤ n) (htime : answerTime s ≤ limit) :
    let calls := [⟨0, .entitlement⟩, ⟨answerTime s, .submit p.request⟩]
    (limit < (p.wayHome s).due → Pending (.at u) calls (p.upTo s (.at u) limit n)) ∧
      ((p.wayHome s).due ≤ limit →
        Over (.ok .done) (p.wayHome s).due ((Page.at u).navigate Route.home) calls
          (p.upTo s (.at u) limit n)) := by
  intro calls
  obtain ⟨r, k, hk, hsteps, hanswering⟩ := exists_answering hvalid (.at u) htime
  obtain ⟨r₁, hsteps₁, hleaving⟩ := hanswering.leaving hentitled
  obtain ⟨r₂, before, after, hsteps₂, hhomeward, hlength, hnow, hpage, hcalls⟩ :=
    hleaving.homeward hweb hpath
  obtain ⟨m, rfl⟩ : ∃ m, n = m + 1 + 1 + k := ⟨n - k - 2, by omega⟩
  have hlimit : r₂.console.now ≤ limit := hnow ▸ htime
  have hm : before.length + after.length + 2 ≤ m := by omega
  have hcases := hhomeward.steps (p := p) (s := s) hlimit hm
  rw [hpage, hcalls] at hcases
  rw [hsteps, hsteps₁, hsteps₂]
  exact hcases

/-! ### The time line -/

/-- No wait takes longer than the longest. -/
theorem timeline_of_open {url : String} (hopen : Page.open url = .ok page)
    (hweb : page.location.IsWeb) (p : Send) (s : Server) :
    Timeline p s page (min · Console.longestWait) := by
  have hpath : page.location.hasPath = true :=
    Url.hasPath_iff.2 (Page.rooted_open hopen hweb.special.1)
  obtain ⟨segments, hrooted⟩ := Url.hasPath_iff.1 hpath
  have hat := Page.at_of_open hopen
  constructor
  case invalid_iff =>
    intro limit n hn
    rw [← not_iff_not, ← valid_iff]
    refine ⟨fun h => ?_, fun hvalid h => invalid_of_upTo h hvalid⟩
    by_contra hinvalid
    exact h (upTo_of_invalid hinvalid (by omega)).1
  case untouched =>
    intro hincomplete limit n hn
    exact (upTo_of_invalid (fun hvalid => valid_iff.1 hvalid hincomplete) (by omega)).2
  case asking =>
    intro hcomplete limit n hn htime
    exact pending_of_asking (valid_iff.2 hcomplete) hn htime
  case failed =>
    intro hcomplete source hresult limit n hn htime
    exact over_of_failed (valid_iff.2 hcomplete) hresult hn htime
  case denied =>
    intro hcomplete response hresult hno
    have hjoin := Url.join_unauthorized hrooted hweb.special.2
    refine ⟨_, Url.isPage_unauthorized _, Page.history_navigate hjoin, ?_⟩
    intro limit n hn htime
    exact over_of_denied (valid_iff.2 hcomplete) hresult hno hn htime
  case sent =>
    intro hcomplete response hresult hyes answered calls
    have hjoin := Url.join_home hrooted hweb.special.2
    refine ⟨_, Url.isPage_home _, Page.history_navigate hjoin, ?_⟩
    intro limit n hn htime
    rw [hat]
    exact steps_of_entitled (valid_iff.2 hcomplete) ⟨response, hresult, hyes⟩ hweb hpath hn htime
  case own =>
    intro duration
    refine ⟨_, ?_, rfl⟩
    unfold Activity.enough
    omega

/-- A command that is sent in good time, to a server that needs a while for everything. -/
theorem timeline_of_open_slow :
    let p : Send := ⟨"c", "k", 1000⟩
    Page.open "http://console.test/" = .ok World.consolePage ∧ World.consolePage.location.IsWeb ∧
      p.activity.ending? (p.upTo slow World.consolePage 1800 7).stage = some (.ok .done) ∧
      Timeline p slow World.consolePage (min · Console.longestWait) := by
  intro p
  exact ⟨World.open_consolePage, .inl rfl, by decide +kernel,
    timeline_of_open World.open_consolePage (.inl rfl) p slow⟩

/-- A command whose page would not go home for a hundred million years ends after thirty. -/
theorem not_timeline_delay : ¬ ∀ (p : Send) (s : Server) (url : String) (page : Page),
    Page.open url = .ok page → page.location.IsWeb → Timeline p s page fun delay => delay := by
  intro h
  let p : Send := ⟨"c", "k", 9223372036854775808⟩
  have hline := h p World.entitling _ _ World.open_consolePage (.inl rfl)
  have hcomplete : ¬ p.Incomplete := by unfold Incomplete; decide
  obtain ⟨-, -, -, htimes⟩ := hline.sent hcomplete .entitled rfl rfl
  obtain ⟨hpending, -⟩ := htimes Console.longestWait 7 (Nat.le_refl 7) (Nat.zero_le _)
  have hdone : p.activity.ending? (p.upTo World.entitling World.consolePage
      Console.longestWait 7).stage = some (.ok .done) := by decide +kernel
  have hstage := (hpending (by decide)).stage
  cases hreached : (p.upTo World.entitling World.consolePage Console.longestWait 7).stage with
  | ended e => exact hstage e hreached
  | _ =>
    rw [hreached] at hdone
    cases hdone

end Cli.Send

end ClusterConsole
