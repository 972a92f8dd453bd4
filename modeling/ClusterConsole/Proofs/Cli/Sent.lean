import ClusterConsole.Cli.Send
import ClusterConsole.Proofs.Cli.Beside
import ClusterConsole.Proofs.Console.Calls
import ClusterConsole.Proofs.Console.Denial
import ClusterConsole.Proofs.Page.Load

/-! Whether a command that is reported as sent was begun. Its submission is left to the agenda
when the answer comes, and the command waits until the page is left. If somebody else left the
page before, it does not wait at all and ends before the submission has begun. -/

namespace ClusterConsole

/-! ### Jobs beside a command -/

/-- What a command and those who act on the page leave on the agenda. -/
def Task.Outward : Task → Prop
  | .act _ | .goHome | .submit _ | .submitted _ => True
  | _ => False

def Task.Submits : Task → Prop
  | .submit _ => True
  | _ => False

def Task.request? : Task → Option CommandRequest
  | .submit request => some request
  | _ => none

/-- The submission that a move begins. -/
def Move.submits? : Move → Option CommandRequest
  | .resume j => j.task.request?
  | _ => none

namespace Console

variable {c : Console} {P : Job Task → Prop} {request : CommandRequest}

/-- A submission has begun. -/
def Submitted (c : Console) (request : CommandRequest) : Prop :=
  ∃ time, ⟨time, .submit request⟩ ∈ c.calls

/-- Only the command and those who act on the page have jobs to be done. All submissions are
such as are expected. -/
structure Plain (c : Console) (P : Job Task → Prop) : Prop where
  tidy : c.Tidy
  outward : ∀ j ∈ c.agenda.jobs, j.task.Outward
  submits : ∀ j ∈ c.agenda.jobs, j.task.Submits → P j

/-- Nothing was submitted, and nothing is to be. -/
structure Quiet (c : Console) : Prop where
  plain : c.Plain fun _ => False
  calls : ∀ request, ¬ c.Submitted request

/-- A job that is done leaves at most the answer to a submission behind. -/
theorem perform_agenda (s : Server) {task : Task} (h : task.Outward) :
    (c.perform s task).agenda = c.agenda ∨ ∃ due result,
      (c.perform s task).agenda = c.agenda.schedule due (.submitted result) := by
  match task, h with
  | .act actions, _ | .submitted result, _ => exact .inl rfl
  | .goHome, _ => exact .inl (navigate_agenda c _)
  | .submit request, _ =>
    simp only [perform, submit]
    split
    · exact .inl rfl
    · exact .inr ⟨_, _, rfl⟩

theorem mem_perform (s : Server) {task : Task} (h : task.Outward) {j : Job Task}
    (hj : j ∈ (c.perform s task).agenda.jobs) : j ∈ c.agenda.jobs ∨ j.task.Outward := by
  rcases perform_agenda s h with hsame | ⟨due, result, hagenda⟩
  · rw [hsame] at hj
    exact .inl hj
  · rw [hagenda] at hj
    rcases Agenda.mem_schedule.1 hj with rfl | hj
    · exact .inr trivial
    · exact .inl hj

/-- A dispatch that comes to its end leaves at most its submission and its way home behind. -/
theorem mem_conclude (ht : c.Tidy) {i : Nat} {result : Except String EntitlementResponse}
    {j : Job Task} (hj : j ∈ (c.conclude i request result).2.agenda.jobs) :
    j ∈ c.agenda.jobs ∨ j.task.Outward := by
  by_cases hhome : j.task = .goHome
  · rw [hhome]
    exact .inr trivial
  · rcases (ht.mem_conclude (p := (· ≠ .goHome)) (not_not_intro rfl) hhome).1 hj with
      hj | ⟨-, rfl⟩
    · exact .inl hj
    · exact .inr trivial

theorem keeps_perform (s : Server) {task : Task} (h : task.Outward) :
    c.agenda.Keeps Task.Submits (c.perform s task).agenda := by
  rcases perform_agenda s h with hsame | ⟨due, result, hagenda⟩
  · exact .of_eq hsame
  · rw [hagenda]
    exact Agenda.keeps_schedule _ _ id

theorem perform_calls (s : Server) {task : Task} (h : task.Outward) :
    (c.perform s task).calls = c.calls ++ (task.request?.map (⟨c.now, .submit ·⟩)).toList := by
  have hcall : task.call? = task.request?.map Call.submit := by
    match task, h with
    | .act _, _ | .submitted _, _ | .goHome, _ | .submit _, _ => rfl
  rw [calls_perform, hcall, Option.map_map]
  rfl

theorem mem_cancel_resume (ht : c.Tidy) {j k : Job Task} (hj : j ∈ c.agenda.jobs) :
    k ∈ (c.cancel (some j.id)).agenda.jobs ↔ k ∈ c.agenda.jobs ∧ Move.resume j ≠ .resume k := by
  rw [mem_cancel]
  refine and_congr_right fun hk => ?_
  constructor
  · intro hne he
    cases he
    exact hne rfl
  · intro hne he
    have hid : j = k := ht.ordered.eq_of_id_eq hj hk (Option.some.inj he).symm
    exact hne (congrArg Move.resume hid)

end Console

namespace World

variable {s : Server} {c : Console} {m : Move} {P : Job Task → Prop}

/-- What an outside move does to the submissions. -/
structure Aloof (c c' : Console) (m : Move) (P : Job Task → Prop) : Prop where
  plain : c'.Plain P
  jobs : ∀ k : Job Task, k.task.Submits →
    (k ∈ c'.agenda.jobs ↔ k ∈ c.agenda.jobs ∧ m ≠ .resume k)
  calls : c'.calls = c.calls ++ (m.submits?.map (⟨c.now, .submit ·⟩)).toList

theorem aloof_aside (h : c.Plain P) (hm : m.Outside) (haside : m.Aside) (ha : Allows ⟨c, []⟩ m) :
    Aloof c (move s ⟨c, []⟩ m).console m P := by
  have ht : (move s ⟨c, []⟩ m).console.Tidy := tidy_move (w := ⟨c, []⟩) h.tidy ha
  have hkeeps : c.agenda.Keeps Task.Submits (move s ⟨c, []⟩ m).console.agenda :=
    keeps_move (w := ⟨c, []⟩) h.tidy haside id fun _ => id
  have hne : ∀ k, m ≠ .resume k := by
    rintro k rfl
    exact haside
  have houtward : ∀ j ∈ (move s ⟨c, []⟩ m).console.agenda.jobs, j.task.Outward := by
    intro j hj
    match m, hm with
    | .wait _, _ | .act _, _ => exact h.outward j hj
    | .plan delay actions, _ =>
      rcases Agenda.mem_schedule.1 hj with rfl | hj
      · trivial
      · exact h.outward j hj
    | .resume k, _ => exact (hne k rfl).elim
  have hcalls : (move s ⟨c, []⟩ m).console.calls =
      c.calls ++ (m.submits?.map (⟨c.now, .submit ·⟩)).toList := by
    match m, hm with
    | .wait _, _ | .act _, _ | .plan _ _, _ => exact (List.append_nil _).symm
    | .resume k, _ => exact (hne k rfl).elim
  refine ⟨⟨ht, houtward, fun j hj hs => h.submits j ((hkeeps.mem j hs).1 hj) hs⟩, ?_, hcalls⟩
  intro k hk
  rw [hkeeps.mem k hk]
  exact (and_iff_left (hne k)).symm

theorem aloof_resume (h : c.Plain P) {j : Job Task} (ha : Allows ⟨c, []⟩ (.resume j)) :
    Aloof c (move s ⟨c, []⟩ (.resume j)).console (.resume j) P := by
  have ht := tidy_move (s := s) (w := ⟨c, []⟩) h.tidy ha
  have hresume : (move s ⟨c, []⟩ (.resume j)).console =
      (c.cancel (some j.id)).perform s j.task := Console.resume_of_due ha.2
  have hrest : ∀ k, k ∈ (c.cancel (some j.id)).agenda.jobs ↔
      k ∈ c.agenda.jobs ∧ Move.resume j ≠ .resume k := fun k =>
    Console.mem_cancel_resume h.tidy ha.1
  have houtward := h.outward j ha.1
  have hkeeps := Console.keeps_perform (c := c.cancel (some j.id)) s houtward
  rw [hresume] at ht ⊢
  refine ⟨⟨ht, ?_, ?_⟩, ?_, Console.perform_calls s houtward⟩
  · intro k hk
    rcases Console.mem_perform s houtward hk with hk | hk
    · exact h.outward k ((hrest k).1 hk).1
    · exact hk
  · intro k hk hs
    exact h.submits k ((hrest k).1 ((hkeeps.mem k hs).1 hk)).1 hs
  · intro k hs
    rw [hkeeps.mem k hs, hrest k]

theorem aloof_move (h : c.Plain P) (hm : m.Outside) (ha : Allows ⟨c, []⟩ m) :
    Aloof c (move s ⟨c, []⟩ m).console m P := by
  match m, hm with
  | .wait time, _ => exact aloof_aside h trivial trivial ha
  | .resume j, _ => exact aloof_resume h ha
  | .act actions, _ => exact aloof_aside h trivial trivial ha
  | .plan delay actions, _ => exact aloof_aside h trivial trivial ha

/-- A submission has begun if it had before, or the move begins it. -/
theorem Aloof.submitted_iff {c' : Console} (h : Aloof c c' m P) {request : CommandRequest} :
    c'.Submitted request ↔ c.Submitted request ∨ m.submits? = some request := by
  unfold Console.Submitted
  rw [h.calls]
  cases m.submits? with
  | none => simp
  | some q => simp [exists_or, eq_comm]

theorem exists_begun (h : c.Plain P) (ha : Allows ⟨c, []⟩ m) {request : CommandRequest}
    (hm : m.submits? = some request) : ∃ j, m = .resume j ∧ P j := by
  match m, ha, hm with
  | .resume ⟨id, due, .submit q⟩, ha, _ => exact ⟨_, rfl, h.submits _ ha.1 trivial⟩

end World

namespace Cli

namespace Send

variable {p : Send} {s : Server} {c : Console} {t : Turn SendStage} {position : Nat}

/-! ### Turns -/

/-- The form may be sent. -/
def Valid (p : Send) : Prop := (commandForm p.cluster p.command).isValid = true

theorem submit_commandDocument (cluster command : String) : ∃ d,
    (FormGuard.install (commandDocument cluster command)).submit (commandDocument cluster command)
      commandFormId = .ok (FormGuard.judge (commandForm cluster command) {}, d) := ⟨_, rfl⟩

theorem start_of_invalid (h : ¬ p.Valid) (s : Server) (c : Console) :
    (p.start s c).console = c ∧ (p.start s c).stage = .ended (.ok .invalid) := by
  obtain ⟨d, hsubmit⟩ := submit_commandDocument p.cluster p.command
  have hinvalid : ¬ (commandForm p.cluster p.command).isValid = true := h
  unfold start
  simp only [hsubmit, FormGuard.judge, if_neg hinvalid]
  exact ⟨rfl, rfl⟩

theorem start_of_valid (h : p.Valid) (s : Server) (c : Console) :
    (p.start s c).console = ((c.addDispatcher p.delay).ask s).2 ∧
      (p.start s c).stage = .asking (c.after (s.entitlement c.calls).delay)
        (s.entitlement c.calls).result c.dispatchers.length c.page.feed.subscribe := by
  obtain ⟨d, hsubmit⟩ := submit_commandDocument p.cluster p.command
  have hvalid : (commandForm p.cluster p.command).isValid = true := h
  unfold start
  simp only [hsubmit, FormGuard.judge, if_pos hvalid]
  exact ⟨rfl, rfl⟩

/-- What becomes of a form that may be sent, or not. -/
theorem start_cases (p : Send) (s : Server) (c : Console) :
    ((p.start s c).console = ((c.addDispatcher p.delay).ask s).2 ∧
        ∃ due result dispatcher,
          (p.start s c).stage = .asking due result dispatcher c.page.feed.subscribe) ∨
      (p.start s c).console = c ∧ ∃ e, (p.start s c).stage = .ended e ∧ e ≠ .ok .done := by
  by_cases hvalid : p.Valid
  · obtain ⟨hconsole, hstage⟩ := start_of_valid hvalid s c
    exact .inl ⟨hconsole, _, _, _, hstage⟩
  · obtain ⟨hconsole, hstage⟩ := start_of_invalid hvalid s c
    exact .inr ⟨hconsole, _, hstage, nofun⟩

/-- An answer that lets the command through makes it wait for the page to be left. -/
theorem answered_of_entitled {result : Except String EntitlementResponse} (h : Entitled result)
    (p : Send) (c : Console) (dispatcher position : Nat) :
    (p.answered c result dispatcher position).stage = .leaving position := by
  unfold answered Console.conclude
  rw [authorized_iff.2 h]

theorem answered_cases (p : Send) (c : Console) (result : Except String EntitlementResponse)
    (dispatcher position : Nat) :
    (p.answered c result dispatcher position).console =
        (c.conclude dispatcher p.request result).2 ∧
      ((Entitled result ∧ (p.answered c result dispatcher position).stage = .leaving position) ∨
        ∃ e, (p.answered c result dispatcher position).stage = .ended e ∧ e ≠ .ok .done) := by
  by_cases hentitled : Entitled result
  · unfold answered Console.conclude
    rw [authorized_iff.2 hentitled]
    exact ⟨rfl, .inl ⟨hentitled, rfl⟩⟩
  · unfold answered Console.conclude
    cases hanswer : Decision.ofAnswer result with
    | error e => exact ⟨rfl, .inr ⟨_, rfl, nofun⟩⟩
    | ok decision =>
      cases decision with
      | authorized => exact absurd (authorized_iff.1 hanswer) hentitled
      | denied => exact ⟨rfl, .inr ⟨_, rfl, nofun⟩⟩

/-- The command does not wait any more exactly if the page was left, or its feed ended. -/
theorem look_eq_none_iff :
    p.look? c position = none ↔ ¬ c.page.feed.Leaves position ∧ c.page.feed.closed = false := by
  by_cases hleaves : c.page.feed.Leaves position
  · have hfound := Feed.nextNavigation_of_leaves hleaves
    unfold look?
    rw [hfound]
    exact iff_of_false nofun fun h => h.1 hleaves
  · have hfound := Feed.nextNavigation_of_not_leaves hleaves
    unfold look?
    rw [hfound]
    cases c.page.feed.closed with
    | true => exact iff_of_false nofun nofun
    | false => exact iff_of_true rfl ⟨hleaves, rfl⟩

theorem look_some (h : p.look? c position = some t) : t.console = c ∧
    ((∃ e, t.stage = .ended e ∧ e ≠ .ok .done) ∨
      t.stage = .ended (.ok .done) ∧ c.page.feed.Leaves position) := by
  by_cases hleaves : c.page.feed.Leaves position
  · have hfound := Feed.nextNavigation_of_leaves hleaves
    unfold look? at h
    rw [hfound] at h
    cases h
    exact ⟨rfl, .inr ⟨rfl, hleaves⟩⟩
  · have hfound := Feed.nextNavigation_of_not_leaves hleaves
    unfold look? at h
    rw [hfound] at h
    cases hclosed : c.page.feed.closed with
    | true =>
      rw [hclosed] at h
      cases h
      exact ⟨rfl, .inl ⟨_, rfl, nofun⟩⟩
    | false =>
      rw [hclosed] at h
      cases h

theorem keepsTidy (p : Send) (s : Server) : p.activity.KeepsTidy s := by
  intro c stage t ht hturn
  cases stage with
  | start =>
    cases hturn
    rcases start_cases p s c with ⟨hconsole, -⟩ | ⟨hconsole, -⟩
    · rw [hconsole]
      exact (ht.addDispatcher p.delay).record .entitlement
    · rwa [hconsole]
  | asking due result dispatcher position =>
    replace hturn : (if due ≤ c.now then some (p.answered c result dispatcher position) else none) =
        some t := hturn
    split at hturn
    · cases hturn
      rw [(answered_cases p c result dispatcher position).1]
      exact ht.conclude dispatcher p.request result
    · cases hturn
  | leaving position =>
    have hlook : p.look? c position = some t := hturn
    rwa [(look_some hlook).1]
  | ended ending => cases hturn

/-! ### Before the answer -/

variable {c₀ : Console} {es pre post : List Event} {r r' r₁ : Run SendStage} {job : Job Task}
  {m : Move}

theorem takeTurn_elim (h : p.activity.takeTurn? s r = some r') : ∃ t,
    p.turn? s r.console r.stage = some t ∧ r'.console = t.console ∧ r'.stage = t.stage ∧
      r'.ready = true := by
  obtain ⟨t, hturn, rfl⟩ := Option.map_eq_some_iff.1 h
  exact ⟨t, hturn, rfl, rfl, rfl⟩

/-- No jobs come by asking. -/
theorem quiet_ask (h : c.Quiet) (s : Server) (delay : Nat) :
    ((c.addDispatcher delay).ask s).2.Quiet := by
  refine ⟨⟨?_, h.plain.outward, h.plain.submits⟩, fun request => ?_⟩
  · exact (h.plain.tidy.addDispatcher delay).record .entitlement
  · rintro ⟨time, hcall⟩
    rcases List.mem_append.1 hcall with hcall | hcall
    · exact h.calls request ⟨time, hcall⟩
    · cases List.mem_singleton.1 hcall

theorem quiet_move (h : c.Quiet) (hm : m.Outside) (ha : World.Allows ⟨c, []⟩ m) :
    (World.move s ⟨c, []⟩ m).console.Quiet := by
  have haloof := World.aloof_move (s := s) h.plain hm ha
  refine ⟨haloof.plain, fun request hsubmitted => ?_⟩
  rcases haloof.submitted_iff.1 hsubmitted with hbefore | hbegins
  · exact h.calls request hbefore
  · obtain ⟨j, -, hno⟩ := World.exists_begun h.plain ha hbegins
    exact hno

/-! ### After the answer -/

/-- The answer was taken in the run `r₁`, and `job` is the submission. -/
structure Answered (p : Send) (s : Server) (c₀ : Console) (pre : List Event)
    (r₁ : Run SendStage) (job : Job Task) : Prop where
  goes : Goes p.activity s (p.activity.begin c₀) (pre ++ [.turn]) r₁
  stage : r₁.stage = .leaving c₀.page.feed.subscribe
  ready : r₁.ready = true
  mem : job ∈ r₁.console.agenda.jobs
  task : job.task = .submit p.request
  due : job.due = r₁.console.now
  plain : r₁.console.Plain (· = job)
  calls : ∀ request, ¬ r₁.console.Submitted request

/-- The run goes on from `r₁` to `r` while the command waits for the page to be left. -/
structure Underway (p : Send) (s : Server) (r₁ : Run SendStage) (job : Job Task)
    (post : List Event) (r : Run SendStage) : Prop where
  goes : Goes p.activity s r₁ post r
  now : r₁.console.now ≤ r.console.now
  stage : r.stage = r₁.stage
  plain : r.console.Plain (· = job)
  /-- The command is not called again without having to wait. -/
  waits : post = [] ∧ r = r₁ ∨
    post ≠ [] ∧ p.activity.takeTurn? s r₁ = none ∧ r.ready = false
  begun : .other (.resume job) ∈ post ∧ r.console.Submitted p.request ∨
    .other (.resume job) ∉ post ∧ ¬ r.console.Submitted p.request ∧ job ∈ r.console.agenda.jobs

theorem Answered.underway (h : Answered p s c₀ pre r₁ job) : Underway p s r₁ job [] r₁ where
  goes := .nil
  now := Nat.le_refl _
  stage := rfl
  plain := h.plain
  waits := .inl ⟨rfl, rfl⟩
  begun := .inr ⟨nofun, h.calls p.request, h.mem⟩

theorem Underway.other (ha : Answered p s c₀ pre r₁ job) (h : Underway p s r₁ job post r)
    (he : Happens p.activity s r (.other m) r') :
    Underway p s r₁ job (post ++ [.other m]) r' := by
  have hgoes := h.goes.snoc he
  cases he with
  | other ready hready hwaits hm hallows =>
    have haloof := World.aloof_move (s := s) h.plain hm hallows
    have hfalse : ready = false := by
      cases ready with
      | false => rfl
      | true =>
        have hwake := hready rfl
        rw [h.stage, ha.stage] at hwake
        cases hwake
    have hnow : r.console.now ≤ (World.move s ⟨r.console, []⟩ m).console.now :=
      World.now_le_move (w := ⟨r.console, []⟩) hallows
    refine ⟨hgoes, Nat.le_trans h.now hnow, h.stage, haloof.plain, .inr ⟨by simp, ?_, hfalse⟩, ?_⟩
    · rcases h.waits with ⟨-, rfl⟩ | ⟨-, hnone, -⟩
      · exact hwaits ha.ready
      · exact hnone
    · rcases h.begun with ⟨hmem, hsubmitted⟩ | ⟨hmem, hsubmitted, hjob⟩
      · exact .inl ⟨List.mem_append_left _ hmem, haloof.submitted_iff.2 (.inl hsubmitted)⟩
      · by_cases hmove : m = .resume job
        · have hbegins : m.submits? = some p.request := by
            rw [hmove, Move.submits?, ha.task]
            rfl
          exact .inl ⟨by simp [hmove], haloof.submitted_iff.2 (.inr hbegins)⟩
        · have hsubmits : job.task.Submits := by
            rw [ha.task]
            trivial
          refine .inr ⟨?_, ?_, (haloof.jobs job hsubmits).2 ⟨hjob, hmove⟩⟩
          · simpa [eq_comm, hmem] using hmove
          · intro hsubmitted'
            rcases haloof.submitted_iff.1 hsubmitted' with hbefore | hbegins
            · exact hsubmitted hbefore
            · obtain ⟨j, rfl, rfl⟩ := World.exists_begun h.plain hallows hbegins
              exact hmove rfl

theorem Underway.submitted_iff (h : Underway p s r₁ job post r) :
    r.console.Submitted p.request ↔ .other (.resume job) ∈ post := by
  rcases h.begun with ⟨hmem, hsubmitted⟩ | ⟨hmem, hsubmitted, -⟩
  · exact iff_of_true hsubmitted hmem
  · exact iff_of_false hsubmitted hmem

/-- A submission that has not begun is still due. -/
theorem Underway.due (ha : Answered p s c₀ pre r₁ job) (h : Underway p s r₁ job post r)
    (hno : ¬ r.console.Submitted p.request) :
    job ∈ r.console.agenda.jobs ∧ r.console.now = r₁.console.now := by
  rcases h.begun with ⟨-, hsubmitted⟩ | ⟨-, -, hmem⟩
  · exact absurd hsubmitted hno
  · have hle := h.plain.tidy.due job hmem
    rw [ha.due] at hle
    exact ⟨hmem, Nat.le_antisymm hle h.now⟩

/-- A command that finds the page left did not have to wait exactly if it was left before the
answer came. -/
theorem Underway.eq_nil_iff (ha : Answered p s c₀ pre r₁ job) (h : Underway p s r₁ job post r)
    (hleaves : r.console.page.feed.Leaves c₀.page.feed.subscribe) :
    post = [] ↔ r₁.console.page.feed.Leaves c₀.page.feed.subscribe := by
  rcases h.waits with ⟨hpost, rfl⟩ | ⟨hpost, hnone, -⟩
  · exact iff_of_true hpost hleaves
  · have hturn : p.turn? s r₁.console r₁.stage = none := Option.map_eq_none_iff.1 hnone
    rw [ha.stage] at hturn
    exact iff_of_false hpost (look_eq_none_iff.1 hturn).1

/-- A command that is prompt and had to wait has its submission begun. -/
theorem Underway.submitted_of_prompt (ha : Answered p s c₀ pre r₁ job)
    (h : Underway p s r₁ job post r) (hprompt : Prompt r) (hpost : post ≠ []) :
    r.console.Submitted p.request := by
  have hready : r.ready = false := by
    rcases h.waits with ⟨hnil, -⟩ | ⟨-, -, hready⟩
    · exact absurd hnil hpost
    · exact hready
  by_contra hno
  obtain ⟨hmem, hnow⟩ := h.due ha hno
  rcases hprompt with hyes | hlate
  · rw [hready] at hyes
    cases hyes
  · have hlt := hlate job hmem
    rw [ha.due, hnow] at hlt
    exact Nat.lt_irrefl _ hlt

/-! ### The story of a command -/

/-- What is behind a stage of a command that began on the console `c₀`. -/
def Story (p : Send) (s : Server) (c₀ : Console) (es : List Event) (r : Run SendStage) : Prop :=
  match r.stage with
  | .start => r = p.activity.begin c₀
  | .asking _ _ _ position => r.console.Quiet ∧ position = c₀.page.feed.subscribe
  | .leaving _ => ∃ pre post r₁ job, es = pre ++ .turn :: post ∧ Answered p s c₀ pre r₁ job ∧
      Underway p s r₁ job post r
  | .ended _ => True

/-- The submission comes to the agenda, and besides at most the way home. -/
theorem plain_conclude (h : c.Quiet) {result : Except String EntitlementResponse}
    (hresult : Entitled result) (dispatcher : Nat) (request : CommandRequest) :
    let job : Job Task := ⟨c.agenda.nextId, c.now, .submit request⟩
    (c.conclude dispatcher request result).2.Plain (· = job) ∧
      job ∈ (c.conclude dispatcher request result).2.agenda.jobs := by
  intro job
  have ht := h.plain.tidy
  refine ⟨⟨ht.conclude dispatcher request result, ?_, ?_⟩, ?_⟩
  · intro k hk
    exact (Console.mem_conclude ht hk).elim (h.plain.outward k) id
  · intro k hk hsubmits
    rcases (ht.mem_conclude (p := Task.Submits) id hsubmits).1 hk with hk | ⟨-, hjob⟩
    · exact (h.plain.submits k hk hsubmits).elim
    · exact hjob
  · have hsubmits : job.task.Submits := trivial
    exact (ht.mem_conclude (p := Task.Submits) id hsubmits).2 (.inr ⟨hresult, rfl⟩)

theorem answered_turn (hgoes : Goes p.activity s (p.activity.begin c₀) pre r)
    (hquiet : r.console.Quiet) {result : Except String EntitlementResponse} {dispatcher : Nat}
    (hturn : p.activity.takeTurn? s r = some r₁)
    (hconsole : r₁.console = (r.console.conclude dispatcher p.request result).2)
    (hstage : r₁.stage = .leaving c₀.page.feed.subscribe) (hresult : Entitled result) :
    ∃ job, Answered p s c₀ pre r₁ job := by
  obtain ⟨hplain, hmem⟩ := plain_conclude hquiet hresult dispatcher p.request
  obtain ⟨-, -, -, -, hready⟩ := takeTurn_elim hturn
  refine ⟨⟨r.console.agenda.nextId, r.console.now, .submit p.request⟩, ?_⟩
  constructor
  case goes => exact hgoes.snoc (.turn hturn)
  case stage => exact hstage
  case ready => exact hready
  case mem => rwa [hconsole]
  case task => rfl
  case due => rw [hconsole, Console.conclude_now]
  case plain => rwa [hconsole]
  case calls =>
    intro request hsubmitted
    unfold Console.Submitted at hsubmitted
    rw [hconsole, Console.conclude_calls] at hsubmitted
    exact hquiet.calls request hsubmitted

theorem story_turn (hquiet : c₀.Quiet) (hgoes : Goes p.activity s (p.activity.begin c₀) es r)
    (h : Story p s c₀ es r) (hturn : p.activity.takeTurn? s r = some r') :
    Story p s c₀ (es ++ [.turn]) r' := by
  obtain ⟨t, ht, hconsole, hstage, -⟩ := takeTurn_elim hturn
  unfold Story at h ⊢
  cases hs : r.stage with
  | start =>
    rw [hs] at h ht
    replace h : r = p.activity.begin c₀ := h
    obtain rfl : p.start s r.console = t := Option.some.inj ht
    subst h
    rcases start_cases p s c₀ with ⟨hask, due, result, dispatcher, hasking⟩ | ⟨-, e, hended, -⟩
    · rw [hstage, show (p.start s (p.activity.begin c₀).console).stage = _ from hasking]
      refine ⟨?_, rfl⟩
      rw [hconsole, show (p.start s (p.activity.begin c₀).console).console = _ from hask]
      exact quiet_ask hquiet s p.delay
    · rw [hstage, show (p.start s (p.activity.begin c₀).console).stage = _ from hended]
      trivial
  | asking due result dispatcher position =>
    rw [hs] at h ht
    obtain ⟨hq, rfl⟩ := h
    replace ht : (if due ≤ r.console.now then
      some (p.answered r.console result dispatcher c₀.page.feed.subscribe) else none) = some t := ht
    split at ht
    · obtain rfl := Option.some.inj ht
      obtain ⟨hconclude, hcases⟩ :=
        answered_cases p r.console result dispatcher c₀.page.feed.subscribe
      rcases hcases with ⟨hresult, hleaving⟩ | ⟨e, hended, -⟩
      · have hleaving' := hstage.trans hleaving
        obtain ⟨job, hanswered⟩ :=
          answered_turn hgoes hq hturn (hconsole.trans hconclude) hleaving' hresult
        rw [hleaving']
        exact ⟨es, [], r', job, rfl, hanswered, hanswered.underway⟩
      · rw [hstage, hended]
        trivial
    · cases ht
  | leaving position =>
    rw [hs] at ht
    have hlook : p.look? r.console position = some t := ht
    rcases (look_some hlook).2 with ⟨e, hended, -⟩ | ⟨hended, -⟩
    · rw [hstage, hended]
      trivial
    · rw [hstage, hended]
      trivial
  | ended e =>
    rw [hs] at ht
    cases ht

theorem story_other (hgoes : Goes p.activity s (p.activity.begin c₀) es r)
    (h : Story p s c₀ es r) (he : Happens p.activity s r (.other m) r') :
    Story p s c₀ (es ++ [.other m]) r' := by
  have hstage : r'.stage = r.stage := by
    cases he
    rfl
  unfold Story at h ⊢
  cases hs : r.stage with
  | start =>
    rw [hs] at h
    replace h : r = p.activity.begin c₀ := h
    subst h
    cases he with
    | other ready hready hwaits hm hallows => cases hwaits rfl
  | asking due result dispatcher position =>
    rw [hs] at h
    rw [hstage, hs]
    refine ⟨?_, h.2⟩
    cases he with
    | other ready hready hwaits hm hallows => exact quiet_move h.1 hm hallows
  | leaving position =>
    rw [hs] at h
    obtain ⟨pre, post, r₁, job, rfl, hanswered, hunderway⟩ := h
    rw [hstage, hs]
    exact ⟨pre, post ++ [.other m], r₁, job, by simp, hanswered, hunderway.other hanswered he⟩
  | ended e =>
    rw [hstage, hs]
    trivial

theorem story_goes (hquiet : c₀.Quiet) (h : Goes p.activity s (p.activity.begin c₀) es r) :
    Story p s c₀ es r := by
  induction h with
  | nil => exact rfl
  | snoc hgoes he ih =>
    cases he with
    | turn hturn => exact story_turn hquiet hgoes ih hturn
    | other ready hready hwaits hm hallows =>
      exact story_other hgoes ih (.other ready hready hwaits hm hallows)

/-! ### Reports -/

/-- What is behind the report that a command was sent, with which the run `r` goes on to `r'`.
The answer was taken after the events `pre`, and `job` is the submission. -/
structure Report (p : Send) (s : Server) (c₀ : Console) (es : List Event) (r r' : Run SendStage)
    (pre post : List Event) (r₁ : Run SendStage) (job : Job Task) : Prop where
  events : es = pre ++ .turn :: post
  before : Goes p.activity s (p.activity.begin c₀) (pre ++ [.turn]) r₁
  after : Goes p.activity s r₁ post r
  /-- The submission was due at once when the answer came, and nothing had begun. -/
  left : job ∈ r₁.console.agenda.jobs ∧ job.task = .submit p.request ∧ job.due = r₁.console.now ∧
    ∀ request, ¬ r₁.console.Submitted request
  /-- The page was left since the command began. -/
  navigated : r'.console.page.feed.Leaves c₀.page.feed.subscribe
  /-- The submission has begun exactly if its job was done. -/
  begun_iff : r'.console.Submitted p.request ↔ .other (.resume job) ∈ post
  /-- Otherwise it is still due. -/
  due : ¬ r'.console.Submitted p.request →
    job ∈ r'.console.agenda.jobs ∧ r'.console.now = r₁.console.now
  /-- The report comes at once, before anything is done, exactly if somebody left the page
  before the answer came. -/
  early_iff : post = [] ↔ r₁.console.page.feed.Leaves c₀.page.feed.subscribe
  /-- In the order of the program that is the only case in which the submission has not begun. -/
  prompt : Prompt r → (r'.console.Submitted p.request ↔
    ¬ r₁.console.page.feed.Leaves c₀.page.feed.subscribe)

/-- A command is reported as sent when it finds the page left. -/
theorem leaving_of_done (hturn : p.activity.takeTurn? s r = some r')
    (hdone : r'.stage = .ended (.ok .done)) : r'.console = r.console ∧
      ∃ position, r.stage = .leaving position ∧ r.console.page.feed.Leaves position := by
  obtain ⟨t, ht, hconsole, hstage, -⟩ := takeTurn_elim hturn
  have hend : t.stage = .ended (.ok .done) := hstage.symm.trans hdone
  cases hs : r.stage with
  | start =>
    rw [hs] at ht
    obtain rfl : p.start s r.console = t := Option.some.inj ht
    rcases start_cases p s r.console with ⟨-, due, result, dispatcher, hasking⟩ | ⟨-, e, he, hne⟩
    · rw [hasking] at hend
      cases hend
    · rw [he, SendStage.ended.injEq] at hend
      exact absurd hend hne
  | asking due result dispatcher position =>
    rw [hs] at ht
    replace ht : (if due ≤ r.console.now then
      some (p.answered r.console result dispatcher position) else none) = some t := ht
    split at ht
    · obtain rfl := Option.some.inj ht
      rcases (answered_cases p r.console result dispatcher position).2 with
        ⟨-, hleaving⟩ | ⟨e, he, hne⟩
      · rw [hleaving] at hend
        cases hend
      · rw [he, SendStage.ended.injEq] at hend
        exact absurd hend hne
    · cases ht
  | leaving position =>
    rw [hs] at ht
    have hlook : p.look? r.console position = some t := ht
    obtain ⟨hsame, ⟨e, he, hne⟩ | ⟨-, hleaves⟩⟩ := look_some hlook
    · rw [he, SendStage.ended.injEq] at hend
      exact absurd hend hne
    · exact ⟨hconsole.trans hsame, position, rfl, hleaves⟩
  | ended e =>
    rw [hs] at ht
    cases ht

/-- Whenever a command is reported as sent its submission was left to the agenda, and it has
begun unless the page was left before. -/
theorem exists_report (hquiet : c₀.Quiet) (hgoes : Goes p.activity s (p.activity.begin c₀) es r)
    (hturn : Happens p.activity s r .turn r') (hdone : r'.stage = .ended (.ok .done)) :
    ∃ pre post r₁ job, Report p s c₀ es r r' pre post r₁ job := by
  obtain ⟨hturn⟩ := hturn
  obtain ⟨hconsole, position, hstage, hleaves⟩ := leaving_of_done hturn hdone
  have hstory := story_goes hquiet hgoes
  unfold Story at hstory
  rw [hstage] at hstory
  obtain ⟨pre, post, r₁, job, hevents, ha, hu⟩ := hstory
  have hposition : position = c₀.page.feed.subscribe := by
    have hsame := hstage.symm.trans (hu.stage.trans ha.stage)
    exact SendStage.leaving.inj hsame
  subst hposition
  have hearly := hu.eq_nil_iff ha hleaves
  have hprompt : Prompt r → (r.console.Submitted p.request ↔ ¬ post = []) := by
    intro hprompt
    constructor
    · rintro hsubmitted rfl
      have hmem := hu.submitted_iff.1 hsubmitted
      cases hmem
    · exact hu.submitted_of_prompt ha hprompt
  rw [hearly] at hprompt
  refine ⟨pre, post, r₁, job, ?_⟩
  constructor
  case events => exact hevents
  case before => exact ha.goes
  case after => exact hu.goes
  case left => exact ⟨ha.mem, ha.task, ha.due, ha.calls⟩
  case navigated => rwa [hconsole]
  case begun_iff => rw [hconsole, hu.submitted_iff]
  case due =>
    rw [hconsole]
    exact hu.due ha
  case early_iff => exact hearly
  case prompt => rwa [hconsole]

/-- What is behind every report that the command was sent. -/
structure Reports (p : Send) (s : Server) (c₀ : Console) : Prop where
  /-- Whatever happens beside the command, in whatever order. -/
  any : ∀ es r r', Goes p.activity s (p.activity.begin c₀) es r →
    Happens p.activity s r .turn r' → r'.stage = .ended (.ok .done) →
      ∃ pre post r₁ job, Report p s c₀ es r r' pre post r₁ job
  /-- In the order of the program, which is prompt. -/
  own : ∀ duration, (p.activity.run s duration c₀).stage = .ended (.ok .done) →
    ∃ es r pre post r₁ job,
      Report p s c₀ es r (p.activity.run s duration c₀) pre post r₁ job ∧ Prompt r

/-- Whenever a command is reported as sent its submission was left to the agenda. It has begun
unless the page was left before the answer came. -/
theorem reports_of_quiet (hquiet : c₀.Quiet) (p : Send) (s : Server) : Reports p s c₀ := by
  constructor
  case any =>
    intro es r r' hgoes hturn hdone
    exact exists_report hquiet hgoes hturn hdone
  case own =>
    intro duration hdone
    have hend : (p.activity.ending? (p.activity.run s duration c₀).stage).isSome = true := by
      rw [hdone]
      rfl
    have hsteps := run_of_ended hend
    rw [hsteps] at hend hdone ⊢
    obtain ⟨es, r, hgoes, hprompt, hturn⟩ :=
      exists_last_turn (keepsTidy p s) (r := p.activity.begin c₀) hquiet.plain.tidy rfl hend
    obtain ⟨pre, post, r₁, job, hreport⟩ := exists_report hquiet hgoes (.turn hturn) hdone
    exact ⟨es, r, pre, post, r₁, job, hreport, hprompt⟩

theorem quiet_ofPage (page : Page) : (Console.ofPage page).Quiet where
  plain := ⟨Console.tidy_ofPage page, nofun, nofun⟩
  calls _ h := h.elim nofun

/-- Everybody is entitled, but has to wait for the answer. -/
def slow : Server where
  entitlement _ := { delay := 800, result := .ok .entitled }
  submission _ _ := none
  view _ _ := { result := .error "" }

/-- A console whose page somebody is going to leave. -/
def restless : Console := (Console.ofPage World.consolePage).schedule 500 (.act [.navigate "/early"])

theorem reports_of_quiet_restless :
    let p : Send := ⟨"c", "k", 1000⟩
    let r := p.activity.run slow 3000 restless
    p.activity.ending? r.stage = some (.ok .done) ∧ r.console.calls = [⟨0, .entitlement⟩] ∧
      Reports p slow restless := by
  intro p r
  have hquiet : restless.Quiet :=
    quiet_move (s := slow) (m := .plan 500 [.navigate "/early"]) (quiet_ofPage World.consolePage)
      trivial trivial
  exact ⟨by decide +kernel, by decide +kernel, reports_of_quiet hquiet p slow⟩

end Send

end Cli

end ClusterConsole
