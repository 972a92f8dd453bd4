import ClusterConsole.Cli.Entitled
import ClusterConsole.Proofs.Cli.Sent
import ClusterConsole.Proofs.Cli.Watching

/-! The course of the commands, from a page on which nothing else has begun: the calls that each of
them has made by a stage, and the ways in which it may end. -/

namespace ClusterConsole

namespace Console

variable {c : Console}

/-- The calls that were made, in their order. -/
def made (c : Console) : List Call := c.calls.map CallRecord.call

/-- Nothing but what others do to the page is left to be done, no submission in particular. -/
abbrev Idle (c : Console) : Prop := c.Plain fun _ => False

/-- These calls were made, and no submission is left to be done. -/
structure Settled (c : Console) (calls : List Call) : Prop where
  made : c.made = calls
  idle : c.Idle

theorem settled_ofPage (page : Page) : (ofPage page).Settled [] :=
  ⟨rfl, tidy_ofPage page, nofun, nofun⟩

theorem Settled.calls (h : Settled c []) : c.calls = [] := List.map_eq_nil_iff.1 h.made

theorem Settled.addDispatcher {calls : List Call} (h : c.Settled calls) (delay : Nat) :
    (c.addDispatcher delay).Settled calls :=
  ⟨h.made, h.idle.tidy.addDispatcher delay, h.idle.outward, h.idle.submits⟩

theorem Settled.ask (h : c.Settled []) (s : Server) : (c.ask s).2.Settled [.entitlement] where
  made := by
    have hmade : (c.ask s).2.made = c.made ++ [.entitlement] := List.map_append
    rw [hmade, h.made]
    rfl
  idle := ⟨h.idle.tidy.record .entitlement, h.idle.outward, h.idle.submits⟩

/-- A time has come, and nothing was submitted before it. -/
structure SubmitsFrom (c : Console) (time : Nat) : Prop where
  now : time ≤ c.now
  calls : ∀ record ∈ c.calls, ∀ request, record.call = .submit request → time ≤ record.time

theorem mem_made {record : CallRecord} {call : Call} (h : record ∈ c.calls)
    (hcall : record.call = call) : call ∈ c.made := hcall ▸ List.mem_map_of_mem h

theorem Settled.submitsFrom {time : Nat} (h : c.Settled [.entitlement]) (hnow : time ≤ c.now) :
    c.SubmitsFrom time where
  now := hnow
  calls record hrecord request hcall := by
    have hmem := mem_made hrecord hcall
    rw [h.made] at hmem
    cases List.mem_singleton.1 hmem

end Console

namespace World

variable {s : Server} {c : Console} {m : Move} {P : Job Task → Prop}

theorem submitsFrom_move {time : Nat} (h : c.SubmitsFrom time) (ha : Allows ⟨c, []⟩ m) :
    (move s ⟨c, []⟩ m).console.SubmitsFrom time := by
  constructor
  case now => exact Nat.le_trans h.now (now_le_move ha)
  case calls =>
    rw [calls_move s ha]
    intro record hrecord request hcall
    rcases List.mem_append.1 hrecord with hold | hnew
    · exact h.calls record hold request hcall
    · obtain ⟨call, -, rfl⟩ := Option.map_eq_some_iff.1 (Option.mem_toList.1 hnew)
      exact h.now

theorem Aloof.made {c' : Console} (h : Aloof c c' m P) :
    c'.made = c.made ++ (m.submits?.map Call.submit).toList := by
  unfold Console.made
  rw [h.calls, List.map_append]
  cases m.submits? <;> rfl

/-- On such a console others make no call. -/
theorem settled_move {calls : List Call} (h : c.Settled calls) (hm : m.Outside)
    (ha : Allows ⟨c, []⟩ m) : (move s ⟨c, []⟩ m).console.Settled calls := by
  have haloof := aloof_move (s := s) h.idle hm ha
  have hnone : m.submits? = none := by
    cases hsubmits : m.submits? with
    | none => rfl
    | some request =>
      obtain ⟨_, -, hno⟩ := exists_begun h.idle ha hsubmits
      exact hno.elim
  have hmade := haloof.made
  rw [hnone, h.made] at hmade
  exact ⟨hmade.trans (List.append_nil _), haloof.plain⟩

end World

namespace Cli

namespace Send

variable {p : Send} {s : Server} {c : Console} {page : Page} {m : Move} {e : Ending}
  {es : List Event} {r r' : Run SendStage}

/-! ### Sending -/

/-- No answer to the first check comes before this time. -/
def answerTime (s : Server) : Nat := min (s.entitlement []).delay Console.longestWait

/-- The submission is left to the agenda, or it has begun. -/
def Pays (p : Send) (c : Console) : Prop :=
  (c.made = [.entitlement] ∧ ∃ job : Job Task, job.task = .submit p.request ∧ c.Plain (· = job)) ∨
    c.Settled [.entitlement, .submit p.request]

/-- The answer to the check is on its way. -/
structure Asks (p : Send) (s : Server) (c : Console) (due : Nat)
    (result : Except String EntitlementResponse) : Prop where
  valid : p.Valid
  result_eq : result = (s.entitlement []).result
  settled : c.Settled [.entitlement]
  answerTime_le : answerTime s ≤ due

/-- The answer let the command through. -/
structure Passed (p : Send) (s : Server) (c : Console) : Prop where
  valid : p.Valid
  entitled : Entitled (s.entitlement []).result
  pays : p.Pays c
  submitsFrom : c.SubmitsFrom (answerTime s)

/-- What is behind an ending. -/
inductive Ends (p : Send) (s : Server) (c : Console) : Ending → Prop
  | invalid (h : ¬ p.Valid) (hsettled : c.Settled []) : Ends p s c (.ok .invalid)
  | failed (h : p.Valid) {source : String} (hresult : (s.entitlement []).result = .error source)
      (hsettled : c.Settled [.entitlement]) :
      Ends p s c (.error (.console (.entitlementCheck source)))
  | denied (h : p.Valid) {response : EntitlementResponse}
      (hresult : (s.entitlement []).result = .ok response) (hno : response.isEntitled = false)
      (hsettled : c.Settled [.entitlement]) : Ends p s c (.ok .denied)
  | done (h : p.Passed s c) : Ends p s c (.ok .done)
  | closed (h : p.Passed s c) : Ends p s c (.error .pageClosed)

/-- What is behind a stage. -/
def Course (p : Send) (s : Server) (c : Console) : SendStage → Prop
  | .start => c.Settled []
  | .asking due result _ _ => p.Asks s c due result
  | .leaving _ => p.Passed s c
  | .ended e => p.Ends s c e

theorem course_start (h : p.Course s c .start) :
    p.Course s (p.start s c).console (p.start s c).stage := by
  replace h : c.Settled [] := h
  by_cases hvalid : p.Valid
  · obtain ⟨hconsole, hstage⟩ := start_of_valid hvalid s c
    rw [hconsole, hstage, h.calls]
    exact ⟨hvalid, rfl, (h.addDispatcher p.delay).ask s, Nat.le_add_left _ _⟩
  · obtain ⟨hconsole, hstage⟩ := start_of_invalid hvalid s c
    rw [hconsole, hstage]
    exact .invalid hvalid h

theorem settled_conclude {calls : List Call} (h : c.Settled calls)
    {result : Except String EntitlementResponse} (hno : ¬ Entitled result) (dispatcher : Nat)
    (request : CommandRequest) : (c.conclude dispatcher request result).2.Settled calls := by
  have hagenda : (c.conclude dispatcher request result).2.agenda = c.agenda :=
    Console.conclude_agenda hno
  refine ⟨?_, h.idle.tidy.conclude dispatcher request result, ?_, ?_⟩
  · rw [Console.made, Console.conclude_calls]
    exact h.made
  · rw [hagenda]
    exact h.idle.outward
  · rw [hagenda]
    exact h.idle.submits

/-- An answer that lets the command through leaves the submission to the agenda. -/
theorem pays_conclude (h : c.Settled [.entitlement]) {result : Except String EntitlementResponse}
    (hresult : Entitled result) (dispatcher : Nat) :
    p.Pays (c.conclude dispatcher p.request result).2 := by
  have hquiet : c.Quiet := by
    refine ⟨h.idle, ?_⟩
    rintro request ⟨time, hcall⟩
    have hmem : Call.submit request ∈ c.made := List.mem_map_of_mem hcall
    rw [h.made] at hmem
    cases List.mem_singleton.1 hmem
  refine .inl ⟨?_, _, rfl, (plain_conclude hquiet hresult dispatcher p.request).1⟩
  rw [Console.made, Console.conclude_calls]
  exact h.made

/-- The answer decides how the command goes on. -/
theorem course_answered {due : Nat} {result : Except String EntitlementResponse}
    (h : p.Asks s c due result) (hdue : due ≤ c.now) (dispatcher position : Nat) :
    p.Course s (p.answered c result dispatcher position).console
      (p.answered c result dispatcher position).stage := by
  obtain ⟨hvalid, rfl, hsettled, htime⟩ := h
  rw [(answered_cases p c (s.entitlement []).result dispatcher position).1]
  by_cases hentitled : Entitled (s.entitlement []).result
  · have hfrom := hsettled.submitsFrom (Nat.le_trans htime hdue)
    rw [answered_of_entitled hentitled]
    refine ⟨hvalid, hentitled, pays_conclude hsettled hentitled dispatcher, ?_, ?_⟩
    · rw [Console.conclude_now]
      exact hfrom.now
    · rw [Console.conclude_calls]
      exact hfrom.calls
  · have hsettled' := settled_conclude hsettled hentitled dispatcher p.request
    cases hresult : (s.entitlement []).result with
    | error source =>
      rw [hresult] at hsettled'
      exact .failed hvalid hresult hsettled'
    | ok response =>
      have hno : response.isEntitled = false :=
        eq_false_of_ne_true fun hyes => hentitled ⟨response, hresult, hyes⟩
      have hstage : (p.answered c (.ok response) dispatcher position).stage =
          .ended (.ok .denied) := by
        unfold answered Console.conclude
        rw [Decision.ofAnswer_denied hno]
      rw [hresult] at hsettled'
      rw [hstage]
      exact .denied hvalid hresult hno hsettled'

theorem course_turn {stage : SendStage} {t : Turn SendStage} (h : p.Course s c stage)
    (hturn : p.turn? s c stage = some t) : p.Course s t.console t.stage := by
  cases stage with
  | start =>
    cases hturn
    exact course_start h
  | asking due result dispatcher position =>
    replace hturn : (if due ≤ c.now then some (p.answered c result dispatcher position)
      else none) = some t := hturn
    split at hturn
    · next hdue =>
      cases hturn
      exact course_answered h hdue dispatcher position
    · cases hturn
  | leaving position =>
    have hlook : p.look? c position = some t := hturn
    unfold look? at hlook
    split at hlook
    · cases hlook
    · cases hlook
      exact .closed h
    · cases hlook
      exact .done h
  | ended e => cases hturn

/-! ### Beside others -/

theorem Pays.move (h : p.Pays c) (hm : m.Outside) (ha : World.Allows ⟨c, []⟩ m) :
    p.Pays (World.move s ⟨c, []⟩ m).console := by
  rcases h with ⟨hmade, job, htask, hplain⟩ | hsettled
  · have haloof := World.aloof_move (s := s) hplain hm ha
    have hmade' := haloof.made
    rw [hmade] at hmade'
    cases hsubmits : m.submits? with
    | none =>
      rw [hsubmits] at hmade'
      exact .inl ⟨hmade', job, htask, haloof.plain⟩
    | some request =>
      obtain ⟨_, rfl, rfl⟩ := World.exists_begun hplain ha hsubmits
      obtain rfl : p.request = request := by
        rw [Move.submits?, htask] at hsubmits
        exact Option.some.inj hsubmits
      rw [hsubmits] at hmade'
      refine .inr ⟨hmade', haloof.plain.tidy, haloof.plain.outward, fun k hk hs => ?_⟩
      obtain rfl := haloof.plain.submits k hk hs
      exact ((haloof.jobs k hs).1 hk).2 rfl
  · exact .inr (World.settled_move hsettled hm ha)

theorem Passed.move (h : p.Passed s c) (hm : m.Outside) (ha : World.Allows ⟨c, []⟩ m) :
    p.Passed s (World.move s ⟨c, []⟩ m).console :=
  ⟨h.valid, h.entitled, h.pays.move hm ha, World.submitsFrom_move h.submitsFrom ha⟩

theorem course_other {stage : SendStage} (h : p.Course s c stage) (hm : m.Outside)
    (ha : World.Allows ⟨c, []⟩ m) : p.Course s (World.move s ⟨c, []⟩ m).console stage := by
  cases stage with
  | start => exact World.settled_move h hm ha
  | asking due result dispatcher position =>
    obtain ⟨hvalid, hresult, hsettled, htime⟩ := h
    exact ⟨hvalid, hresult, World.settled_move hsettled hm ha, htime⟩
  | leaving position => exact Passed.move h hm ha
  | ended e =>
    replace h : p.Ends s c e := h
    cases h with
    | invalid hvalid hsettled => exact .invalid hvalid (World.settled_move hsettled hm ha)
    | failed hvalid hresult hsettled =>
      exact .failed hvalid hresult (World.settled_move hsettled hm ha)
    | denied hvalid hresult hno hsettled =>
      exact .denied hvalid hresult hno (World.settled_move hsettled hm ha)
    | done hpassed => exact .done (hpassed.move hm ha)
    | closed hpassed => exact .closed (hpassed.move hm ha)

theorem course_goes (h : Goes p.activity s (p.activity.begin (.ofPage page)) es r) :
    p.Course s r.console r.stage := by
  induction h with
  | nil => exact Console.settled_ofPage page
  | snoc _ he ih =>
    cases he with
    | turn hturn =>
      obtain ⟨t, ht, hconsole, hstage, -⟩ := takeTurn_elim hturn
      rw [hconsole, hstage]
      exact course_turn ih ht
    | other ready hready hwaits hm ha => exact course_other ih hm ha

/-- What is submitted is submitted when the answer has come. -/
theorem Course.answerTime_le {stage : SendStage} (h : p.Course s c stage) {record : CallRecord}
    (hrecord : record ∈ c.calls) {request : CommandRequest}
    (hcall : record.call = .submit request) :
    answerTime s ≤ record.time := by
  have hmem := Console.mem_made hrecord hcall
  have hsettled {calls : List Call} (hs : c.Settled calls) (hno : .submit request ∉ calls) :
      answerTime s ≤ record.time := absurd (hs.made ▸ hmem) hno
  cases stage with
  | start => exact hsettled h nofun
  | asking due result dispatcher position => exact hsettled (Asks.settled h) (by simp)
  | leaving position => exact (Passed.submitsFrom h).calls record hrecord request hcall
  | ended e =>
    replace h : p.Ends s c e := h
    cases h with
    | invalid _ hs => exact hsettled hs nofun
    | failed _ _ hs => exact hsettled hs (by simp)
    | denied _ _ _ hs => exact hsettled hs (by simp)
    | done hpassed => exact hpassed.submitsFrom.calls record hrecord request hcall
    | closed hpassed => exact hpassed.submitsFrom.calls record hrecord request hcall

end Send

namespace Entitled

variable {s : Server} {c : Console} {page : Page} {m : Move} {es : List Event}
  {stage : EntitledStage} {t : Turn EntitledStage} {r : Run EntitledStage}

/-! ### Asking -/

/-- How the command ends with an answer. -/
def ending : Except String EntitlementResponse → Ending
  | .error source => .error (.console (.entitlementCheck source))
  | .ok response => if response.isEntitled then .ok .done else .ok .denied

/-- What is behind a stage. -/
def Course (s : Server) (c : Console) : EntitledStage → Prop
  | .start => c.Settled []
  | .asking _ result => result = (s.entitlement []).result ∧ c.Settled [.entitlement]
  | .ended e => e = ending (s.entitlement []).result ∧ c.Settled [.entitlement]

theorem answered_eq (c : Console) (result : Except String EntitlementResponse) :
    (answered c result).console = (c.enforce result).2 ∧
      (answered c result).stage = .ended (ending result) := by
  cases result with
  | error source => exact ⟨rfl, rfl⟩
  | ok response =>
    unfold answered ending Console.enforce Decision.ofAnswer
    dsimp only
    cases response.isEntitled <;> exact ⟨rfl, rfl⟩

theorem settled_enforce {calls : List Call} (h : c.Settled calls)
    (result : Except String EntitlementResponse) : (c.enforce result).2.Settled calls := by
  refine ⟨?_, h.idle.tidy.enforce result, ?_, ?_⟩
  · rw [Console.made, Console.enforce_calls]
    exact h.made
  · rw [Console.enforce_agenda]
    exact h.idle.outward
  · rw [Console.enforce_agenda]
    exact h.idle.submits

theorem course_turn (h : Course s c stage) (hturn : turn? s c stage = some t) :
    Course s t.console t.stage := by
  cases stage with
  | start =>
    cases hturn
    replace h : c.Settled [] := h
    exact ⟨congrArg (fun calls => (s.entitlement calls).result) h.calls, h.ask s⟩
  | asking due result =>
    obtain ⟨rfl, hsettled⟩ := h
    replace hturn : (if due ≤ c.now then some (answered c (s.entitlement []).result) else none) =
        some t := hturn
    split at hturn
    · cases hturn
      obtain ⟨hconsole, hstage⟩ := answered_eq c (s.entitlement []).result
      rw [hconsole, hstage]
      exact ⟨rfl, settled_enforce hsettled _⟩
    · cases hturn
  | ended e => cases hturn

theorem course_other (h : Course s c stage) (hm : m.Outside) (ha : World.Allows ⟨c, []⟩ m) :
    Course s (World.move s ⟨c, []⟩ m).console stage := by
  cases stage with
  | start => exact World.settled_move h hm ha
  | _ => exact ⟨h.1, World.settled_move h.2 hm ha⟩

theorem course_goes (h : Goes activity s (activity.begin (.ofPage page)) es r) :
    Course s r.console r.stage := by
  induction h with
  | nil => exact Console.settled_ofPage page
  | snoc _ he ih =>
    cases he with
    | turn hturn =>
      obtain ⟨t, ht, rfl⟩ := Option.map_eq_some_iff.1 hturn
      exact course_turn ih ht
    | other ready hready hwaits hm ha => exact course_other ih hm ha

theorem keepsTidy (s : Server) : activity.KeepsTidy s := by
  intro c stage t ht hturn
  cases stage with
  | start =>
    cases hturn
    exact ht.record .entitlement
  | asking due result =>
    replace hturn : (if due ≤ c.now then some (answered c result) else none) = some t := hturn
    split at hturn
    · cases hturn
      rw [(answered_eq c result).1]
      exact ht.enforce result
    · cases hturn
  | ended e => cases hturn

end Entitled

namespace Watch

variable {p : Watch} {s : Server} {c : Console} {page : Page} {m : Move} {es : List Event}
  {ds new : List Deed} {stage stage' : WatchStage} {r r' : Run WatchStage}

/-! ### Watching -/

theorem calls_stop (p : Watch) (c : Console) (stage : WatchStage) :
    (p.activity.stop c stage).calls = c.calls := by
  cases stage with
  | waiting controller => exact Console.disarm_calls c controller
  | _ => rfl

/-- Nothing is left to be done but reloads and what others do to the page. -/
def Mute (c : Console) : Prop := ∀ j ∈ c.agenda.jobs, j.task = .reload ∨ ∃ as, j.task = .act as

theorem mute_aside {w : World} (h : Mute w.console) (ht : w.console.Tidy) (hm : m.Aside) :
    Mute (w.move s m).console := by
  have hkeeps := World.keeps_move (s := s)
    (p := fun task => ¬ (task = .reload ∨ ∃ as, task = .act as)) ht hm (fun hno => hno (.inl rfl))
    fun actions hno => hno (.inr ⟨actions, rfl⟩)
  intro j hj
  by_contra hno
  exact hno (h j ((hkeeps.mem j hno).1 hj))

theorem mute_run {w : World} {ms : List Move} (h : Mute w.console) (ht : w.console.Tidy)
    (hl : World.Lawful s w ms) (hms : ∀ m ∈ ms, m.Aside) : Mute (w.run s ms).console := by
  induction ms generalizing w with
  | nil => exact h
  | cons m ms ih =>
    have hm := hms m List.mem_cons_self
    exact ih (mute_aside h ht hm) (World.tidy_move ht hl.1) hl.2
      fun x hx => hms x (List.mem_cons_of_mem m hx)

theorem mute_outside (h : Mute c) (ht : c.Tidy) (hm : m.Outside) (ha : World.Allows ⟨c, []⟩ m) :
    Mute (World.move s ⟨c, []⟩ m).console ∧ m.call? = none := by
  match m, hm with
  | .wait time, _ => exact ⟨mute_aside (w := ⟨c, []⟩) h ht trivial, rfl⟩
  | .act actions, _ => exact ⟨mute_aside (w := ⟨c, []⟩) h ht trivial, rfl⟩
  | .plan delay actions, _ => exact ⟨mute_aside (w := ⟨c, []⟩) h ht trivial, rfl⟩
  | .resume ⟨id, due, task⟩, _ =>
    have hcancel : ∀ j ∈ (c.agenda.cancel id).jobs, j.task = .reload ∨ ∃ as, j.task = .act as :=
      fun j hj => h j (List.mem_filter.1 hj).1
    rcases h _ ha.1 with rfl | ⟨actions, rfl⟩
    · exact ⟨hcancel, rfl⟩
    · exact ⟨hcancel, rfl⟩

/-- In a turn the server is called for one view at most, that of the page. -/
theorem Does.calls (h : Does p s c stage new stage') :
    (moves new).filterMap Move.call? = [] ∨
      (moves new).filterMap Move.call? = [.view c.page.location.text] := by
  have hopening : ∀ enable, (p.opening c enable).filterMap Move.call? = [] := by
    intro enable
    unfold opening
    cases enable && !c.page.location.isOn <;> rfl
  cases h with
  | start => exact .inr rfl
  | on =>
    rw [moves_does]
    exact .inl (hopening _)
  | off =>
    rw [moves_does, List.filterMap_append, hopening]
    exact .inl rfl
  | reloaded => exact .inr rfl
  | _ => exact .inl rfl

theorem Does.aside (h : Does p s c stage new stage') : ∀ m ∈ moves new, m.Aside := by
  intro m hm
  have htends := h.tends m hm
  match m, htends with
  | .view _, _ | .addController _, _ | .pageLoaded _, _ | .toggle _ _, _ | .dropController _, _ =>
    trivial

/-- The command ends as done or fails. -/
theorem Does.ending {e : Ending} (h : Does p s c stage new (.ended e)) :
    e = .ok .done ∨ ∃ error, e = .error error := by
  generalize hnext : WatchStage.ended e = next at h
  cases h with
  | start => cases hnext
  | on => cases hnext
  | reloaded => cases hnext
  | closed =>
    cases hnext
    exact .inr ⟨_, rfl⟩
  | failed =>
    cases hnext
    exact .inr ⟨_, rfl⟩
  | _ =>
    cases hnext
    exact .inl rfl

/-- What is behind a run. -/
structure Course (r : Run WatchStage) : Prop where
  tidy : r.console.Tidy
  mute : Mute r.console
  ending : ∀ e, r.stage = .ended e → e = .ok .done ∨ ∃ error, e = .error error

/-- Whatever happens, the server is called for the view of the page or not at all. -/
theorem Course.step {e : Event} (h : Course r) (he : Happens p.activity s r e r') : Course r' ∧
    (r'.console.made = r.console.made ∨
      r'.console.made = r.console.made ++ [.view r.console.page.location.text]) := by
  cases he with
  | turn hturn =>
    obtain ⟨t, ht, rfl⟩ := Option.map_eq_some_iff.1 hturn
    obtain ⟨new, hdoes, hrun⟩ := performs_of_turn ht
    have hl := hdoes.lawful (s := s) ⟨r.console, []⟩
    have htidy := World.tidy_run (w := ⟨r.console, []⟩) h.tidy hl
    have hmute := mute_run (w := ⟨r.console, []⟩) h.mute h.tidy hl hdoes.aside
    have hmade := World.calls_run hl
    rw [hrun] at htidy hmute hmade
    refine ⟨⟨htidy, hmute, fun e hended => ?_⟩, ?_⟩
    · rw [show t.stage = .ended e from hended] at hdoes
      exact hdoes.ending
    · rcases hdoes.calls with hnone | hview
      · rw [hnone, List.append_nil] at hmade
        exact .inl hmade
      · rw [hview] at hmade
        exact .inr hmade
  | other ready hready hwaits hm ha =>
    have htidy := World.tidy_move (s := s) (w := ⟨r.console, []⟩) h.tidy ha
    obtain ⟨hmute, hcall⟩ := mute_outside (s := s) h.mute h.tidy hm ha
    have hmade := congrArg (List.map CallRecord.call)
      (World.calls_move (w := ⟨r.console, []⟩) s ha)
    rw [hcall] at hmade
    exact ⟨⟨htidy, hmute, h.ending⟩, .inl (hmade.trans (List.map_append.trans (List.append_nil _)))⟩

theorem course_begin (p : Watch) (page : Page) : Course (p.activity.begin (.ofPage page)) :=
  ⟨Console.tidy_ofPage page, nofun, nofun⟩

theorem course_goes (h : Goes p.activity s (p.activity.begin (.ofPage page)) es r) : Course r := by
  induction h with
  | nil => exact course_begin p page
  | snoc _ he ih => exact (ih.step he).1

/-- Every call is for the view of the page where it was when the call was made. -/
theorem exists_of_call (h : Goes p.activity s (p.activity.begin (.ofPage page)) es r)
    {before : List Call} {call : Call} (hcall : before ++ [call] <+: r.console.made) :
    ∃ pre r₁, pre <+: es ∧ Goes p.activity s (p.activity.begin (.ofPage page)) pre r₁ ∧
      r₁.console.made = before ∧ call = .view r₁.console.page.location.text := by
  induction h with
  | nil => exact absurd (List.prefix_nil.1 hcall) (List.append_ne_nil_of_right_ne_nil _ nofun)
  | @snoc es e r r' hgoes he ih =>
    have hprefix : es <+: es ++ [e] := List.prefix_append es [e]
    have hnew : before ++ [call] <+: r.console.made ∨
        before ++ [call] = r.console.made ++ [.view r.console.page.location.text] := by
      rcases ((course_goes hgoes).step he).2 with hsame | hview
      · rw [hsame] at hcall
        exact .inl hcall
      · rw [hview] at hcall
        exact (List.prefix_concat_iff.1 hcall).symm
    rcases hnew with hold | hlast
    · obtain ⟨pre, r₁, hpre, hfound⟩ := ih hold
      exact ⟨pre, r₁, hpre.trans hprefix, hfound⟩
    · obtain ⟨hbefore, hview⟩ := List.append_inj' hlast rfl
      exact ⟨es, r, hprefix, hgoes, hbefore.symm, List.singleton_inj.1 hview⟩

end Watch

end Cli

end ClusterConsole
