import Mathlib.Data.List.InsertIdx
import ClusterConsole.Proofs.Console.Calls

/-! What an operation leaves on a console that asked the server and comes to nothing. A console
without it has one call less, its job does nothing, and its end is not among those of the completed
dispatches. To take it away and to go on are the same in either order, if the server answers as if
it had been asked. -/

namespace ClusterConsole

/-- An operation is known by the number of its call, by the job that brings its answer, and by the
place of its end among the completed dispatches. -/
structure Footprint where
  call : Nat
  job? : Option Nat := none
  completion? : Option Nat := none
  deriving DecidableEq, Repr

/-- The server answers as if it had been asked another time, before the call with a number. -/
def Server.askedBefore (s : Server) (call : Nat) (record : CallRecord) : Server where
  entitlement calls := s.entitlement (calls.insertIdx call record)
  submission calls := s.submission (calls.insertIdx call record)
  view calls := s.view (calls.insertIdx call record)

/-- The job of the operation does nothing. -/
def Footprint.idle (x : Footprint) (j : Job Task) : Job Task :=
  if x.job? = some j.id then { j with task := .act [] } else j

def Footprint.idleAll (x : Footprint) (a : Agenda Task) : Agenda Task :=
  { a with jobs := a.jobs.map x.idle }

/-- The console on which the operation has left nothing. -/
def Console.without (x : Footprint) (c : Console) : Console :=
  { c with
    calls := c.calls.eraseIdx x.call
    agenda := x.idleAll c.agenda
    completed := x.completion?.elim c.completed c.completed.eraseIdx }

/-- The operation has left its footprint. -/
structure Footprint.On (x : Footprint) (record : CallRecord) (c : Console) : Prop where
  call : c.calls[x.call]? = some record
  job : ∀ id, x.job? = some id → id < c.agenda.nextId
  completion : ∀ k, x.completion? = some k → k < c.completed.length

/-- Nothing is taken back: calls and ends stay, and no identifier is given away again. -/
structure Console.Extends (c c' : Console) : Prop where
  calls : c.calls <+: c'.calls
  completed : c.completed <+: c'.completed
  nextId : c.agenda.nextId ≤ c'.agenda.nextId
  jobs : ∀ j ∈ c'.agenda.jobs, j ∈ c.agenda.jobs ∨ c.agenda.nextId ≤ j.id

theorem eraseIdx_concat_length {α : Type} (l : List α) (a : α) :
    (l ++ [a]).eraseIdx l.length = l := by
  rw [List.eraseIdx_eq_dropLast (by simp), List.dropLast_concat]

namespace Footprint

variable {x : Footprint} {record : CallRecord} {j : Job Task} {a : Agenda Task} {c : Console}

/-! ### Jobs -/

@[simp] theorem idle_id (x : Footprint) (j : Job Task) : (x.idle j).id = j.id := by
  unfold idle
  split <;> rfl

@[simp] theorem idle_due (x : Footprint) (j : Job Task) : (x.idle j).due = j.due := by
  unfold idle
  split <;> rfl

theorem idle_of_ne (h : x.job? ≠ some j.id) : x.idle j = j := if_neg h

theorem idleAll_of_none (h : x.job? = none) (a : Agenda Task) : x.idleAll a = a := by
  have hsame : ∀ j ∈ a.jobs, x.idle j = j := fun j _ => idle_of_ne (by rw [h]; nofun)
  rw [idleAll, List.map_congr_left hsame, List.map_id']

theorem idleAll_cancel (x : Footprint) (a : Agenda Task) (id : Nat) :
    x.idleAll (a.cancel id) = (x.idleAll a).cancel id := by
  simp only [idleAll, Agenda.cancel, List.filter_map, Function.comp_def, idle_id]

theorem idleAll_schedule (h : x.job? ≠ some a.nextId) (due : Nat) (task : Task) :
    x.idleAll (a.schedule due task) = (x.idleAll a).schedule due task := by
  have hnew : x.idle ⟨a.nextId, due, task⟩ = ⟨a.nextId, due, task⟩ := idle_of_ne h
  simp only [idleAll, Agenda.schedule, Agenda.insert_map (idle_due x), hnew]

theorem idleAll_schedule_own (ha : a.Ordered) (hid : x.job? = some a.nextId) (due : Nat)
    (task : Task) : x.idleAll (a.schedule due task) = a.schedule due (.act []) := by
  have hold : ∀ j ∈ a.jobs, x.idle j = j := fun j hj => idle_of_ne fun hj' =>
    Nat.ne_of_gt (ha.fresh j hj) (Option.some.inj (hid.symm.trans hj'))
  have hnew : x.idle ⟨a.nextId, due, task⟩ = ⟨a.nextId, due, .act []⟩ := if_pos hid
  simp only [idleAll, Agenda.schedule, Agenda.insert_map (idle_due x), hnew,
    List.map_congr_left hold, List.map_id']

theorem mem_idleAll : j ∈ (x.idleAll a).jobs ↔ ∃ k ∈ a.jobs, x.idle k = j := List.mem_map

theorem On.extends {c' : Console} (h : x.On record c) (hextends : c.Extends c') :
    x.On record c' where
  call := by
    obtain ⟨more, hmore⟩ := hextends.calls
    have hlt : x.call < c.calls.length := (List.getElem?_eq_some_iff.1 h.call).1
    rw [← hmore, List.getElem?_append_left hlt, h.call]
  job id hid := Nat.lt_of_lt_of_le (h.job id hid) hextends.nextId
  completion k hk := Nat.lt_of_lt_of_le (h.completion k hk) hextends.completed.length_le

end Footprint

namespace Console

variable {c c' c'' : Console} {i : Nat}

/-! ### What stays -/

theorem Extends.of_eq (hcalls : c'.calls = c.calls) (hcompleted : c'.completed = c.completed)
    (hagenda : c'.agenda = c.agenda) : c.Extends c' where
  calls := hcalls ▸ List.prefix_refl _
  completed := hcompleted ▸ List.prefix_refl _
  nextId := hagenda ▸ Nat.le_refl _
  jobs _ hj := .inl (hagenda ▸ hj)

theorem Extends.trans (h : c.Extends c') (h' : c'.Extends c'') : c.Extends c'' where
  calls := h.calls.trans h'.calls
  completed := h.completed.trans h'.completed
  nextId := Nat.le_trans h.nextId h'.nextId
  jobs j hj := (h'.jobs j hj).elim (h.jobs j) fun hnew => .inr (Nat.le_trans h.nextId hnew)

theorem extends_cancel (c : Console) (job : Option Nat) : c.Extends (c.cancel job) where
  calls := List.prefix_refl _
  completed := List.prefix_refl _
  nextId := Nat.le_of_eq (cancel_nextId c job).symm
  jobs _ hj := .inl ((mem_cancel c job).1 hj).1

theorem extends_schedule (c : Console) (delay : Nat) (task : Task) :
    c.Extends (c.schedule delay task) where
  calls := List.prefix_refl _
  completed := List.prefix_refl _
  nextId := Nat.le_succ _
  jobs j hj := by
    rcases Agenda.mem_schedule.1 hj with rfl | hj
    · exact .inr (Nat.le_refl _)
    · exact .inl hj

theorem extends_record (c : Console) (call : Call) : c.Extends (c.record call) where
  calls := List.prefix_append _ _
  completed := List.prefix_refl _
  nextId := Nat.le_refl _
  jobs _ hj := .inl hj

theorem extends_disarm (c : Console) (i : Nat) : c.Extends (c.disarm i) := by
  cases hk : c.controllers[i]? with
  | none =>
    rw [disarm_of_none hk]
    exact .of_eq rfl rfl rfl
  | some k =>
    rw [disarm_of_some hk]
    exact (extends_cancel c k.timer).trans (.of_eq rfl rfl rfl)

theorem extends_arm (c : Console) (i : Nat) : c.Extends (c.arm i) := by
  cases hk : c.controllers[i]? with
  | none =>
    rw [arm_of_none hk]
    exact .of_eq rfl rfl rfl
  | some k =>
    rw [arm_of_some hk]
    exact ((extends_cancel c k.timer).trans (extends_schedule _ _ _)).trans (.of_eq rfl rfl rfl)

theorem extends_armRedirect (c : Console) (i : Nat) : c.Extends (c.armRedirect i) := by
  cases hd : c.dispatchers[i]? with
  | none =>
    rw [armRedirect_of_none hd]
    exact .of_eq rfl rfl rfl
  | some d =>
    rw [armRedirect_of_some hd]
    exact ((extends_cancel c d.redirect).trans (extends_schedule _ _ _)).trans (.of_eq rfl rfl rfl)

theorem extends_navigate (c : Console) (target : String) : c.Extends (c.navigate target) :=
  .of_eq (navigate_calls c target) (by simp only [navigate]) (navigate_agenda c target)

theorem extends_pageLoaded (c : Console) (i : Nat) : c.Extends (c.pageLoaded i) := by
  unfold pageLoaded
  split
  · exact (extends_arm c i).trans (.of_eq rfl rfl rfl)
  · exact .of_eq rfl rfl rfl

theorem extends_toggle (c : Console) (i : Nat) (checked : Bool) :
    c.Extends (c.toggle i checked) := by
  unfold toggle
  split
  · have hpage : c.Extends { c with page := c.page.replace ("#" ++ autoReloadFragment) } :=
      .of_eq rfl rfl rfl
    exact (hpage.trans (extends_arm _ i)).trans (.of_eq rfl rfl rfl)
  · have hpage : c.Extends { c with page := c.page.replace Route.home } := .of_eq rfl rfl rfl
    exact (hpage.trans (extends_disarm _ i)).trans (.of_eq rfl rfl rfl)

theorem extends_conclude (c : Console) (i : Nat) (request : CommandRequest)
    (result : Except String EntitlementResponse) :
    c.Extends (c.conclude i request result).2 := by
  unfold conclude
  split
  · exact .of_eq rfl rfl rfl
  · exact extends_navigate c _
  · exact (extends_schedule c 0 _).trans (extends_armRedirect _ i)

theorem extends_enforce (c : Console) (result : Except String EntitlementResponse) :
    c.Extends (c.enforce result).2 := by
  unfold enforce
  split
  · exact extends_navigate c _
  · exact .of_eq rfl rfl rfl

theorem extends_submit (c : Console) (s : Server) (request : CommandRequest) :
    c.Extends (c.submit s request) := by
  unfold submit
  split
  · exact extends_record c _
  · exact (extends_record c _).trans (extends_schedule _ _ _)

theorem extends_perform (c : Console) (s : Server) (task : Task) :
    c.Extends (c.perform s task) := by
  cases task with
  | submit request => exact extends_submit c s request
  | dispatch i request => exact (extends_record c .entitlement).trans (extends_schedule _ _ _)
  | conclude i request result =>
    obtain ⟨hcalls, hcompleted, hnextId, hjobs⟩ := extends_conclude c i request result
    exact ⟨hcalls, hcompleted.trans (List.prefix_append _ _), hnextId, hjobs⟩
  | _ => exact .of_eq rfl rfl rfl

end Console

namespace Console

variable {x : Footprint} {record : CallRecord} {c : Console} {i : Nat} {request : CommandRequest}
  {result : Except String EntitlementResponse} {s : Server}

/-! ### Timers -/

theorem without_cancel (x : Footprint) (c : Console) (job : Option Nat) :
    (c.cancel job).without x = (c.without x).cancel job := by
  cases job with
  | none => rfl
  | some id => simp only [cancel, without, Option.elim_some, Footprint.idleAll_cancel]

theorem without_schedule (h : x.On record c) (delay : Nat) (task : Task) :
    (c.schedule delay task).without x = (c.without x).schedule delay task := by
  have hnew : x.job? ≠ some c.agenda.nextId := fun hid => Nat.lt_irrefl _ (h.job _ hid)
  simp only [schedule, without, after, Footprint.idleAll_schedule hnew]

theorem without_disarm (x : Footprint) (c : Console) (i : Nat) :
    (c.disarm i).without x = (c.without x).disarm i := by
  cases hk : c.controllers[i]? with
  | none => rw [disarm_of_none hk, disarm_of_none (c := c.without x) hk]
  | some k =>
    rw [disarm_of_some hk, disarm_of_some (c := c.without x) hk, ← without_cancel]
    rfl

theorem without_arm (h : x.On record c) (i : Nat) :
    (c.arm i).without x = (c.without x).arm i := by
  cases hk : c.controllers[i]? with
  | none => rw [arm_of_none hk, arm_of_none (c := c.without x) hk]
  | some k =>
    have hcancel := h.extends (extends_cancel c k.timer)
    rw [arm_of_some hk, arm_of_some (c := c.without x) hk, ← without_cancel,
      ← without_schedule hcancel]
    rfl

theorem without_pageLoaded (h : x.On record c) (i : Nat) :
    (c.pageLoaded i).without x = (c.without x).pageLoaded i := by
  unfold pageLoaded
  rw [← without_arm h]
  exact apply_ite (Console.without x) _ _ _

theorem without_toggle (h : x.On record c) (i : Nat) (checked : Bool) :
    (c.toggle i checked).without x = (c.without x).toggle i checked := by
  unfold toggle
  cases checked with
  | true =>
    have harm := without_arm (c := { c with page := c.page.replace ("#" ++ autoReloadFragment) })
      ⟨h.call, h.job, h.completion⟩ i
    exact congrArg (Console.setState · i .on) harm
  | false =>
    have hdisarm := without_disarm x { c with page := c.page.replace Route.home } i
    exact congrArg (Console.setState · i .off) hdisarm

/-! ### Calls and commands -/

theorem without_record (h : x.On record c) (call : Call) :
    (c.record call).without x = (c.without x).record call := by
  have hlt : x.call < c.calls.length := (List.getElem?_eq_some_iff.1 h.call).1
  simp only [Console.record, without, List.eraseIdx_append_of_lt_length hlt]

/-- A call that is taken back at once leaves nothing. -/
theorem without_own_record (c : Console) (call : Call) :
    (c.record call).without { call := c.calls.length } = c := by
  simp only [Console.record, without, eraseIdx_concat_length, Footprint.idleAll_of_none,
    Option.elim_none]

/-- What the server is told is the same. -/
theorem insertIdx_without (h : x.On record c) :
    (c.without x).calls.insertIdx x.call record = c.calls := by
  obtain ⟨hlt, hcall⟩ := List.getElem?_eq_some_iff.1 h.call
  rw [← hcall]
  exact List.insertIdx_eraseIdx_getElem hlt

theorem without_armRedirect (h : x.On record c) (i : Nat) :
    (c.armRedirect i).without x = (c.without x).armRedirect i := by
  cases hd : c.dispatchers[i]? with
  | none => rw [armRedirect_of_none hd, armRedirect_of_none (c := c.without x) hd]
  | some d =>
    have hcancel := h.extends (extends_cancel c d.redirect)
    rw [armRedirect_of_some hd, armRedirect_of_some (c := c.without x) hd, ← without_cancel,
      ← without_schedule hcancel]
    rfl

theorem without_conclude (h : x.On record c) (i : Nat) (request : CommandRequest)
    (result : Except String EntitlementResponse) :
    (c.conclude i request result).1 = ((c.without x).conclude i request result).1 ∧
      (c.conclude i request result).2.without x =
        ((c.without x).conclude i request result).2 := by
  unfold conclude
  cases Decision.ofAnswer result with
  | error e => exact ⟨rfl, rfl⟩
  | ok decision =>
    cases decision with
    | denied => exact ⟨rfl, rfl⟩
    | authorized =>
      refine ⟨rfl, ?_⟩
      have hschedule := h.extends (extends_schedule c 0 (.submit request))
      exact (without_armRedirect hschedule i).trans
        (congrArg (Console.armRedirect · i) (without_schedule h 0 _))

theorem without_enforce (x : Footprint) (c : Console)
    (result : Except String EntitlementResponse) :
    (c.enforce result).1 = ((c.without x).enforce result).1 ∧
      (c.enforce result).2.without x = ((c.without x).enforce result).2 := by
  unfold enforce
  split
  · exact ⟨rfl, rfl⟩
  · exact ⟨rfl, rfl⟩

theorem without_submit (h : x.On record c) (s : Server) (request : CommandRequest) :
    (c.submit s request).without x =
      (c.without x).submit (s.askedBefore x.call record) request := by
  have htold : (s.askedBefore x.call record).submission (c.without x).calls request =
      s.submission c.calls request := congrArg (s.submission · request) (insertIdx_without h)
  unfold submit
  rw [htold]
  split
  · exact without_record h _
  · rw [without_schedule (h.extends (extends_record c _)), without_record h]

/-! ### Jobs that are done -/

theorem without_perform (h : x.On record c) (s : Server) (task : Task) :
    (c.perform s task).without x =
      (c.without x).perform (s.askedBefore x.call record) task := by
  cases task with
  | submit request => exact without_submit h s request
  | dispatch i request =>
    have htold : (s.askedBefore x.call record).entitlement (c.without x).calls =
        s.entitlement c.calls := congrArg s.entitlement (insertIdx_without h)
    simp only [perform, ask, htold]
    rw [without_schedule (h.extends (extends_record c _)), without_record h]
  | conclude i request result =>
    obtain ⟨houtcome, hconclude⟩ := without_conclude h i request result
    simp only [perform, ← houtcome, ← hconclude]
    cases hk : x.completion? with
    | none => simp only [without, hk, Option.elim_none]
    | some k =>
      have hlt : k < (c.conclude i request result).2.completed.length :=
        (h.extends (extends_conclude c i request result)).completion k hk
      simp only [without, hk, Option.elim_some, List.eraseIdx_append_of_lt_length hlt]
  | _ => rfl

theorem extends_take (c : Console) (j : Job Task) :
    c.Extends { c with now := max c.now j.due, agenda := c.agenda.cancel j.id } :=
  ⟨List.prefix_refl _, List.prefix_refl _, Nat.le_refl _,
    fun _ hj => .inl (Agenda.mem_cancel.1 hj).1⟩

theorem extends_resume (c : Console) (s : Server) (j : Job Task) : c.Extends (c.resume s j) :=
  (extends_take c j).trans (extends_perform _ s j.task)

theorem without_resume (h : x.On record c) (s : Server) (j : Job Task) :
    (c.resume s j).without x = (c.without x).resume (s.askedBefore x.call record) j := by
  unfold resume
  rw [without_perform (h.extends (extends_take c j))]
  simp only [without, Footprint.idleAll_cancel]

/-! ### The end of the operation -/

/-- An error is kept with the completed dispatches, and nothing else is done with it. -/
theorem resume_error (c : Console) (s : Server) {j : Job Task} {source : String}
    (htask : j.task = .conclude i request (.error source)) : c.resume s j =
      { c with
        now := max c.now j.due
        agenda := c.agenda.cancel j.id
        completed := c.completed ++
          [⟨max c.now j.due, request.command, .error (.entitlementCheck source)⟩] } := by
  rw [resume, htask]
  rfl

/-- Without the operation, that job does nothing. -/
theorem without_resume_error (s : Server) {j : Job Task} {source : String}
    (htask : j.task = .conclude i request (.error source)) (hid : x.job? = some j.id)
    (hnone : x.completion? = none) :
    (c.resume s j).without { x with completion? := some c.completed.length } =
      (c.without x).resume (s.askedBefore x.call record) (x.idle j) := by
  have hidle : x.idle j = { j with task := .act [] } := if_pos hid
  rw [resume_error c s htask, hidle]
  simp only [without, resume, hnone, Option.elim_some, Option.elim_none, eraseIdx_concat_length]
  exact congrArg (fun agenda => { c with
    now := max c.now j.due, calls := c.calls.eraseIdx x.call, agenda })
    (Footprint.idleAll_cancel x c.agenda j.id)

end Console

end ClusterConsole
