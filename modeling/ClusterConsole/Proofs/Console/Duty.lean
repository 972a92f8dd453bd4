import Mathlib.Data.List.InsertIdx
import ClusterConsole.Proofs.Console.Redirect
import ClusterConsole.Proofs.Console.Timer

/-! What a console has still to do, as far as anybody can tell. The answer of a submission
does nothing when its time comes, and the identifier of a job says nothing but who armed it.
So a duty is a task with its time and its owners, and the duties of a console are those of all
its jobs but the answers. Every operation does to the duties what it does to the jobs,
whatever answers there are and whatever identifiers they have used up. -/

namespace ClusterConsole

def Task.isAnswer : Task → Bool
  | .submitted _ => true
  | _ => false

/-- A task, and for each controller and each dispatcher whether it armed the job. -/
structure Duty where
  task : Task
  timers : List Bool
  redirects : List Bool

/-! ### Owners of a job -/

/-- For each handle, whether it is that of a job. -/
def marks (handles : List (Option Nat)) (id : Nat) : List Bool := handles.map (· == some id)

section

variable {handles : List (Option Nat)} {handle : Option Nat} {i id : Nat}

theorem marks_set :
    marks (handles.set i handle) id = (marks handles id).set i (handle == some id) :=
  List.map_set

@[simp] theorem marks_append_none :
    marks (handles ++ [none]) id = marks handles id ++ [false] := by
  simp [marks]

/-- Nobody holds a job that is still to come. -/
theorem marks_fresh (h : ∀ id, some id ∈ handles → id < i) :
    marks handles i = List.replicate handles.length false := by
  refine List.eq_replicate_iff.2 ⟨List.length_map _, fun mark hmark => ?_⟩
  obtain ⟨handle, hmem, rfl⟩ := List.mem_map.1 hmark
  refine beq_false_of_ne ?_
  rintro rfl
  exact Nat.lt_irrefl _ (h i hmem)

theorem getElem?_marks (hi : handles[i]? = some handle) :
    (marks handles id)[i]? = some (handle == some id) := by
  rw [marks, List.getElem?_map, hi, Option.map_some]

/-- A handle is of no account for a job that it is not the handle of. -/
theorem marks_set_of_ne (hi : handles[i]? = some handle) (hold : some id ≠ handle)
    {new : Option Nat} (hnew : some id ≠ new) :
    marks (handles.set i new) id = marks handles id := by
  have hat : (marks handles id)[i]? = some false := by
    rw [getElem?_marks hi, beq_false_of_ne hold.symm]
  obtain ⟨hlt, hat⟩ := List.getElem?_eq_some_iff.1 hat
  rw [marks_set, beq_false_of_ne hnew.symm, ← hat, List.set_getElem_self]

end

/-! ### Duties -/

/-- The identifier of a duty says nothing. -/
def dutyOf (timers redirects : List (Option Nat)) (j : Job Task) : Job Duty where
  id := 0
  due := j.due
  task := ⟨j.task, marks timers j.id, marks redirects j.id⟩

/-- The jobs that are duties. -/
def outward (jobs : List (Job Task)) : List (Job Task) := jobs.filter (!·.task.isAnswer)

def dutiesOf (jobs : List (Job Task)) (timers redirects : List (Option Nat)) : List (Job Duty) :=
  (outward jobs).map (dutyOf timers redirects)

section

variable {jobs : List (Job Task)} {j : Job Task}
  {timers timers' redirects redirects' : List (Option Nat)} {handle : Option Nat} {i : Nat}

theorem mem_outward : j ∈ outward jobs ↔ j ∈ jobs ∧ j.task.isAnswer = false := by
  simp [outward]

theorem dutiesOf_insert (hj : j.task.isAnswer = false) (h : jobs.Pairwise (·.due ≤ ·.due)) :
    dutiesOf (Agenda.insert j jobs) timers redirects =
      Agenda.insert (dutyOf timers redirects j) (dutiesOf jobs timers redirects) := by
  rw [dutiesOf, outward, Agenda.insert_filter_of_pos (by simpa using hj) h]
  exact Agenda.insert_map (f := dutyOf timers redirects) (fun _ => rfl) _ _

theorem dutiesOf_insert_answer (hj : j.task.isAnswer = true) :
    dutiesOf (Agenda.insert j jobs) timers redirects = dutiesOf jobs timers redirects := by
  rw [dutiesOf, outward, Agenda.insert_filter_of_neg (by simpa using hj)]
  rfl

theorem dutiesOf_congr
    (h : ∀ j ∈ jobs, dutyOf timers' redirects' j = dutyOf timers redirects j) :
    dutiesOf jobs timers' redirects' = dutiesOf jobs timers redirects :=
  List.map_congr_left fun j hj => h j (mem_outward.1 hj).1

theorem outward_filter (keep : Job Task → Bool) :
    outward (jobs.filter keep) = (outward jobs).filter keep := by
  simp only [outward, List.filter_filter, Bool.and_comm]

/-- To take jobs away takes their duties away. -/
theorem dutiesOf_filter {keep : Job Task → Bool} {keepDuty : Job Duty → Bool}
    (h : ∀ j ∈ jobs, keepDuty (dutyOf timers redirects j) = keep j) :
    dutiesOf (jobs.filter keep) timers redirects =
      (dutiesOf jobs timers redirects).filter keepDuty := by
  rw [dutiesOf, outward_filter, dutiesOf, List.filter_map]
  refine congrArg _ (List.filter_congr fun j hj => ?_)
  exact (h j (mem_outward.1 hj).1).symm

/-- A handle that is given up takes its duty away, whatever comes in its place. -/
theorem dutiesOf_reset (owners : Duty → List Bool) {handles : List (Option Nat)}
    (howners : ∀ j, owners (dutyOf timers redirects j).task = marks handles j.id)
    (hi : handles[i]? = some handle)
    (hsame : ∀ j ∈ jobs, some j.id ≠ handle →
      dutyOf timers' redirects' j = dutyOf timers redirects j) :
    dutiesOf (jobs.filter (some ·.id != handle)) timers' redirects' =
      (dutiesOf jobs timers redirects).filter fun d => (owners d.task)[i]? != some true := by
  have hkept : ∀ j ∈ jobs.filter (some ·.id != handle),
      dutyOf timers' redirects' j = dutyOf timers redirects j := by
    intro j hj
    obtain ⟨hmem, hne⟩ := List.mem_filter.1 hj
    exact hsame j hmem (bne_iff_ne.1 hne)
  rw [dutiesOf_congr hkept]
  refine dutiesOf_filter fun j _ => Bool.eq_iff_iff.2 ?_
  rw [howners, getElem?_marks hi]
  simp only [bne_iff_ne, ne_eq, Option.some.injEq, beq_iff_eq]
  exact not_congr eq_comm

end

namespace Console

variable {c d : Console} {i : Nat} {j : Job Task}

def duties (c : Console) : List (Job Duty) := dutiesOf c.agenda.jobs c.timers c.redirects

theorem duties_congr (ha : d.agenda = c.agenda) (ht : d.timers = c.timers)
    (hr : d.redirects = c.redirects) : d.duties = c.duties := by
  rw [duties, ha, ht, hr, duties]

theorem cancel_jobs (c : Console) (job : Option Nat) :
    (c.cancel job).agenda.jobs = c.agenda.jobs.filter (some ·.id != job) := by
  cases job with
  | none => exact (List.filter_eq_self.2 fun _ _ => rfl).symm
  | some id => exact List.filter_congr fun _ _ => Bool.eq_iff_iff.2 (by simp)

theorem getElem?_duties {n : Nat} (hj : (outward c.agenda.jobs)[n]? = some j) :
    c.duties[n]? = some (dutyOf c.timers c.redirects j) := by
  rw [duties, dutiesOf, List.getElem?_map, hj, Option.map_some]

/-! ### Jobs that are scheduled -/

/-- A duty that is nobody's timer and nobody's redirect. -/
def unowned (c : Console) (due : Nat) (task : Task) : Job Duty where
  id := 0
  due
  task := ⟨task, .replicate c.controllers.length false, .replicate c.dispatchers.length false⟩

theorem Tidy.marks_timers (h : c.Tidy) :
    marks c.timers c.agenda.nextId = List.replicate c.controllers.length false :=
  (marks_fresh h.timers.old).trans (by rw [List.length_map])

theorem Tidy.marks_redirects (h : c.Tidy) :
    marks c.redirects c.agenda.nextId = List.replicate c.dispatchers.length false :=
  (marks_fresh h.redirects.old).trans (by rw [List.length_map])

theorem Tidy.duties_schedule (h : c.Tidy) (delay : Nat) {task : Task}
    (ht : task.isAnswer = false) : (c.schedule delay task).duties =
      Agenda.insert (c.unowned (c.after delay) task) c.duties := by
  rw [unowned, ← h.marks_timers, ← h.marks_redirects]
  exact dutiesOf_insert ht h.ordered.sorted

theorem duties_schedule_answer (delay : Nat) {task : Task} (ht : task.isAnswer = true) :
    (c.schedule delay task).duties = c.duties :=
  dutiesOf_insert_answer ht

/-! ### Timers and redirects -/

theorem length_timers {d : Job Duty} (hd : d ∈ c.duties) :
    d.task.timers.length = c.controllers.length := by
  obtain ⟨j, -, rfl⟩ := List.mem_map.1 hd
  simp [dutyOf, marks, timers]

theorem duties_disarm :
    (c.disarm i).duties = c.duties.filter (·.task.timers[i]? != some true) := by
  cases hk : c.controllers[i]? with
  | none =>
    rw [disarm_of_none hk]
    refine (List.filter_eq_self.2 fun d hd => ?_).symm
    have hlen : d.task.timers.length ≤ i := by
      rw [length_timers hd]
      exact List.getElem?_eq_none_iff.1 hk
    rw [List.getElem?_eq_none hlen]
    rfl
  | some k =>
    have htimers : (c.disarm i).timers = c.timers.set i none := by
      rw [disarm_of_some hk, Console.timers, List.map_set, Console.timers]
    have hjobs : (c.disarm i).agenda.jobs = c.agenda.jobs.filter (some ·.id != k.timer) := by
      rw [disarm_of_some hk, ← cancel_jobs]
    rw [duties, hjobs, htimers, redirects_of_dispatchers (disarm_dispatchers c i)]
    refine dutiesOf_reset Duty.timers (fun _ => rfl) (getElem?_timer hk) fun j _ hne => ?_
    have hmarks := marks_set_of_ne (getElem?_timer hk) hne (Option.some_ne_none j.id)
    simp only [dutyOf, Console.timers, hmarks]

/-- A job of one kind is given up, and a new one armed in its place. -/
theorem Tidy.duties_replace (h : c.Tidy) {kind : Task} (hkind : kind.isAnswer = false)
    (owners : Duty → List Bool) {handles timers redirects : List (Option Nat)}
    {handle : Option Nat} (due : Nat)
    (howners : ∀ j, owners (dutyOf c.timers c.redirects j).task = marks handles j.id)
    (hi : handles[i]? = some handle)
    (hsame : ∀ j ∈ c.agenda.jobs, some j.id ≠ handle →
      dutyOf timers redirects j = dutyOf c.timers c.redirects j) :
    dutiesOf ((c.cancel handle).agenda.schedule due kind).jobs timers redirects =
      Agenda.insert (dutyOf timers redirects ⟨c.agenda.nextId, due, kind⟩)
        (c.duties.filter fun d => (owners d.task)[i]? != some true) := by
  rw [duties, ← dutiesOf_reset owners howners hi hsame, ← cancel_jobs, ← cancel_nextId c handle]
  exact dutiesOf_insert hkind (h.cancel handle).ordered.sorted

theorem Tidy.ne_nextId (h : c.Tidy) (hj : j ∈ c.agenda.jobs) :
    some j.id ≠ some c.agenda.nextId := by
  have hlt := h.ordered.fresh j hj
  simp only [ne_eq, Option.some.injEq]
  omega

/-- A timer that is armed is a duty of its controller alone. -/
theorem Tidy.duties_arm (h : c.Tidy) {k : Controller} (hk : c.controllers[i]? = some k) :
    (c.arm i).duties = Agenda.insert
      ⟨0, c.after k.interval, .reload, (List.replicate c.controllers.length false).set i true,
        .replicate c.dispatchers.length false⟩
      (c.duties.filter (·.task.timers[i]? != some true)) := by
  have hsame : ∀ j ∈ c.agenda.jobs, some j.id ≠ k.timer →
      dutyOf (c.timers.set i (some c.agenda.nextId)) c.redirects j =
        dutyOf c.timers c.redirects j := by
    intro j hj hne
    have hmarks := marks_set_of_ne (getElem?_timer hk) hne (h.ne_nextId hj)
    simp only [dutyOf, Console.timers, hmarks]
  calc (c.arm i).duties
      = dutiesOf ((c.cancel k.timer).agenda.schedule (c.after k.interval) .reload).jobs
          (c.timers.set i (some c.agenda.nextId)) c.redirects := by
        rw [arm_of_some hk, duties, Console.timers, List.map_set]
        rfl
    _ = _ := h.duties_replace rfl Duty.timers _ (fun _ => rfl) (getElem?_timer hk) hsame
    _ = _ := by rw [dutyOf, marks_set, h.marks_timers, h.marks_redirects, beq_self_eq_true]

theorem Tidy.duties_armRedirect (h : c.Tidy) {d : Dispatcher} (hd : c.dispatchers[i]? = some d) :
    (c.armRedirect i).duties = Agenda.insert
      ⟨0, c.after d.delay, .goHome, .replicate c.controllers.length false,
        (List.replicate c.dispatchers.length false).set i true⟩
      (c.duties.filter (·.task.redirects[i]? != some true)) := by
  have hsame : ∀ j ∈ c.agenda.jobs, some j.id ≠ d.redirect →
      dutyOf c.timers (c.redirects.set i (some c.agenda.nextId)) j =
        dutyOf c.timers c.redirects j := by
    intro j hj hne
    have hmarks := marks_set_of_ne (getElem?_redirect hd) hne (h.ne_nextId hj)
    simp only [dutyOf, Console.redirects, hmarks]
  calc (c.armRedirect i).duties
      = dutiesOf ((c.cancel d.redirect).agenda.schedule (c.after d.delay) .goHome).jobs
          c.timers (c.redirects.set i (some c.agenda.nextId)) := by
        rw [armRedirect_of_some hd, duties, Console.redirects, List.map_set]
        rfl
    _ = _ := h.duties_replace rfl Duty.redirects _ (fun _ => rfl) (getElem?_redirect hd) hsame
    _ = _ := by rw [dutyOf, marks_set, h.marks_timers, h.marks_redirects, beq_self_eq_true]

theorem duties_addController (interval : Nat) : (c.addController interval).duties =
    c.duties.map fun d => { d with task.timers := d.task.timers ++ [false] } := by
  rw [duties, dutiesOf, duties, dutiesOf, List.map_map]
  refine List.map_congr_left fun j _ => ?_
  simp [addController, Console.timers, dutyOf, Console.redirects]

theorem duties_addDispatcher (delay : Nat) : (c.addDispatcher delay).duties =
    c.duties.map fun d => { d with task.redirects := d.task.redirects ++ [false] } := by
  rw [duties, dutiesOf, duties, dutiesOf, List.map_map]
  refine List.map_congr_left fun j _ => ?_
  simp [addDispatcher, Console.timers, dutyOf, Console.redirects]

/-! ### Jobs that are done -/

theorem filter_id_eq_eraseIdx {jobs : List (Job Task)} (h : (jobs.map (·.id)).Nodup) {n : Nat}
    (hj : jobs[n]? = some j) : jobs.filter (some ·.id != some j.id) = jobs.eraseIdx n := by
  induction jobs generalizing n with
  | nil => simp at hj
  | cons k rest ih =>
    obtain ⟨hk, hrest⟩ := List.nodup_cons.1 h
    cases n with
    | zero =>
      obtain rfl : k = j := by simpa using hj
      rw [List.filter_cons_of_neg (by simp), List.eraseIdx_zero, List.tail_cons]
      refine List.filter_eq_self.2 fun l hl => bne_iff_ne.2 fun he => hk ?_
      exact List.mem_map.2 ⟨l, hl, Option.some.inj he⟩
    | succ n =>
      have hne : some k.id ≠ some j.id := fun he =>
        hk (List.mem_map.2 ⟨j, List.mem_of_getElem? hj, (Option.some.inj he).symm⟩)
      rw [List.filter_cons, if_pos (bne_iff_ne.2 hne), ih hrest hj, List.eraseIdx_cons_succ]

theorem Tidy.duties_cancel (h : c.Tidy) {n : Nat} (hj : (outward c.agenda.jobs)[n]? = some j) :
    (c.cancel (some j.id)).duties = c.duties.eraseIdx n := by
  have hdistinct : ((outward c.agenda.jobs).map (·.id)).Nodup :=
    h.ordered.distinct.sublist (List.filter_sublist.map _)
  rw [duties, cancel_jobs, dutiesOf, outward_filter, filter_id_eq_eraseIdx hdistinct hj,
    ← List.eraseIdx_map]
  rfl

/-- An answer is no duty. -/
theorem Tidy.duties_cancel_answer (h : c.Tidy) (hj : j ∈ c.agenda.jobs)
    (ha : j.task.isAnswer = true) : (c.cancel (some j.id)).duties = c.duties := by
  rw [duties, cancel_jobs, dutiesOf, outward_filter, List.filter_eq_self.2 fun k hk => ?_]
  · rfl
  · obtain ⟨hmem, hno⟩ := mem_outward.1 hk
    refine bne_iff_ne.2 fun he => ?_
    rw [h.ordered.eq_of_id_eq hmem hj (Option.some.inj he), ha] at hno
    cases hno

/-! ### Jobs that wait -/

/-- The job of an owner waits if one of the duties is marked with it. -/
theorem any_holds {handles : List (Option Nat)} {handle : Option Nat} {kind : Task}
    (h : Held c.agenda handles kind) (hkind : kind.isAnswer = false)
    (hi : handles[i]? = some handle) : c.isPending handle =
      (outward c.agenda.jobs).any fun j => (marks handles j.id)[i]? == some true := by
  simp only [getElem?_marks hi]
  refine Bool.eq_iff_iff.2 ?_
  simp only [isPending, Option.any_eq_true, Agenda.holds_iff, List.any_eq_true, mem_outward]
  constructor
  · rintro ⟨id, rfl, j, hj, rfl⟩
    have htask := h.kind_of_mem j hj (List.mem_of_getElem? hi)
    exact ⟨j, ⟨hj, htask ▸ hkind⟩, by simp⟩
  · rintro ⟨j, ⟨hj, -⟩, hmark⟩
    exact ⟨j.id, by simpa using hmark, j, hj, rfl⟩

theorem Tidy.isPending_timer (h : c.Tidy) {k : Controller} (hk : c.controllers[i]? = some k) :
    c.isPending k.timer = c.duties.any (·.task.timers[i]? == some true) := by
  rw [duties, dutiesOf, List.any_map]
  exact any_holds h.timers rfl (getElem?_timer hk)

theorem Tidy.isPending_redirect (h : c.Tidy) {d : Dispatcher} (hd : c.dispatchers[i]? = some d) :
    c.isPending d.redirect = c.duties.any (·.task.redirects[i]? == some true) := by
  rw [duties, dutiesOf, List.any_map]
  exact any_holds h.redirects rfl (getElem?_redirect hd)

end Console

end ClusterConsole
