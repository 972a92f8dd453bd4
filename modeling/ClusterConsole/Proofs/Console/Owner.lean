import Mathlib.Data.List.Induction
import ClusterConsole.Proofs.Console.Work

/-! Owners of jobs. An owner has a handle, the identifier of the job that it took last. A move
may reset an owner, which then gives up its job and may take another one; all other owners
stay as they are. So a job waits on the agenda until it is done, at its time, or until its
owner is reset, and a job that is gone never comes back. -/

namespace ClusterConsole

/-! ### One step -/

/-- The owner `i` gives up its job, and a new one may take the place. -/
structure Reset (a b : Agenda Task) (before after : List (Option Nat)) (kind : Task) (i : Nat)
    (new : Option (Job Task)) : Prop where
  nextId : a.nextId ≤ b.nextId
  fresh : ∀ j ∈ new, j.task = kind ∧ a.nextId ≤ j.id ∧ j.id < b.nextId
  handles : after = before.set i (new.map (·.id))
  jobs : ∀ j : Job Task, j.task = kind →
    (j ∈ b.jobs ↔ new = some j ∨ j ∈ a.jobs ∧ before[i]? ≠ some (some j.id))

/-- Every owner stays as it is, and new ones own nothing yet. Jobs may be done. -/
structure Spared (a b : Agenda Task) (before after : List (Option Nat)) (kind : Task)
    (done : Nat → Bool) : Prop where
  nextId : a.nextId ≤ b.nextId
  handles : ∃ new : List (Option Nat), after = before ++ new ∧ ∀ h ∈ new, h = none
  jobs : ∀ j : Job Task, j.task = kind → (j ∈ b.jobs ↔ j ∈ a.jobs ∧ done j.id = false)

section

variable {a b d : Agenda Task} {c : Console} {before after handles : List (Option Nat)}
  {kind : Task} {i : Nat} {handle : Option Nat} {new : Option (Job Task)}

theorem ne_handle_iff (h : handles[i]? = some handle) {id : Nat} :
    handles[i]? ≠ some (some id) ↔ some id ≠ handle := by
  rw [h, ne_eq, Option.some.injEq]
  exact ⟨Ne.symm, Ne.symm⟩

/-- The job of the owner is cancelled, and a new one is put in its place. -/
theorem Reset.schedule (h : handles[i]? = some handle) (due : Nat) :
    Reset c.agenda ((c.cancel handle).agenda.schedule due kind) handles
      (handles.set i (some c.agenda.nextId)) kind i (some ⟨c.agenda.nextId, due, kind⟩) := by
  constructor
  case nextId =>
    rw [Agenda.nextId_schedule, Console.cancel_nextId]
    exact Nat.le_succ _
  case fresh =>
    rintro j ⟨⟩
    refine ⟨rfl, Nat.le_refl _, ?_⟩
    rw [Agenda.nextId_schedule, Console.cancel_nextId]
    exact Nat.lt_succ_self _
  case handles => rfl
  case jobs =>
    intro j _
    rw [Agenda.mem_schedule, Console.cancel_nextId, Console.mem_cancel, ne_handle_iff h,
      Option.some.injEq]
    exact or_congr_left ⟨Eq.symm, Eq.symm⟩

theorem Reset.cancel (h : handles[i]? = some handle) :
    Reset c.agenda (c.cancel handle).agenda handles (handles.set i none) kind i none := by
  constructor
  case nextId => exact Nat.le_of_eq (Console.cancel_nextId c handle).symm
  case fresh => exact nofun
  case handles => rfl
  case jobs =>
    intro j _
    rw [Console.mem_cancel, ne_handle_iff h]
    exact (or_iff_right nofun).symm

theorem Reset.of_keeps (hkeeps : a.Keeps (· = kind) b)
    (h : Reset b d before after kind i new) : Reset a d before after kind i new := by
  constructor
  case nextId => exact Nat.le_trans hkeeps.nextId h.nextId
  case fresh =>
    intro j hj
    obtain ⟨hk, hle, hlt⟩ := h.fresh j hj
    exact ⟨hk, Nat.le_trans hkeeps.nextId hle, hlt⟩
  case handles => exact h.handles
  case jobs =>
    intro j hj
    rw [h.jobs j hj, hkeeps.mem j hj]

/-- What leaves the handles and the jobs of the kind alone spares all owners. -/
theorem Spared.of_keeps {done : Nat → Bool} (hafter : after = before)
    (hkeeps : a.Keeps (· = kind) b) (hdone : ∀ id, done id = false) :
    Spared a b before after kind done := by
  refine ⟨hkeeps.nextId, ⟨[], by simp [hafter], by simp⟩, fun j hj => ?_⟩
  rw [hkeeps.mem j hj, hdone, and_iff_left rfl]

/-- A job that is done is taken off the agenda, and no other of its kind. -/
theorem mem_cancel_does {does : Nat → Move → Bool}
    (hdoes : ∀ {id m}, does id m = true ↔ ∃ due, m = .resume ⟨id, due, kind⟩)
    (ht : c.Tidy) {j k : Job Task} (hk : k ∈ c.agenda.jobs) (hj : j.task = kind) :
    j ∈ (c.cancel (some k.id)).agenda.jobs ↔
      j ∈ c.agenda.jobs ∧ does j.id (.resume k) = false := by
  rw [Console.mem_cancel]
  refine and_congr_right fun hmem => ?_
  constructor
  · intro hne
    by_contra hdone
    obtain ⟨due, hk'⟩ := hdoes.1 (eq_true_of_ne_false hdone)
    cases hk'
    exact hne rfl
  · intro hdone hid
    have he : j = k := ht.ordered.eq_of_id_eq hmem hk (Option.some.inj hid)
    subst he
    have hyes : does j.id (.resume j) = true := hdoes.2 ⟨j.due, by rw [← hj]⟩
    rw [hyes] at hdone
    cases hdone

/-- To do a job spares all owners if what is done leaves the handles and the kind alone. -/
theorem Spared.of_resume {does : Nat → Move → Bool}
    (hdoes : ∀ {id m}, does id m = true ↔ ∃ due, m = .resume ⟨id, due, kind⟩) (ht : c.Tidy)
    {k : Job Task} (hk : k ∈ c.agenda.jobs) (hafter : after = before)
    (hkeeps : (c.cancel (some k.id)).agenda.Keeps (· = kind) b) :
    Spared c.agenda b before after kind (does · (.resume k)) := by
  constructor
  case nextId =>
    exact Nat.le_trans (Nat.le_of_eq (Console.cancel_nextId c _).symm) hkeeps.nextId
  case handles => exact ⟨[], by simp [hafter], by simp⟩
  case jobs =>
    intro j hj
    rw [hkeeps.mem j hj, mem_cancel_does hdoes ht hk hj]

end

/-- Owners of the jobs of one kind. A move `resets` an owner, or `does` a job. -/
structure Owners where
  kind : Task
  handles : Console → List (Option Nat)
  resets : World → Nat → Move → Prop
  does : Nat → Move → Bool
  held : ∀ {c : Console}, c.Tidy → Held c.agenda (handles c) kind
  does_iff : ∀ {id : Nat} {m : Move}, does id m = true ↔ ∃ due, m = .resume ⟨id, due, kind⟩
  /-- To do a job resets nobody. -/
  not_resets : ∀ {w : World} {id i : Nat} {m : Move}, does id m = true → ¬ resets w i m
  /-- A move resets one owner at most. -/
  resets_unique : ∀ {w : World} {m : Move} {i k : Nat}, resets w i m → resets w k m → i = k
  reset : ∀ {s : Server} {w : World} {m : Move} {i : Nat}, w.console.Tidy → w.Allows m →
    resets w i m → i < (handles w.console).length → ∃ new : Option (Job Task),
      Reset w.console.agenda (w.move s m).console.agenda (handles w.console)
        (handles (w.move s m).console) kind i new
  spared : ∀ {s : Server} {w : World} {m : Move}, w.console.Tidy → w.Allows m →
    (∀ i, resets w i m → (handles w.console).length ≤ i) →
      Spared w.console.agenda (w.move s m).console.agenda (handles w.console)
        (handles (w.move s m).console) kind (does · m)

namespace Owners

variable (o : Owners)

/-- The owner took the job `id` last. -/
def Holds (c : Console) (i id : Nat) : Prop := (o.handles c)[i]? = some (some id)

/-- A job that was done or given up. -/
def Gone (c : Console) (id : Nat) : Prop :=
  id < c.agenda.nextId ∧ ∀ j ∈ c.agenda.jobs, j.task = o.kind → j.id ≠ id

variable {o} {c : Console} {s : Server} {w : World} {m : Move} {ms p rest : List Move}
  {i k id due : Nat} {new : Option (Job Task)}

/-! ### Handles -/

theorem Holds.unique (h : o.Holds c i id) {id' : Nat} (h' : o.Holds c i id') : id = id' := by
  have he : some (some id) = some (some id') := h.symm.trans h'
  simpa using he

/-- No two owners hold the same job. -/
theorem Holds.owner (h : o.Holds c i id) (ht : c.Tidy) (h' : o.Holds c k id) : i = k :=
  (o.held ht).unique i k id h h'

theorem Holds.lt_length (h : o.Holds c i id) : i < (o.handles c).length :=
  (List.getElem?_eq_some_iff.1 h).1

theorem Holds.lt_nextId (h : o.Holds c i id) (ht : c.Tidy) : id < c.agenda.nextId :=
  (o.held ht).old id (List.mem_of_getElem? h)

theorem Holds.kind (h : o.Holds c i id) (ht : c.Tidy) {j : Job Task} (hj : j ∈ c.agenda.jobs)
    (hid : j.id = id) : j.task = o.kind := by
  have hmem : some j.id ∈ o.handles c := by
    rw [hid]
    exact List.mem_of_getElem? h
  exact (o.held ht).kind_of_mem j hj hmem

/-- An owner that is reset holds the job that it takes. -/
theorem Holds.of_reset {d : Console} {a b : Agenda Task} {job : Job Task}
    (h : Reset a b (o.handles c) (o.handles d) o.kind i (some job))
    (hi : i < (o.handles c).length) : o.Holds d i job.id := by
  unfold Holds
  rw [h.handles, List.getElem?_set_self hi]
  rfl

/-- The job of a handle is on the agenda, or it is gone. -/
theorem Holds.mem_iff (h : o.Holds c i id) (ht : c.Tidy) :
    (∃ j ∈ c.agenda.jobs, j.id = id) ↔ ¬ o.Gone c id := by
  constructor
  · rintro ⟨j, hj, hid⟩ hgone
    exact hgone.2 j hj (h.kind ht hj hid) hid
  · intro hgone
    by_contra hno
    have hnone : ∀ j ∈ c.agenda.jobs, j.task = o.kind → j.id ≠ id :=
      fun j hj _ hid => hno ⟨j, hj, hid⟩
    exact hgone ⟨h.lt_nextId ht, hnone⟩

/-! ### Moves -/

theorem move_cases (s : Server) (ht : w.console.Tidy) (ha : w.Allows m) :
    (∃ k new, o.resets w k m ∧ k < (o.handles w.console).length ∧
      Reset w.console.agenda (w.move s m).console.agenda (o.handles w.console)
        (o.handles (w.move s m).console) o.kind k new) ∨
    Spared w.console.agenda (w.move s m).console.agenda (o.handles w.console)
      (o.handles (w.move s m).console) o.kind (o.does · m) := by
  by_cases h : ∀ k, o.resets w k m → (o.handles w.console).length ≤ k
  · exact .inr (o.spared ht ha h)
  · obtain ⟨k, hno⟩ := not_forall.1 h
    obtain ⟨hm, hle⟩ := Classical.not_imp.1 hno
    have hk : k < (o.handles w.console).length := Nat.lt_of_not_le hle
    obtain ⟨new, hreset⟩ := o.reset (s := s) ht ha hm hk
    exact .inl ⟨k, new, hm, hk, hreset⟩

/-- No owner goes away. -/
theorem length_le_move (ht : w.console.Tidy) (ha : w.Allows m) :
    (o.handles w.console).length ≤ (o.handles (w.move s m).console).length := by
  rcases move_cases (o := o) s ht ha with ⟨k, new, -, -, hreset⟩ | hspared
  · refine Nat.le_of_eq ?_
    rw [hreset.handles, List.length_set]
  · obtain ⟨new, hnew, -⟩ := hspared.handles
    rw [hnew, List.length_append]
    exact Nat.le_add_right _ _

/-- An owner keeps its handle unless it is reset itself. -/
theorem Holds.move (h : o.Holds w.console i id) (ht : w.console.Tidy) (ha : w.Allows m)
    (hm : ¬ o.resets w i m) : o.Holds (w.move s m).console i id := by
  unfold Holds at h ⊢
  rcases move_cases s ht ha with ⟨k, new, hk, -, hreset⟩ | hspared
  · have hne : k ≠ i := fun hki => hm (hki ▸ hk)
    rw [hreset.handles, List.getElem?_set_ne hne, h]
  · obtain ⟨new, hnew, -⟩ := hspared.handles
    rw [hnew, List.getElem?_append_left (List.getElem?_eq_some_iff.1 h).1, h]

/-- Nor does it get a handle without being reset. -/
theorem Holds.of_move (h : o.Holds (w.move s m).console i id) (ht : w.console.Tidy)
    (ha : w.Allows m) (hm : ¬ o.resets w i m) : o.Holds w.console i id := by
  unfold Holds at h ⊢
  rcases move_cases s ht ha with ⟨k, new, hk, -, hreset⟩ | hspared
  · have hne : k ≠ i := fun hki => hm (hki ▸ hk)
    rwa [hreset.handles, List.getElem?_set_ne hne] at h
  · obtain ⟨new, hnew, hnone⟩ := hspared.handles
    rw [hnew, List.getElem?_append] at h
    split at h
    · exact h
    · have := hnone _ (List.mem_of_getElem? h)
      cases this

theorem Gone.move (h : o.Gone w.console id) (ht : w.console.Tidy) (ha : w.Allows m) :
    o.Gone (w.move s m).console id := by
  obtain ⟨hlt, hno⟩ := h
  rcases move_cases (o := o) s ht ha with ⟨k, new, -, -, hreset⟩ | hspared
  · refine ⟨Nat.lt_of_lt_of_le hlt hreset.nextId, fun j hj hk => ?_⟩
    rcases (hreset.jobs j hk).1 hj with hnew | ⟨hj, -⟩
    · have hfresh := (hreset.fresh j hnew).2.1
      omega
    · exact hno j hj hk
  · refine ⟨Nat.lt_of_lt_of_le hlt hspared.nextId, fun j hj hk => ?_⟩
    exact hno j ((hspared.jobs j hk).1 hj).1 hk

/-- An owner that is reset gives up its job. -/
theorem Holds.gone (h : o.Holds w.console i id) (ht : w.console.Tidy) (ha : w.Allows m)
    (hm : o.resets w i m) : o.Gone (w.move s m).console id := by
  have hlt := h.lt_nextId ht
  obtain ⟨new, hreset⟩ := o.reset (s := s) ht ha hm h.lt_length
  refine ⟨Nat.lt_of_lt_of_le hlt hreset.nextId, fun j hj hk => ?_⟩
  rcases (hreset.jobs j hk).1 hj with hnew | ⟨-, hne⟩
  · have hfresh := (hreset.fresh j hnew).2.1
    omega
  · rintro rfl
    exact hne h

/-- The job of an owner stays on the agenda until it is done or the owner is reset. -/
theorem Holds.mem_move (h : o.Holds w.console i id) (ht : w.console.Tidy) (ha : w.Allows m)
    (hm : ¬ o.resets w i m) (hno : o.does id m = false)
    (hj : ⟨id, due, o.kind⟩ ∈ w.console.agenda.jobs) :
    ⟨id, due, o.kind⟩ ∈ (w.move s m).console.agenda.jobs := by
  rcases move_cases (o := o) s ht ha with ⟨k, new, hk, -, hreset⟩ | hspared
  · have hne : (o.handles w.console)[k]? ≠ some (some id) := fun hold =>
      hm (h.owner ht hold ▸ hk)
    exact (hreset.jobs ⟨id, due, o.kind⟩ rfl).2 (.inr ⟨hj, hne⟩)
  · exact (hspared.jobs ⟨id, due, o.kind⟩ rfl).2 ⟨hj, hno⟩

/-- A job that is done is gone. -/
theorem gone_of_does (hm : o.does id m = true) (ht : w.console.Tidy) (ha : w.Allows m) :
    o.Gone (w.move s m).console id := by
  have hno : ∀ i, ¬ o.resets w i m := fun i => o.not_resets hm
  obtain ⟨due, rfl⟩ := o.does_iff.1 hm
  have hlt : id < w.console.agenda.nextId := ht.ordered.fresh _ ha.1
  have hspared := o.spared (s := s) ht ha fun i hi => absurd hi (hno i)
  refine ⟨Nat.lt_of_lt_of_le hlt hspared.nextId, fun j hj hk hid => ?_⟩
  have hdone : o.does j.id (.resume ⟨id, due, o.kind⟩) = false := ((hspared.jobs j hk).1 hj).2
  rw [hid, hm] at hdone
  cases hdone

/-! ### Runs -/

theorem Gone.run (h : o.Gone w.console id) (ht : w.console.Tidy) (hl : World.Lawful s w ms) :
    o.Gone (w.run s ms).console id := by
  induction ms generalizing w with
  | nil => exact h
  | cons m ms ih => exact ih (h.move ht hl.1) (World.tidy_move ht hl.1) hl.2

/-- Whatever happens, a handle is still held or its job is gone. -/
theorem Holds.run (h : o.Holds w.console i id) (ht : w.console.Tidy)
    (hl : World.Lawful s w ms) :
    o.Holds (w.run s ms).console i id ∨ o.Gone (w.run s ms).console id := by
  induction ms generalizing w with
  | nil => exact .inl h
  | cons m ms ih =>
    have ht' : (w.move s m).console.Tidy := World.tidy_move ht hl.1
    by_cases hm : o.resets w i m
    · exact .inr ((h.gone ht hl.1 hm).run ht' hl.2)
    · exact ih (h.move ht hl.1 hm) ht' hl.2

variable (o)

/-- No move of the run resets the owner. -/
def Undisturbed (s : Server) (i : Nat) : World → List Move → Prop
  | _, [] => True
  | w, m :: ms => ¬ o.resets w i m ∧ Undisturbed s i (w.move s m) ms

/-- The times at which the job `id` is done in a run. -/
def times (s : Server) (id : Nat) : World → List Move → List Nat
  | _, [] => []
  | w, m :: ms =>
    if o.does id m then w.console.now :: times s id (w.move s m) ms
    else times s id (w.move s m) ms

/-- In a run the owner `i` took the job `id`. -/
def Took (s : Server) (w : World) (ms : List Move) (i id : Nat) : Prop :=
  ∃ pre m post, ms = pre ++ m :: post ∧ o.resets (w.run s pre) i m ∧
    o.Holds ((w.run s pre).move s m).console i id

variable {o}

/-- A job that is gone is never done. -/
theorem times_of_gone (h : o.Gone w.console id) (ht : w.console.Tidy)
    (hl : World.Lawful s w ms) : o.times s id w ms = [] := by
  induction ms generalizing w with
  | nil => rfl
  | cons m ms ih =>
    have hno : ¬ o.does id m = true := by
      intro hm
      obtain ⟨due, rfl⟩ := o.does_iff.1 hm
      exact h.2 _ hl.1.1 rfl rfl
    rw [times, if_neg hno]
    exact ih (h.move ht hl.1) (World.tidy_move ht hl.1) hl.2

theorem Holds.stays (h : o.Holds w.console i id) (ht : w.console.Tidy)
    (hl : World.Lawful s w ms) (hms : o.Undisturbed s i w ms) :
    o.Holds (w.run s ms).console i id := by
  induction ms generalizing w with
  | nil => exact h
  | cons m ms ih => exact ih (h.move ht hl.1 hms.1) (World.tidy_move ht hl.1) hl.2 hms.2

theorem Holds.of_run (h : o.Holds (w.run s ms).console i id) (ht : w.console.Tidy)
    (hl : World.Lawful s w ms) (hms : o.Undisturbed s i w ms) : o.Holds w.console i id := by
  induction ms generalizing w with
  | nil => exact h
  | cons m ms ih =>
    exact (ih h (World.tidy_move ht hl.1) hl.2 hms.2).of_move ht hl.1 hms.1

/-- As long as its owner is not reset, a job waits on the agenda until its time and is done
then, once. -/
theorem times_of_holds (h : o.Holds w.console i id) (ht : w.console.Tidy)
    (hj : ⟨id, due, o.kind⟩ ∈ w.console.agenda.jobs) (hl : World.Lawful s w ms)
    (hms : o.Undisturbed s i w ms) :
    o.times s id w ms = [] ∧ ⟨id, due, o.kind⟩ ∈ (w.run s ms).console.agenda.jobs ∨
      o.times s id w ms = [due] ∧ o.Gone (w.run s ms).console id := by
  induction ms generalizing w with
  | nil => exact .inl ⟨rfl, hj⟩
  | cons m ms ih =>
    have ht' : (w.move s m).console.Tidy := World.tidy_move ht hl.1
    have h' : o.Holds (w.move s m).console i id := h.move ht hl.1 hms.1
    cases hdone : o.does id m with
    | false =>
      rw [times, if_neg (by simp [hdone])]
      exact ih h' ht' (h.mem_move ht hl.1 hms.1 hdone hj) hl.2 hms.2
    | true =>
      have hgone : o.Gone (w.move s m).console id := gone_of_does hdone ht hl.1
      obtain ⟨due', rfl⟩ := o.does_iff.1 hdone
      obtain rfl : due = due' := congrArg Job.due (ht.ordered.eq_of_id_eq hj hl.1.1 rfl)
      have hnow : w.console.now = due := Nat.le_antisymm (ht.due _ hj) hl.1.2
      rw [times, if_pos hdone, times_of_gone hgone ht' hl.2, hnow]
      exact .inr ⟨rfl, hgone.run ht' hl.2⟩

/-- Once its owner is reset a job is never done. -/
theorem times_of_resets (h : o.Holds w.console i id ∨ o.Gone w.console id)
    (ht : w.console.Tidy) (hl : World.Lawful s w (m :: ms)) (hm : o.resets w i m) :
    o.times s id w (m :: ms) = [] := by
  have hno : ¬ o.does id m = true := fun hdone => o.not_resets hdone hm
  have hgone : o.Gone (w.move s m).console id :=
    h.elim (fun h => h.gone ht hl.1 hm) fun h => h.move ht hl.1
  rw [times, if_neg hno]
  exact times_of_gone hgone (World.tidy_move ht hl.1) hl.2

/-! ### Who took what -/

theorem Took.append (h : o.Took s w ms i id) (more : List Move) :
    o.Took s w (ms ++ more) i id := by
  obtain ⟨pre, m, post, rfl, hm, hold⟩ := h
  exact ⟨pre, m, post ++ more, by simp, hm, hold⟩

/-- What an owner took it still holds, or it is gone. -/
theorem Took.holds (h : o.Took s w ms i id) (ht : w.console.Tidy) (hl : World.Lawful s w ms) :
    o.Holds (w.run s ms).console i id ∨ o.Gone (w.run s ms).console id := by
  obtain ⟨pre, m, post, rfl, -, hold⟩ := h
  obtain ⟨hpre, ha, hpost⟩ := World.lawful_append.1 hl
  rw [World.run_append, World.run_cons]
  exact hold.run (World.tidy_move (World.tidy_run ht hpre) ha) hpost

theorem Took.holds_of_mem (h : o.Took s w ms i id) (ht : w.console.Tidy)
    (hl : World.Lawful s w ms) {j : Job Task} (hj : j ∈ (w.run s ms).console.agenda.jobs)
    (hk : j.task = o.kind) (hid : j.id = id) : o.Holds (w.run s ms).console i id :=
  (h.holds ht hl).resolve_right fun hgone => hgone.2 j hj hk hid

/-- Every job of the kind was taken by some owner. -/
theorem exists_took {page : Page} (hl : World.Lawful s (.ofPage page) ms) {j : Job Task}
    (hj : j ∈ ((World.ofPage page).run s ms).console.agenda.jobs) (hk : j.task = o.kind) :
    ∃ i, o.Took s (.ofPage page) ms i j.id := by
  induction ms using List.reverseRecOn with
  | nil => cases hj
  | append_singleton ms m ih =>
    obtain ⟨hms, ha, -⟩ := World.lawful_append.1 hl
    have ht := World.tidy_ofPage hms
    have old : j ∈ ((World.ofPage page).run s ms).console.agenda.jobs →
        ∃ i, o.Took s (.ofPage page) (ms ++ [m]) i j.id := fun hj =>
      (ih hms hj).imp fun i hi => hi.append [m]
    rw [World.run_append, World.run_cons, World.run_nil] at hj
    rcases move_cases (o := o) s ht ha with ⟨i, new, hm, hlen, hreset⟩ | hspared
    · rcases (hreset.jobs j hk).1 hj with rfl | ⟨hj, -⟩
      · exact ⟨i, ms, m, [], rfl, hm, .of_reset hreset hlen⟩
      · exact old hj
    · exact old ((hspared.jobs j hk).1 hj).1

end Owners

end ClusterConsole
