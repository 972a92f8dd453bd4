import Mathlib.Data.List.Nodup
import ClusterConsole.Console.Agenda

/-! The jobs of an agenda as a set. An agenda is ordered if its jobs stand in the order
in which they fall due, each with an identifier of its own that was given away before.
Scheduling and cancelling keep it so, and say exactly which jobs there are afterwards. -/

namespace ClusterConsole.Agenda

variable {α : Type} {a : Agenda α} {j k : Job α} {jobs : List (Job α)}

/-! ### Membership -/

theorem perm_insert (j : Job α) (jobs : List (Job α)) : (insert j jobs).Perm (j :: jobs) := by
  induction jobs with
  | nil => exact .refl _
  | cons k rest ih =>
    rw [insert]
    split
    · exact .refl _
    · exact (ih.cons k).trans (.swap j k rest)

@[simp] theorem mem_insert : k ∈ insert j jobs ↔ k = j ∨ k ∈ jobs := by
  rw [(perm_insert j jobs).mem_iff, List.mem_cons]

@[simp] theorem mem_schedule {due : Nat} {task : α} :
    k ∈ (a.schedule due task).jobs ↔ k = ⟨a.nextId, due, task⟩ ∨ k ∈ a.jobs :=
  mem_insert

@[simp] theorem mem_cancel {id : Nat} : k ∈ (a.cancel id).jobs ↔ k ∈ a.jobs ∧ k.id ≠ id := by
  simp [cancel]

@[simp] theorem nextId_schedule {due : Nat} {task : α} :
    (a.schedule due task).nextId = a.nextId + 1 := rfl

theorem holds_iff {id : Nat} : a.holds id = true ↔ ∃ j ∈ a.jobs, j.id = id := by
  simp [holds]

/-! ### Order -/

structure Ordered (a : Agenda α) : Prop where
  /-- No job has an identifier that is still to be given away. -/
  fresh : ∀ j ∈ a.jobs, j.id < a.nextId
  distinct : (a.jobs.map (·.id)).Nodup
  sorted : a.jobs.Pairwise (·.due ≤ ·.due)

theorem ordered_empty : ({} : Agenda α).Ordered := ⟨by simp, by simp, .nil⟩

/-- The new job stands behind all that fall due no later, and before all others. -/
theorem pairwise_insert {R : Job α → Job α → Prop} (hsorted : jobs.Pairwise (·.due ≤ ·.due))
    (hbefore : ∀ k ∈ jobs, k.due ≤ j.due → R k j) (hafter : ∀ k ∈ jobs, j.due < k.due → R j k)
    (h : jobs.Pairwise R) : (insert j jobs).Pairwise R := by
  induction jobs with
  | nil => simp [insert]
  | cons k rest ih =>
    rw [insert]
    have hk := List.pairwise_cons.1 h
    have hdue := List.pairwise_cons.1 hsorted
    split
    · next hlt =>
      refine List.pairwise_cons.2 ⟨fun l hl => hafter l hl ?_, h⟩
      rcases List.mem_cons.1 hl with rfl | hl
      · exact hlt
      · exact Nat.lt_of_lt_of_le hlt (hdue.1 l hl)
    · next hle =>
      obtain ⟨hkj, hbefore⟩ := List.forall_mem_cons.1 hbefore
      refine List.pairwise_cons.2 ⟨fun l hl => ?_,
        ih hdue.2 hbefore (List.forall_mem_cons.1 hafter).2 hk.2⟩
      rcases mem_insert.1 hl with rfl | hl
      · exact hkj (Nat.le_of_not_lt hle)
      · exact hk.1 l hl

theorem sorted_insert (j : Job α) (h : jobs.Pairwise (·.due ≤ ·.due)) :
    (insert j jobs).Pairwise (·.due ≤ ·.due) :=
  pairwise_insert h (fun _ _ => id) (fun _ _ => Nat.le_of_lt) h

theorem insert_of_lt (h : ∀ k ∈ jobs, j.due < k.due) : insert j jobs = j :: jobs := by
  cases jobs with
  | nil => rfl
  | cons k rest => exact if_pos (h k (List.mem_cons_self ..))

theorem insert_map {β : Type} {f : Job α → Job β} (hf : ∀ k, (f k).due = k.due) (j : Job α)
    (jobs : List (Job α)) : (insert j jobs).map f = insert (f j) (jobs.map f) := by
  induction jobs with
  | nil => rfl
  | cons k rest ih =>
    simp only [insert, List.map_cons, hf]
    split
    · rfl
    · rw [List.map_cons, ih]

theorem insert_filter_of_neg {keep : Job α → Bool} (hj : keep j = false) (jobs : List (Job α)) :
    (insert j jobs).filter keep = jobs.filter keep := by
  induction jobs with
  | nil => simp [insert, hj]
  | cons k rest ih =>
    rw [insert]
    split
    · simp [hj]
    · rw [List.filter_cons, List.filter_cons, ih]

/-- The place of a job does not depend on the jobs that are left out. -/
theorem insert_filter_of_pos {keep : Job α → Bool} (hj : keep j = true)
    (h : jobs.Pairwise (·.due ≤ ·.due)) :
    (insert j jobs).filter keep = insert j (jobs.filter keep) := by
  induction jobs with
  | nil => simp [insert, hj]
  | cons k rest ih =>
    obtain ⟨hk, hrest⟩ := List.pairwise_cons.1 h
    rw [insert]
    split
    · next hlt =>
      have hall : ∀ l ∈ (k :: rest).filter keep, j.due < l.due := by
        intro l hl
        rcases List.mem_cons.1 (List.mem_of_mem_filter hl) with rfl | hl
        · exact hlt
        · exact Nat.lt_of_lt_of_le hlt (hk l hl)
      rw [List.filter_cons_of_pos hj, insert_of_lt hall]
    · next hle =>
      by_cases hkeep : keep k = true
      · rw [List.filter_cons_of_pos hkeep, List.filter_cons_of_pos hkeep, ih hrest, insert,
          if_neg hle]
      · rw [List.filter_cons_of_neg hkeep, List.filter_cons_of_neg hkeep, ih hrest]

theorem Ordered.schedule (h : a.Ordered) (due : Nat) (task : α) :
    (a.schedule due task).Ordered where
  fresh k hk := by
    rw [nextId_schedule]
    rcases mem_schedule.1 hk with rfl | hk
    · exact Nat.lt_succ_self _
    · exact Nat.lt_succ_of_lt (h.fresh k hk)
  distinct := by
    refine ((perm_insert _ _).map _).nodup_iff.2 (List.nodup_cons.2 ⟨?_, h.distinct⟩)
    intro hid
    obtain ⟨k, hk, he⟩ := List.mem_map.1 hid
    exact Nat.lt_irrefl _ (he ▸ h.fresh k hk)
  sorted := sorted_insert _ h.sorted

theorem Ordered.cancel (h : a.Ordered) (id : Nat) : (a.cancel id).Ordered where
  fresh k hk := h.fresh k (mem_cancel.1 hk).1
  distinct := h.distinct.sublist (List.filter_sublist.map _)
  sorted := h.sorted.filter _

/-- With the first job the others stay. -/
theorem Ordered.cancel_head {rest : List (Job α)} (h : a.Ordered) (hjobs : a.jobs = j :: rest) :
    (a.cancel j.id).jobs = rest := by
  have hdistinct := h.distinct
  rw [hjobs, List.map_cons, List.nodup_cons] at hdistinct
  have hkept : ∀ k ∈ rest, (k.id != j.id) = true := by
    intro k hk
    rw [bne_iff_ne]
    intro he
    exact hdistinct.1 (he ▸ List.mem_map_of_mem hk)
  unfold Agenda.cancel
  rw [hjobs, List.filter_cons_of_neg (by simp)]
  exact List.filter_eq_self.2 hkept

theorem Ordered.first_due_le {rest : List (Job α)} (h : a.Ordered) (hjobs : a.jobs = j :: rest) :
    ∀ k ∈ a.jobs, j.due ≤ k.due := by
  have hsorted := h.sorted
  rw [hjobs, List.pairwise_cons] at hsorted
  rw [hjobs]
  exact List.forall_mem_cons.2 ⟨Nat.le_refl _, hsorted.1⟩

/-- A job is known by its identifier. -/
theorem Ordered.eq_of_id_eq (h : a.Ordered) (hj : j ∈ a.jobs) (hk : k ∈ a.jobs) (he : j.id = k.id) :
    j = k :=
  List.inj_on_of_nodup_map h.distinct hj hk he

/-! ### The next job -/

theorem due_lt_of_next? {time : Nat} (h : a.next? time = some j) : j.due < time := by
  simpa using (Option.filter_eq_some_iff.1 h).2

theorem next?_of_jobs {time : Nat} {rest : List (Job α)} (hjobs : a.jobs = j :: rest)
    (hdue : j.due < time) : a.next? time = some j := by
  simp only [next?, hjobs, List.head?_cons, Option.filter_some, decide_eq_true hdue, if_true]

/-- The next job is due before the time, and no other is due before it. -/
theorem Ordered.next?_some (h : a.Ordered) {time : Nat} (hj : a.next? time = some j) :
    j.due < time ∧ ∀ k ∈ a.jobs, j.due ≤ k.due := by
  obtain ⟨hhead, -⟩ := Option.filter_eq_some_iff.1 hj
  obtain ⟨rest, hrest⟩ := List.head?_eq_some_iff.1 hhead
  exact ⟨due_lt_of_next? hj, h.first_due_le hrest⟩

theorem Ordered.next?_none (h : a.Ordered) {time : Nat} (hn : a.next? time = none) :
    ∀ k ∈ a.jobs, time ≤ k.due := by
  intro k hk
  obtain ⟨first, rest, hjobs⟩ : ∃ first rest, a.jobs = first :: rest := by
    cases hjobs : a.jobs with
    | nil => simp [hjobs] at hk
    | cons first rest => exact ⟨first, rest, rfl⟩
  have hfirst : time ≤ first.due := by simpa [next?, hjobs, Option.filter] using hn
  exact Nat.le_trans hfirst (h.first_due_le hjobs k hk)

theorem next?_eq_none {time : Nat} (h : ∀ k ∈ a.jobs, time ≤ k.due) : a.next? time = none := by
  cases hnext : a.next? time with
  | none => rfl
  | some k =>
    have hle := h k (mem_of_next? hnext)
    exact absurd (due_lt_of_next? hnext) (Nat.not_lt_of_le hle)

end ClusterConsole.Agenda
