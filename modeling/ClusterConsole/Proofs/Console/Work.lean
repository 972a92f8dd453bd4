import ClusterConsole.Proofs.Console.World

/-! Which jobs an operation leaves alone. A timer is cancelled and armed among reloads, a
redirect among the ways home, so that all other jobs stay; and a move neither takes a job
away that is none of these nor adds one, unless it does a job itself, gives an answer or
begins a dispatch. -/

namespace ClusterConsole

namespace Agenda

variable {p : Task → Prop} {a b e : Agenda Task}

/-- The jobs of some kind are the same, and no identifier is given away again. -/
structure Keeps (p : Task → Prop) (a b : Agenda Task) : Prop where
  nextId : a.nextId ≤ b.nextId
  mem : ∀ j : Job Task, p j.task → (j ∈ b.jobs ↔ j ∈ a.jobs)

theorem Keeps.refl (a : Agenda Task) : a.Keeps p a := ⟨Nat.le_refl _, fun _ _ => .rfl⟩

theorem Keeps.of_eq (h : b = a) : a.Keeps p b := h ▸ .refl b

theorem Keeps.trans (h : a.Keeps p b) (h' : b.Keeps p e) : a.Keeps p e :=
  ⟨Nat.le_trans h.nextId h'.nextId, fun j hj => (h'.mem j hj).trans (h.mem j hj)⟩

theorem keeps_schedule (a : Agenda Task) (due : Nat) {task : Task} (ht : ¬ p task) :
    a.Keeps p (a.schedule due task) where
  nextId := Nat.le_succ _
  mem j hj := by
    rw [mem_schedule]
    refine ⟨fun h => h.resolve_left ?_, .inr⟩
    rintro rfl
    exact ht hj

end Agenda

namespace Console

open Agenda (Keeps keeps_schedule)

variable {p : Task → Prop} {c : Console} {i : Nat}

theorem keeps_cancel {job : Option Nat} (h : ∀ j ∈ c.agenda.jobs, some j.id = job → ¬ p j.task) :
    c.agenda.Keeps p (c.cancel job).agenda where
  nextId := Nat.le_of_eq (cancel_nextId c job).symm
  mem j hj := by
    rw [Console.mem_cancel]
    exact ⟨fun hc => hc.1, fun hc => ⟨hc, fun he => h j hc he hj⟩⟩

/-! ### Timers -/

/-- The job of a controller is a reload. -/
theorem Tidy.keeps_cancel_timer (h : c.Tidy) (hp : ¬ p .reload) {k : Controller}
    (hk : c.controllers[i]? = some k) : c.agenda.Keeps p (c.cancel k.timer).agenda := by
  refine keeps_cancel fun j hj he => ?_
  rw [h.timers.kind_of_mem j hj (he ▸ List.mem_of_getElem? (getElem?_timer hk))]
  exact hp

theorem Tidy.keeps_disarm (h : c.Tidy) (hp : ¬ p .reload) :
    c.agenda.Keeps p (c.disarm i).agenda := by
  cases hk : c.controllers[i]? with
  | none => simpa only [Console.disarm, hk] using .refl _
  | some k =>
    rw [disarm_of_some hk]
    exact h.keeps_cancel_timer hp hk

theorem Tidy.keeps_arm (h : c.Tidy) (hp : ¬ p .reload) : c.agenda.Keeps p (c.arm i).agenda := by
  cases hk : c.controllers[i]? with
  | none => simpa only [Console.arm, hk] using .refl _
  | some k =>
    rw [arm_of_some hk]
    exact (h.keeps_cancel_timer hp hk).trans (keeps_schedule _ _ hp)

theorem Tidy.keeps_pageLoaded (h : c.Tidy) (hp : ¬ p .reload) :
    c.agenda.Keeps p (c.pageLoaded i).agenda := by
  unfold Console.pageLoaded
  split
  · exact h.keeps_arm hp
  · exact .refl _

theorem Tidy.keeps_toggle (h : c.Tidy) (hp : ¬ p .reload) (checked : Bool) :
    c.agenda.Keeps p (c.toggle i checked).agenda := by
  unfold Console.toggle
  split
  · exact (h.page (c.page.replace ("#" ++ autoReloadFragment))).keeps_arm hp
  · exact (h.page (c.page.replace Route.home)).keeps_disarm hp

/-! ### Redirects -/

/-- The job of a dispatcher is a way home. -/
theorem Tidy.keeps_armRedirect (h : c.Tidy) (hp : ¬ p .goHome) :
    c.agenda.Keeps p (c.armRedirect i).agenda := by
  cases hd : c.dispatchers[i]? with
  | none =>
    rw [armRedirect_of_none hd]
    exact .refl _
  | some d =>
    have hcancel : c.agenda.Keeps p (c.cancel d.redirect).agenda := by
      refine keeps_cancel fun j hj he => ?_
      rw [h.redirects.kind_of_mem j hj (he ▸ List.mem_of_getElem? (getElem?_redirect hd))]
      exact hp
    rw [armRedirect_of_some hd]
    exact hcancel.trans (keeps_schedule _ _ hp)

end Console

/-! ### Conclusions -/

/-- An answer that is there and entitled. -/
def Entitled (result : Except String EntitlementResponse) : Prop :=
  ∃ r, result = .ok r ∧ r.isEntitled = true

theorem authorized_iff {result : Except String EntitlementResponse} :
    Decision.ofAnswer result = .ok .authorized ↔ Entitled result := by
  cases result with
  | error source => simp [Decision.ofAnswer, Entitled]
  | ok r => cases hr : r.isEntitled <;> simp [Decision.ofAnswer, Entitled, hr]

namespace Console

variable {c : Console} {i : Nat} {request : CommandRequest}
  {result : Except String EntitlementResponse}

theorem conclude_of_entitled (h : Entitled result) :
    (c.conclude i request result).2 = (c.schedule 0 (.submit request)).armRedirect i := by
  simp only [conclude, authorized_iff.2 h]

/-- Nothing more is to be done after a denial or a failure. -/
theorem conclude_agenda (h : ¬ Entitled result) :
    (c.conclude i request result).2.agenda = c.agenda := by
  unfold conclude
  split
  · rfl
  · exact navigate_agenda c _
  · next ha => exact absurd (authorized_iff.1 ha) h

/-- Only the submission comes, besides ways home and reloads. -/
theorem Tidy.mem_conclude (h : c.Tidy) {p : Task → Prop} (hp : ¬ p .goHome) {k : Job Task}
    (hk : p k.task) : k ∈ (c.conclude i request result).2.agenda.jobs ↔ k ∈ c.agenda.jobs ∨
      Entitled result ∧ k = ⟨c.agenda.nextId, c.now, .submit request⟩ := by
  by_cases ha : Entitled result
  · have hsubmit : (c.schedule 0 (.submit request)).Tidy := h.schedule 0 (by simp) (by simp)
    have hafter : c.after 0 = c.now := by simp [after]
    rw [conclude_of_entitled ha, (hsubmit.keeps_armRedirect hp).mem k hk, schedule_agenda,
      Agenda.mem_schedule, hafter]
    exact Or.comm.trans (or_congr_right (and_iff_right ha).symm)
  · rw [conclude_agenda ha]
    exact (or_iff_left fun hno => ha hno.1).symm

theorem nextId_le_armRedirect : c.agenda.nextId ≤ (c.armRedirect i).agenda.nextId := by
  cases hd : c.dispatchers[i]? with
  | none => simp [armRedirect_of_none hd]
  | some d => simp [armRedirect_of_some hd]

/-- A job is left to be done exactly if the answer is entitled. -/
theorem nextId_lt_conclude :
    c.agenda.nextId < (c.conclude i request result).2.agenda.nextId ↔ Entitled result := by
  by_cases ha : Entitled result
  · rw [conclude_of_entitled ha]
    exact iff_of_true (nextId_le_armRedirect (c := c.schedule 0 (.submit request))) ha
  · rw [conclude_agenda ha]
    exact iff_of_false (Nat.lt_irrefl _) ha

end Console

/-! ### Jobs that are done -/

namespace Console

variable {p : Task → Prop} {c : Console} {s : Server}

theorem keeps_submit (hp : ∀ result, ¬ p (.submitted result)) (request : CommandRequest) :
    c.agenda.Keeps p (c.submit s request).agenda := by
  unfold submit
  split
  · exact .of_eq rfl
  · exact Agenda.keeps_schedule _ _ (hp _)

/-- A job that is due is taken off the agenda and done. -/
theorem resume_of_due {j : Job Task} (h : j.due ≤ c.now) :
    c.resume s j = (c.cancel (some j.id)).perform s j.task := by
  simp only [resume, Nat.max_eq_left h, cancel, Option.elim_some]

@[simp] theorem perform_now (task : Task) : (c.perform s task).now = c.now := by
  cases task with
  | goHome => exact navigate_now c _
  | submit request => exact submit_now c request s
  | conclude i request result => exact conclude_now c i request result
  | _ => rfl

end Console

/-! ### Moves -/

/-- A move that neither does a job nor gives an answer nor begins a dispatch. -/
def Move.Aside : Move → Prop
  | .resume _ => False
  | .answer _ => False
  | .start _ _ => False
  | _ => True

variable {s : Server} {w : World} {m : Move} {p : Task → Prop}

theorem World.keeps_move (h : w.console.Tidy) (hm : m.Aside) (hr : ¬ p .reload)
    (ha : ∀ actions, ¬ p (.act actions)) :
    w.console.agenda.Keeps p (w.move s m).console.agenda := by
  cases m with
  | resume j => exact hm.elim
  | answer q => exact hm.elim
  | start i request => exact hm.elim
  | plan delay actions => exact Agenda.keeps_schedule _ _ (ha actions)
  | pageLoaded i => exact h.keeps_pageLoaded hr
  | toggle i checked => exact h.keeps_toggle hr checked
  | dropController i => exact h.keeps_disarm hr
  | _ => exact .of_eq rfl

/-- The clock never goes back. -/
theorem World.now_le_move (ha : w.Allows m) : w.console.now ≤ (w.move s m).console.now := by
  cases m with
  | wait time => exact ha.1
  | resume j => simp [move, Console.resume_of_due ha.2]
  | answer q => cases hq : q.purpose <;> simp [move, hq, Purpose.conclude]
  | pageLoaded i => simp [move]
  | toggle i checked => simp [move]
  | dropController i => simp [move, Console.dropController]
  | _ => exact Nat.le_refl _

end ClusterConsole
