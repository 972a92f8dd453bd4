import ClusterConsole.Proofs.Console.Agenda
import ClusterConsole.Proofs.Console.Operations

/-! A tidy console. Its agenda is ordered and nothing on it is overdue; every reload that
waits there is the timer of exactly one controller, and every way home the redirect of
exactly one dispatcher. A new console is tidy, and whatever a console does keeps it so:
arming replaces the job armed before, and no timer is ever lost. -/

namespace ClusterConsole

/-! ### Owners of jobs -/

/-- The jobs of one kind are owned. Each owner has a handle, the identifier of the job it
armed last, which may be over. -/
structure Held (a : Agenda Task) (handles : List (Option Nat)) (kind : Task) : Prop where
  old : ∀ id, some id ∈ handles → id < a.nextId
  kind_of_mem : ∀ j ∈ a.jobs, some j.id ∈ handles → j.task = kind
  mem_of_kind : ∀ j ∈ a.jobs, j.task = kind → some j.id ∈ handles
  /-- No two owners have the same handle. -/
  unique : ∀ (i k id : Nat), handles[i]? = some (some id) → handles[k]? = some (some id) → i = k

namespace Held

variable {a : Agenda Task} {handles : List (Option Nat)} {kind : Task}

theorem nil (a : Agenda Task) (h : a.jobs = []) (kind : Task) : Held a [] kind :=
  ⟨by simp, by simp [h], by simp [h], by simp⟩

theorem cancel (h : Held a handles kind) (id : Nat) : Held (a.cancel id) handles kind where
  old := h.old
  kind_of_mem j hj := h.kind_of_mem j (Agenda.mem_cancel.1 hj).1
  mem_of_kind j hj := h.mem_of_kind j (Agenda.mem_cancel.1 hj).1
  unique := h.unique

/-- A job of another kind has no owner. -/
theorem schedule (h : Held a handles kind) (due : Nat) {task : Task} (ht : task ≠ kind) :
    Held (a.schedule due task) handles kind where
  old id hid := Nat.lt_succ_of_lt (h.old id hid)
  kind_of_mem j hj hid := by
    rcases Agenda.mem_schedule.1 hj with rfl | hj
    · exact absurd (h.old _ hid) (Nat.lt_irrefl _)
    · exact h.kind_of_mem j hj hid
  mem_of_kind j hj hk := by
    rcases Agenda.mem_schedule.1 hj with rfl | hj
    · exact absurd hk ht
    · exact h.mem_of_kind j hj hk
  unique := h.unique

theorem append (h : Held a handles kind) : Held a (handles ++ [none]) kind where
  old id hid := h.old id (by simpa using hid)
  kind_of_mem j hj hid := h.kind_of_mem j hj (by simpa using hid)
  mem_of_kind j hj hk := List.mem_append_left _ (h.mem_of_kind j hj hk)
  unique i k id hi hk := by
    have at_old : ∀ n : Nat, (handles ++ [none])[n]? = some (some id) →
        handles[n]? = some (some id) := by
      intro n hn
      rw [List.getElem?_append] at hn
      split at hn
      · exact hn
      · rw [List.getElem?_singleton] at hn
        split at hn <;> simp at hn
    exact h.unique i k id (at_old i hi) (at_old k hk)

/-- A handle gives way to another once its job is gone. -/
theorem mem_set {i : Nat} {new : Option Nat} {id : Nat} (hgone : handles[i]? ≠ some (some id))
    (hid : some id ∈ handles) : some id ∈ handles.set i new := by
  obtain ⟨n, hn, he⟩ := List.mem_iff_getElem.1 hid
  by_cases hni : i = n
  · subst hni
    exact absurd (by rw [List.getElem?_eq_getElem hn, he]) hgone
  · exact List.mem_iff_getElem.2 ⟨n, by simpa using hn, by rw [List.getElem_set_ne hni]; exact he⟩

theorem drop (h : Held a handles kind) {i : Nat}
    (hgone : ∀ j ∈ a.jobs, handles[i]? ≠ some (some j.id)) :
    Held a (handles.set i none) kind where
  old id hid := h.old id (by
    rcases List.mem_or_eq_of_mem_set hid with hid | hid
    · exact hid
    · cases hid)
  kind_of_mem j hj hid := h.kind_of_mem j hj (by
    rcases List.mem_or_eq_of_mem_set hid with hid | hid
    · exact hid
    · cases hid)
  mem_of_kind j hj hk := mem_set (hgone j hj) (h.mem_of_kind j hj hk)
  unique p q id hp hq := by
    rw [List.getElem?_set] at hp hq
    split at hp <;> split at hq
    · omega
    · split at hp <;> simp at hp
    · split at hq <;> simp at hq
    · exact h.unique p q id hp hq

/-- The owner `i` arms a new job in the place of one that is gone. -/
theorem arm (h : Held a handles kind) (ha : a.Ordered) (due : Nat) {i : Nat}
    (hi : i < handles.length)
    (hgone : ∀ j ∈ a.jobs, handles[i]? ≠ some (some j.id)) :
    Held (a.schedule due kind) (handles.set i (some a.nextId)) kind where
  old id hid := by
    rcases List.mem_or_eq_of_mem_set hid with hid | hid
    · exact Nat.lt_succ_of_lt (h.old id hid)
    · cases hid
      exact Nat.lt_succ_self _
  kind_of_mem j hj hid := by
    rcases Agenda.mem_schedule.1 hj with rfl | hj
    · rfl
    · rcases List.mem_or_eq_of_mem_set hid with hid | hid
      · exact h.kind_of_mem j hj hid
      · exact absurd (ha.fresh j hj) (by rw [Option.some.inj hid]; exact Nat.lt_irrefl _)
  mem_of_kind j hj hk := by
    rcases Agenda.mem_schedule.1 hj with rfl | hj
    · exact List.mem_set hi _
    · exact mem_set (hgone j hj) (h.mem_of_kind j hj hk)
  unique p q id hp hq := by
    have hnew : ∀ n : Nat, handles[n]? ≠ some (some a.nextId) := fun n hn =>
      Nat.lt_irrefl _ (h.old _ (List.mem_of_getElem? hn))
    rw [List.getElem?_set] at hp hq
    split at hp <;> split at hq
    · omega
    · cases hp
      exact absurd hq (hnew q)
    · cases hq
      exact absurd hp (hnew p)
    · exact h.unique p q id hp hq

end Held

/-! ### Tidy consoles -/

namespace Console

variable {c : Console} {i : Nat}

structure Tidy (c : Console) : Prop where
  ordered : c.agenda.Ordered
  due : ∀ j ∈ c.agenda.jobs, c.now ≤ j.due
  timers : Held c.agenda (c.controllers.map (·.timer)) .reload
  redirects : Held c.agenda (c.dispatchers.map (·.redirect)) .goHome

theorem tidy_ofPage (page : Page) : (ofPage page).Tidy where
  ordered := Agenda.ordered_empty
  due := by simp [ofPage]
  timers := .nil _ rfl _
  redirects := .nil _ rfl _

/-- Nothing but the clock, the agenda and the owners of jobs matters. -/
theorem Tidy.congr (h : c.Tidy) {d : Console} (hn : d.now = c.now) (ha : d.agenda = c.agenda)
    (hc : d.controllers.map (·.timer) = c.controllers.map (·.timer))
    (hd : d.dispatchers = c.dispatchers) : d.Tidy where
  ordered := ha ▸ h.ordered
  due := by rw [ha, hn]; exact h.due
  timers := by rw [ha, hc]; exact h.timers
  redirects := by rw [ha, hd]; exact h.redirects

theorem Tidy.cancel (h : c.Tidy) (job : Option Nat) : (c.cancel job).Tidy := by
  cases job with
  | none => exact h
  | some id =>
    exact ⟨h.ordered.cancel id, fun j hj => h.due j (Agenda.mem_cancel.1 hj).1,
      h.timers.cancel id, h.redirects.cancel id⟩

theorem le_due_schedule (h : ∀ j ∈ c.agenda.jobs, c.now ≤ j.due) (delay : Nat) (task : Task) :
    ∀ j ∈ (c.schedule delay task).agenda.jobs, c.now ≤ j.due := by
  intro j hj
  rcases Agenda.mem_schedule.1 hj with rfl | hj
  · exact now_le_after c delay
  · exact h j hj

theorem Tidy.schedule (h : c.Tidy) (delay : Nat) {task : Task} (hr : task ≠ .reload)
    (hg : task ≠ .goHome) : (c.schedule delay task).Tidy where
  ordered := h.ordered.schedule _ _
  due := le_due_schedule h.due delay task
  timers := h.timers.schedule _ hr
  redirects := h.redirects.schedule _ hg

theorem Tidy.navigate (h : c.Tidy) (target : String) : (c.navigate target).Tidy :=
  h.congr (by simp) (by simp) (by simp) (by simp)

/-! ### Controllers -/

/-- A job that was cancelled is no longer there. -/
theorem handle_ne_of_mem_cancel {job : Option Nat} {handles : List (Option Nat)}
    (hi : handles[i]? = some job) :
    ∀ j ∈ (c.cancel job).agenda.jobs, handles[i]? ≠ some (some j.id) := by
  intro j hj he
  rw [hi, Option.some.injEq] at he
  exact ((mem_cancel c job).1 hj).2 he.symm

theorem getElem?_timer {k : Controller} (hk : c.controllers[i]? = some k) :
    (c.controllers.map (·.timer))[i]? = some k.timer := by
  rw [List.getElem?_map, hk, Option.map_some]

theorem getElem?_redirect {d : Dispatcher} (hd : c.dispatchers[i]? = some d) :
    (c.dispatchers.map (·.redirect))[i]? = some d.redirect := by
  rw [List.getElem?_map, hd, Option.map_some]

theorem Tidy.disarm (h : c.Tidy) (i : Nat) : (c.disarm i).Tidy := by
  cases hk : c.controllers[i]? with
  | none => simpa only [Console.disarm, hk] using h
  | some k =>
    rw [disarm_of_some hk]
    have hc := h.cancel k.timer
    refine ⟨hc.ordered, hc.due, ?_, hc.redirects⟩
    rw [List.map_set]
    exact hc.timers.drop (handle_ne_of_mem_cancel (getElem?_timer hk))

theorem Tidy.arm (h : c.Tidy) (i : Nat) : (c.arm i).Tidy := by
  cases hk : c.controllers[i]? with
  | none => simpa only [Console.arm, hk] using h
  | some k =>
    rw [arm_of_some hk]
    have hc := h.cancel k.timer
    have hlt : i < c.controllers.length := (List.getElem?_eq_some_iff.1 hk).1
    refine ⟨hc.ordered.schedule _ _, le_due_schedule hc.due k.interval .reload, ?_,
      hc.redirects.schedule _ (by simp)⟩
    rw [List.map_set, ← cancel_nextId c k.timer]
    exact hc.timers.arm hc.ordered _ (by simpa using hlt)
      (handle_ne_of_mem_cancel (getElem?_timer hk))

theorem Tidy.setState (h : c.Tidy) (i : Nat) (state : ReloadState) : (c.setState i state).Tidy :=
  h.congr rfl rfl (setState_timers c i state) rfl

/-- The page is nobody's timer. -/
theorem Tidy.page (h : c.Tidy) (page : Page) : Tidy { c with page } := h.congr rfl rfl rfl rfl

theorem Tidy.pageLoaded (h : c.Tidy) (i : Nat) : (c.pageLoaded i).Tidy := by
  unfold Console.pageLoaded
  split
  · exact ((h.arm i).setState i .on).page _
  · exact h

theorem Tidy.toggle (h : c.Tidy) (i : Nat) (checked : Bool) : (c.toggle i checked).Tidy := by
  unfold Console.toggle
  split
  · exact ((h.page _).arm i).setState i .on
  · exact ((h.page _).disarm i).setState i .off

theorem Tidy.addController (h : c.Tidy) (interval : Nat) : (c.addController interval).Tidy := by
  refine ⟨h.ordered, h.due, ?_, h.redirects⟩
  simp only [Console.addController, List.map_append]
  exact h.timers.append

/-! ### Dispatchers -/

theorem Tidy.addDispatcher (h : c.Tidy) (delay : Nat) : (c.addDispatcher delay).Tidy := by
  refine ⟨h.ordered, h.due, h.timers, ?_⟩
  simp only [Console.addDispatcher, List.map_append]
  exact h.redirects.append

theorem Tidy.armRedirect (h : c.Tidy) (i : Nat) : (c.armRedirect i).Tidy := by
  cases hd : c.dispatchers[i]? with
  | none => rwa [armRedirect_of_none hd]
  | some d =>
    rw [armRedirect_of_some hd]
    have hc := h.cancel d.redirect
    have hlt : i < c.dispatchers.length := (List.getElem?_eq_some_iff.1 hd).1
    refine ⟨hc.ordered.schedule _ _, le_due_schedule hc.due d.delay .goHome,
      hc.timers.schedule _ (by simp), ?_⟩
    rw [List.map_set, ← cancel_nextId c d.redirect]
    exact hc.redirects.arm hc.ordered _ (by simpa using hlt)
      (handle_ne_of_mem_cancel (getElem?_redirect hd))

theorem Tidy.conclude (h : c.Tidy) (i : Nat) (request : CommandRequest)
    (result : Except String EntitlementResponse) : (c.conclude i request result).2.Tidy := by
  unfold Console.conclude
  split
  · exact h
  · exact h.navigate _
  · exact (h.schedule 0 (by simp) (by simp)).armRedirect i

theorem Tidy.enforce (h : c.Tidy) (result : Except String EntitlementResponse) :
    (c.enforce result).2.Tidy := by
  unfold Console.enforce
  split
  · exact h.navigate _
  · exact h

theorem Tidy.record (h : c.Tidy) (call : Call) : (c.record call).Tidy := h.congr rfl rfl rfl rfl

theorem Tidy.submit (h : c.Tidy) (s : Server) (request : CommandRequest) :
    (c.submit s request).Tidy := by
  unfold Console.submit
  split
  · exact h.record _
  · exact (h.record _).schedule _ (by simp) (by simp)

/-! ### Jobs and time -/

theorem Tidy.perform (h : c.Tidy) (s : Server) {task : Task} : (c.perform s task).Tidy := by
  cases task with
  | reload => exact h.page _
  | goHome => exact h.navigate _
  | submit request => exact h.submit s request
  | submitted result => exact h
  | dispatch i request => exact (h.record .entitlement).schedule _ (by simp) (by simp)
  | conclude i request result => exact (h.conclude i request result).congr rfl rfl rfl rfl
  | act actions => exact h.page _

/-- The clock goes on as long as nothing becomes overdue. -/
theorem Tidy.wait (h : c.Tidy) {time : Nat} (ht : ∀ j ∈ c.agenda.jobs, time ≤ j.due) :
    Tidy { c with now := time } :=
  ⟨h.ordered, ht, h.timers, h.redirects⟩

/-- A job can be taken when it is the next one, or due. -/
theorem Tidy.take (h : c.Tidy) {j : Job Task} (hj : ∀ k ∈ c.agenda.jobs, j.due ≤ k.due) :
    Tidy { c.cancel (some j.id) with now := max c.now j.due } := by
  refine (h.cancel (some j.id)).wait fun k hk => ?_
  have hk := (Agenda.mem_cancel.1 hk).1
  exact Nat.max_le.2 ⟨h.due k hk, hj k hk⟩

theorem Tidy.resume (h : c.Tidy) (s : Server) {j : Job Task}
    (hj : ∀ k ∈ c.agenda.jobs, j.due ≤ k.due) : (c.resume s j).Tidy :=
  (h.take hj).perform s

end Console

end ClusterConsole
