import ClusterConsole.Console.Run

/-! What the operations of a console leave alone. Only what a task is about changes: a
timer touches no call and no dispatcher, a redirect no controller, and neither of them
the clock or, before it is due, the page. -/

namespace ClusterConsole

theorem Decision.ofAnswer_denied {r : EntitlementResponse} (h : r.isEntitled = false) :
    ofAnswer (.ok r) = .ok .denied := by
  rw [ofAnswer, h]
  rfl

namespace Console

variable (c : Console) (i : Nat) (delay : Nat) (task : Task) (job : Option Nat) (call : Call)
  (target : String)

/-! ### Jobs and calls -/

@[simp] theorem schedule_now : (c.schedule delay task).now = c.now := rfl
@[simp] theorem schedule_page : (c.schedule delay task).page = c.page := rfl
@[simp] theorem schedule_calls : (c.schedule delay task).calls = c.calls := rfl
@[simp] theorem schedule_controllers : (c.schedule delay task).controllers = c.controllers := rfl
@[simp] theorem schedule_dispatchers : (c.schedule delay task).dispatchers = c.dispatchers := rfl
@[simp] theorem schedule_agenda :
    (c.schedule delay task).agenda = c.agenda.schedule (c.after delay) task := rfl

@[simp] theorem cancel_now : (c.cancel job).now = c.now := rfl
@[simp] theorem cancel_page : (c.cancel job).page = c.page := rfl
@[simp] theorem cancel_calls : (c.cancel job).calls = c.calls := rfl
@[simp] theorem cancel_controllers : (c.cancel job).controllers = c.controllers := rfl
@[simp] theorem cancel_dispatchers : (c.cancel job).dispatchers = c.dispatchers := rfl

@[simp] theorem cancel_nextId : (c.cancel job).agenda.nextId = c.agenda.nextId := by
  cases job <;> rfl

theorem mem_cancel {j : Job Task} :
    j ∈ (c.cancel job).agenda.jobs ↔ j ∈ c.agenda.jobs ∧ some j.id ≠ job := by
  cases job <;> simp [cancel, Agenda.cancel]

@[simp] theorem record_agenda : (c.record call).agenda = c.agenda := rfl

@[simp] theorem navigate_now : (c.navigate target).now = c.now := by simp only [navigate]
@[simp] theorem navigate_calls : (c.navigate target).calls = c.calls := by simp only [navigate]
@[simp] theorem navigate_controllers : (c.navigate target).controllers = c.controllers := by
  simp only [navigate]
@[simp] theorem navigate_dispatchers : (c.navigate target).dispatchers = c.dispatchers := by
  simp only [navigate]
@[simp] theorem navigate_agenda : (c.navigate target).agenda = c.agenda := by simp only [navigate]
@[simp] theorem navigate_page : (c.navigate target).page = c.page.navigate target := by
  simp only [navigate]



theorem now_le_after : c.now ≤ c.after delay := Nat.le_add_right _ _

/-! ### Controllers -/

variable {c i} in
theorem disarm_of_some {k : Controller} (hk : c.controllers[i]? = some k) :
    c.disarm i = { c.cancel k.timer with
      controllers := c.controllers.set i { k with timer := none } } := by
  simp only [disarm, hk]

variable {c i} in
theorem arm_of_some {k : Controller} (hk : c.controllers[i]? = some k) :
    c.arm i = { (c.cancel k.timer).schedule k.interval .reload with
      controllers := c.controllers.set i { k with timer := some c.agenda.nextId } } := by
  simp only [arm, hk, disarm_of_some hk]
  rfl

variable {c i} in
theorem disarm_of_none (hk : c.controllers[i]? = none) : c.disarm i = c := by
  simp only [disarm, hk]

variable {c i} in
theorem arm_of_none (hk : c.controllers[i]? = none) : c.arm i = c := by simp only [arm, hk]

@[simp] theorem disarm_length : (c.disarm i).controllers.length = c.controllers.length := by
  unfold disarm
  split
  · rfl
  · exact List.length_set

@[simp] theorem arm_length : (c.arm i).controllers.length = c.controllers.length := by
  unfold arm
  split
  · rfl
  · exact List.length_set

@[simp] theorem disarm_now : (c.disarm i).now = c.now := by unfold disarm; split <;> rfl
@[simp] theorem disarm_page : (c.disarm i).page = c.page := by unfold disarm; split <;> rfl
@[simp] theorem disarm_calls : (c.disarm i).calls = c.calls := by unfold disarm; split <;> rfl
@[simp] theorem disarm_dispatchers : (c.disarm i).dispatchers = c.dispatchers := by
  unfold disarm; split <;> rfl

@[simp] theorem arm_now : (c.arm i).now = c.now := by unfold arm; split <;> simp
@[simp] theorem arm_page : (c.arm i).page = c.page := by unfold arm; split <;> simp
@[simp] theorem arm_calls : (c.arm i).calls = c.calls := by unfold arm; split <;> simp
@[simp] theorem arm_dispatchers : (c.arm i).dispatchers = c.dispatchers := by
  unfold arm; split <;> simp

variable (state : ReloadState) (checked : Bool)

@[simp] theorem setState_now : (c.setState i state).now = c.now := rfl
@[simp] theorem setState_page : (c.setState i state).page = c.page := rfl
@[simp] theorem setState_agenda : (c.setState i state).agenda = c.agenda := rfl
@[simp] theorem setState_calls : (c.setState i state).calls = c.calls := rfl
@[simp] theorem setState_dispatchers : (c.setState i state).dispatchers = c.dispatchers := rfl

theorem getElem?_setState (n : Nat) :
    (c.setState i state).controllers[n]? =
      (fun k => if i = n then { k with state } else k) <$> c.controllers[n]? :=
  List.getElem?_modify _ i _ n

/-- The state is the one that was set. -/
theorem reloadState_setState (hi : i < c.controllers.length) :
    (c.setState i state).reloadState i = state := by
  rw [reloadState, getElem?_setState, List.getElem?_eq_getElem hi]
  simp

@[simp] theorem setState_timers :
    (c.setState i state).controllers.map (·.timer) = c.controllers.map (·.timer) := by
  refine List.ext_getElem? fun n => ?_
  simp only [setState, List.getElem?_map, List.getElem?_modify]
  split
  · cases c.controllers[n]? <;> rfl
  · cases c.controllers[n]? <;> rfl

@[simp] theorem pageLoaded_length :
    (c.pageLoaded i).controllers.length = c.controllers.length := by
  unfold pageLoaded
  split
  · exact (List.length_modify _ _ _).trans (arm_length c i)
  · rfl

@[simp] theorem pageLoaded_now : (c.pageLoaded i).now = c.now := by
  unfold pageLoaded; split <;> simp
@[simp] theorem pageLoaded_calls : (c.pageLoaded i).calls = c.calls := by
  unfold pageLoaded; split <;> simp
@[simp] theorem pageLoaded_dispatchers : (c.pageLoaded i).dispatchers = c.dispatchers := by
  unfold pageLoaded; split <;> simp

@[simp] theorem toggle_now : (c.toggle i checked).now = c.now := by
  unfold toggle; split <;> simp
@[simp] theorem toggle_calls : (c.toggle i checked).calls = c.calls := by
  unfold toggle; split <;> simp
@[simp] theorem toggle_dispatchers : (c.toggle i checked).dispatchers = c.dispatchers := by
  unfold toggle; split <;> simp

/-- A load at most checks the box. -/
theorem pageLoaded_page : (c.pageLoaded i).page =
    if c.page.fragment = some autoReloadFragment then c.page.setChecked true else c.page := by
  unfold pageLoaded
  split
  · simp
  · rfl

theorem toggle_page : (c.toggle i checked).page =
    c.page.replace (if checked then "#" ++ autoReloadFragment else Route.home) := by
  unfold toggle
  split
  · simp
  · simp

/-! ### Dispatchers -/

variable {c i} in
theorem armRedirect_of_some {d : Dispatcher} (hd : c.dispatchers[i]? = some d) :
    c.armRedirect i = { (c.cancel d.redirect).schedule d.delay .goHome with
      dispatchers := c.dispatchers.set i { d with redirect := some c.agenda.nextId } } := by
  simp only [armRedirect, hd]

variable {c i} in
theorem armRedirect_of_none (hd : c.dispatchers[i]? = none) : c.armRedirect i = c := by
  simp only [armRedirect, hd]

@[simp] theorem armRedirect_now : (c.armRedirect i).now = c.now := by
  unfold armRedirect; split <;> rfl
@[simp] theorem armRedirect_page : (c.armRedirect i).page = c.page := by
  unfold armRedirect; split <;> rfl
@[simp] theorem armRedirect_calls : (c.armRedirect i).calls = c.calls := by
  unfold armRedirect; split <;> rfl
@[simp] theorem armRedirect_controllers : (c.armRedirect i).controllers = c.controllers := by
  unfold armRedirect; split <;> rfl

variable (request : CommandRequest) (result : Except String EntitlementResponse)

@[simp] theorem conclude_now : (c.conclude i request result).2.now = c.now := by
  unfold conclude; split <;> simp
@[simp] theorem conclude_calls : (c.conclude i request result).2.calls = c.calls := by
  unfold conclude; split <;> simp
@[simp] theorem conclude_controllers :
    (c.conclude i request result).2.controllers = c.controllers := by
  unfold conclude; split <;> simp

theorem conclude_denied_page {r : EntitlementResponse} (hr : r.isEntitled = false) :
    (c.conclude i request (.ok r)).2.page = c.page.navigate Route.unauthorized := by
  unfold conclude
  rw [Decision.ofAnswer_denied hr]
  exact navigate_page c _

/-- Only a denial moves the page. -/
theorem conclude_page : (c.conclude i request result).2.page = c.page ∨
    (c.conclude i request result).2.page = c.page.navigate Route.unauthorized := by
  unfold conclude
  split
  · exact .inl rfl
  · exact .inr (navigate_page c _)
  · exact .inl (by simp)

theorem enforce_page : (c.enforce result).2.page = c.page ∨
    (c.enforce result).2.page = c.page.navigate Route.unauthorized := by
  unfold enforce
  split
  · exact .inr (navigate_page c _)
  · exact .inl rfl

@[simp] theorem enforce_now : (c.enforce result).2.now = c.now := by
  unfold enforce; split <;> simp
@[simp] theorem enforce_calls : (c.enforce result).2.calls = c.calls := by
  unfold enforce; split <;> simp
@[simp] theorem enforce_controllers : (c.enforce result).2.controllers = c.controllers := by
  unfold enforce; split <;> simp
@[simp] theorem enforce_dispatchers : (c.enforce result).2.dispatchers = c.dispatchers := by
  unfold enforce; split <;> simp
@[simp] theorem enforce_agenda : (c.enforce result).2.agenda = c.agenda := by
  unfold enforce; split <;> simp

variable (s : Server)

@[simp] theorem submit_now : (c.submit s request).now = c.now := by
  unfold submit; split <;> rfl
@[simp] theorem submit_page : (c.submit s request).page = c.page := by
  unfold submit; split <;> rfl
@[simp] theorem submit_calls :
    (c.submit s request).calls = c.calls ++ [⟨c.now, .submit request⟩] := by
  unfold submit; split <;> rfl
@[simp] theorem submit_controllers : (c.submit s request).controllers = c.controllers := by
  unfold submit; split <;> rfl
@[simp] theorem submit_dispatchers : (c.submit s request).dispatchers = c.dispatchers := by
  unfold submit; split <;> rfl

end Console

end ClusterConsole
