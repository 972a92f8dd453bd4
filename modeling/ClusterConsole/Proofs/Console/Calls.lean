import ClusterConsole.Proofs.Console.Work

/-! The calls of a run. A move makes one call at most, at once, so that the calls of a run are
those of its moves, in their order. -/

namespace ClusterConsole

def Call.isView : Call → Bool
  | view _ => true
  | _ => false

/-- The call that a task makes when it is done. -/
def Task.call? : Task → Option Call
  | submit request => some (.submit request)
  | dispatch _ _ => some .entitlement
  | _ => none

def Move.call? : Move → Option Call
  | resume j => j.task.call?
  | ask _ => some .entitlement
  | view path => some (.view path)
  | _ => none

namespace Console

variable (s : Server) (c : Console)

theorem calls_perform (task : Task) :
    (c.perform s task).calls = c.calls ++ (task.call?.map (⟨c.now, ·⟩)).toList := by
  cases task with
  | goHome => exact (navigate_calls c _).trans (List.append_nil _).symm
  | submit request => exact submit_calls c request s
  | dispatch i request => rfl
  | conclude i request result =>
    exact (conclude_calls c i request result).trans (List.append_nil _).symm
  | _ => exact (List.append_nil _).symm

/-- The views that were asked for. -/
def views : Nat := c.calls.countP (·.call.isView)

end Console

namespace World

variable {s : Server} {w : World} {m : Move} {ms : List Move}

theorem calls_move (s : Server) (ha : w.Allows m) : (w.move s m).console.calls =
    w.console.calls ++ (m.call?.map (⟨w.console.now, ·⟩)).toList := by
  cases m with
  | resume j =>
    have hresume : (w.move s (.resume j)).console =
        (w.console.cancel (some j.id)).perform s j.task := Console.resume_of_due ha.2
    rw [hresume, Console.calls_perform, Console.cancel_calls, Console.cancel_now]
    rfl
  | answer q =>
    obtain ⟨purpose, call, due, result⟩ := q
    cases purpose with
    | dispatch i request =>
      exact (Console.conclude_calls _ i request result).trans (List.append_nil _).symm
    | check => exact (List.append_nil _).symm
    | enforce => exact (Console.enforce_calls _ result).trans (List.append_nil _).symm
  | ask purpose => rfl
  | view path => rfl
  | pageLoaded i => exact (Console.pageLoaded_calls _ i).trans (List.append_nil _).symm
  | toggle i checked => exact (Console.toggle_calls _ i checked).trans (List.append_nil _).symm
  | dropController i => exact (Console.disarm_calls _ i).trans (List.append_nil _).symm
  | _ => exact (List.append_nil _).symm

theorem calls_run (hl : Lawful s w ms) : (w.run s ms).console.calls.map CallRecord.call =
    w.console.calls.map CallRecord.call ++ ms.filterMap Move.call? := by
  induction ms generalizing w with
  | nil => exact (List.append_nil _).symm
  | cons m ms ih =>
    have hmove := congrArg (List.map CallRecord.call) (calls_move s hl.1)
    rw [List.map_append] at hmove
    rw [run_cons, ih hl.2, hmove, List.append_assoc]
    cases hcall : m.call? with
    | none => rw [List.filterMap_cons_none hcall]; rfl
    | some call => rw [List.filterMap_cons_some hcall]; rfl

theorem views_run (hl : Lawful s w ms) : (w.run s ms).console.views =
    w.console.views + (ms.filterMap Move.call?).countP Call.isView := by
  have hviews : ∀ c : Console, c.views = (c.calls.map CallRecord.call).countP Call.isView := by
    intro c
    rw [List.countP_map]
    rfl
  rw [hviews, calls_run hl, List.countP_append, ← hviews]

end World

end ClusterConsole
