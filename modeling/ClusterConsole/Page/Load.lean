import ClusterConsole.Page.Basic

/-! Waiting for a page to be loaded again or left. Replacements and lost events are
passed over. -/

namespace ClusterConsole

/-- What a wait comes to: the page was reloaded or left, the feed ended, or nothing
has happened yet. -/
inductive Load where
  | reloaded
  | navigated
  | closed
  | waiting
  deriving DecidableEq, Repr, Inhabited

namespace Feed

/-- The next load at or after a position, and the position after it. -/
def nextLoad (f : Feed PageEvent) (position : Nat) : Load × Nat :=
  if position < f.oldest then nextLoad f f.oldest
  else
    match _h : f.sent[position]? with
    | some (.reloaded _) => (.reloaded, position + 1)
    | some (.navigated _) => (.navigated, position + 1)
    | some (.replaced _) => nextLoad f (position + 1)
    | none => (if f.closed then .closed else .waiting, position)
termination_by f.sent.length - position
decreasing_by
  · simp only [oldest] at *; omega
  · have := (List.getElem?_eq_some_iff.1 _h).1; omega

/-- A reload lies at or after the position, and the next position right after
it. -/
theorem nextLoad_reloaded {f : Feed PageEvent} {position next : Nat}
    (h : f.nextLoad position = (.reloaded, next)) : position < next ∧ next ≤ f.sent.length := by
  fun_induction nextLoad f position with
  | case1 position hp ih => have := ih h; omega
  | case2 position hp u hu =>
    have := (List.getElem?_eq_some_iff.1 hu).1
    simp only [Prod.mk.injEq, true_and] at h
    omega
  | case3 => simp at h
  | case4 position hp u hu ih => have := ih h; omega
  | case5 position hp hu => split at h <;> simp at h

/-- The next load that leaves the page, and the position after it: reloads are
awaited and passed over. -/
def nextNavigation (f : Feed PageEvent) (position : Nat) : Load × Nat :=
  match _h : f.nextLoad position with
  | (.reloaded, next) => nextNavigation f next
  | found => found
termination_by f.sent.length - position
decreasing_by have := nextLoad_reloaded _h; omega

end Feed

end ClusterConsole
