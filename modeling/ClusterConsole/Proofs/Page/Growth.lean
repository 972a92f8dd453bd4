import Mathlib.Data.List.TakeWhile
import ClusterConsole.Page.Load

/-! The growth of a page's feed. Events are only ever sent behind those sent before, so that what a
feed says up to a position it says for good. -/

namespace ClusterConsole

namespace PageEvent

def isReload : PageEvent → Bool
  | reloaded _ => true
  | _ => false

def isNavigation : PageEvent → Bool
  | navigated _ => true
  | _ => false

end PageEvent

/-- The reloads among events before the first that says that the page was left. -/
def reloadsBefore (events : List PageEvent) : Nat :=
  (events.takeWhile (!·.isNavigation)).countP PageEvent.isReload

/-- Without an event that says that the page was left all reloads count, whatever follows. -/
theorem countP_le_reloadsBefore {events : List PageEvent}
    (h : ∀ e ∈ events, e.isNavigation = false) (rest : List PageEvent) :
    events.countP PageEvent.isReload ≤ reloadsBefore (events ++ rest) := by
  have hall : ∀ e ∈ events, (!e.isNavigation) = true := fun e he => by rw [h e he]; rfl
  unfold reloadsBefore
  rw [List.takeWhile_append_of_pos hall, List.countP_append]
  exact Nat.le_add_right _ _

theorem reloadsBefore_le_append (events rest : List PageEvent) :
    reloadsBefore events ≤ reloadsBefore (events ++ rest) := by
  by_cases hall : ∀ e ∈ events, e.isNavigation = false
  · exact Nat.le_trans ((List.takeWhile_prefix _).countP_le) (countP_le_reloadsBefore hall rest)
  · have hne : (events.takeWhile (!·.isNavigation)).length ≠ events.length := by
      intro hlength
      have hself :=
        (List.takeWhile_prefix fun e : PageEvent => !e.isNavigation).eq_of_length hlength
      rw [List.takeWhile_eq_self_iff] at hself
      exact hall fun e he => by simpa using hself e he
    unfold reloadsBefore
    rw [List.takeWhile_append, if_neg hne]

namespace Feed

variable {f g h : Feed PageEvent} {start stop stop' i : Nat}

/-- More was sent. -/
structure Grows (f g : Feed PageEvent) : Prop where
  capacity : g.capacity = f.capacity
  sent : ∃ rest, g.sent = f.sent ++ rest

theorem Grows.refl (f : Feed PageEvent) : f.Grows f := ⟨rfl, [], (List.append_nil _).symm⟩

theorem Grows.trans (hfg : f.Grows g) (hgh : g.Grows h) : f.Grows h := by
  obtain ⟨rest, hg⟩ := hfg.sent
  obtain ⟨rest', hh⟩ := hgh.sent
  exact ⟨hgh.capacity.trans hfg.capacity, rest ++ rest', by rw [hh, hg, List.append_assoc]⟩

theorem grows_send (f : Feed PageEvent) (e : PageEvent) : f.Grows (f.send e) := ⟨rfl, [e], rfl⟩

theorem Grows.length_le (hfg : f.Grows g) : f.sent.length ≤ g.sent.length := by
  obtain ⟨rest, hg⟩ := hfg.sent
  rw [hg, List.length_append]
  exact Nat.le_add_right _ _

theorem Grows.oldest_le (hfg : f.Grows g) : f.oldest ≤ g.oldest := by
  unfold oldest
  rw [hfg.capacity]
  exact Nat.sub_le_sub_right hfg.length_le _

theorem Grows.getElem? (hfg : f.Grows g) (hi : i < f.sent.length) : g.sent[i]? = f.sent[i]? := by
  obtain ⟨rest, hg⟩ := hfg.sent
  rw [hg, List.getElem?_append_left hi]

/-! ### Parts of a feed -/

/-- Among the events from one position up to another one says that the page was left. -/
def LeftWithin (f : Feed PageEvent) (start stop : Nat) : Prop :=
  ∃ i u, start ≤ i ∧ i < stop ∧ f.sent[i]? = some (.navigated u)

/-- The reloads among the events from one position up to another. -/
def reloads (f : Feed PageEvent) (start stop : Nat) : Nat :=
  ((f.sent.take stop).drop start).countP PageEvent.isReload

theorem not_leftWithin_self (f : Feed PageEvent) (start : Nat) : ¬ f.LeftWithin start start := by
  rintro ⟨i, u, hle, hlt, -⟩
  omega

theorem Grows.reloads_eq (hfg : f.Grows g) (hstop : stop ≤ f.sent.length) :
    g.reloads start stop = f.reloads start stop := by
  obtain ⟨rest, hg⟩ := hfg.sent
  unfold reloads
  rw [hg, List.take_append_of_le_length hstop]

theorem reloads_mono (hle : stop ≤ stop') : f.reloads start stop ≤ f.reloads start stop' := by
  unfold reloads
  exact ((List.take_sublist_take_left hle).drop start).countP_le

/-- A reload counts. -/
theorem reloads_succ {u : Url} (hstart : start ≤ i) (hi : f.sent[i]? = some (.reloaded u)) :
    f.reloads start (i + 1) = f.reloads start i + 1 := by
  have hlt : i < f.sent.length := (List.getElem?_eq_some_iff.1 hi).1
  have hlength : start ≤ (f.sent.take i).length := by
    rw [List.length_take]
    omega
  unfold reloads
  rw [List.take_add_one, hi, List.drop_append_of_le_length hlength, List.countP_append]
  rfl

/-- Up to a position before which the page was not left no more reloads came than before it was
left at all. -/
theorem reloads_le_reloadsBefore (hleft : ¬ f.LeftWithin start stop) :
    f.reloads start stop ≤ reloadsBefore (f.sent.drop start) := by
  unfold reloads
  rw [List.drop_take]
  have hnone : ∀ e ∈ (f.sent.drop start).take (stop - start), e.isNavigation = false := by
    intro e he
    obtain ⟨i, hi⟩ := List.mem_iff_getElem?.1 he
    rw [List.getElem?_take] at hi
    split at hi
    · next hlt =>
      rw [List.getElem?_drop] at hi
      cases e with
      | navigated u => exact absurd ⟨start + i, u, by omega, by omega, hi⟩ hleft
      | _ => rfl
    · cases hi
  have hle := countP_le_reloadsBefore hnone ((f.sent.drop start).drop (stop - start))
  rwa [List.take_append_drop] at hle

theorem Grows.reloadsBefore_le (hfg : f.Grows g) (hstart : start ≤ f.sent.length) :
    reloadsBefore (f.sent.drop start) ≤ reloadsBefore (g.sent.drop start) := by
  obtain ⟨rest, hg⟩ := hfg.sent
  rw [hg, List.drop_append_of_le_length hstart]
  exact reloadsBefore_le_append _ _

end Feed

namespace Page

/-- Whatever a page does, it only sends more. -/
theorem grows_act (p : Page) (action : PageAction) : p.feed.Grows (p.act action).feed := by
  cases action with
  | navigate target =>
    show p.feed.Grows (p.navigate target).feed
    unfold navigate
    split
    · exact .refl _
    · exact Feed.grows_send _ _
  | replace target =>
    show p.feed.Grows (p.replace target).feed
    unfold replace
    split
    · exact .refl _
    · exact Feed.grows_send _ _
  | reload => exact Feed.grows_send _ _
  | setChecked checked => exact .refl _

theorem grows_acts (p : Page) (actions : List PageAction) :
    p.feed.Grows (p.acts actions).feed := by
  induction actions generalizing p with
  | nil => exact .refl _
  | cons action actions ih => exact (grows_act p action).trans (ih (p.act action))

/-- Nor does it end its feed. -/
theorem closed_act (p : Page) (action : PageAction) :
    (p.act action).feed.closed = p.feed.closed := by
  cases action with
  | navigate target =>
    have hact : p.act (.navigate target) = p.navigate target := rfl
    rw [hact]
    unfold navigate
    split <;> rfl
  | replace target =>
    have hact : p.act (.replace target) = p.replace target := rfl
    rw [hact]
    unfold replace
    split <;> rfl
  | _ => rfl

theorem closed_acts (p : Page) (actions : List PageAction) :
    (p.acts actions).feed.closed = p.feed.closed := by
  induction actions generalizing p with
  | nil => rfl
  | cons action actions ih => exact (ih (p.act action)).trans (closed_act p action)

end Page

end ClusterConsole
