import ClusterConsole.Page.Load

/-! What a reader of the feed comes to that waits for the page to be left. It passes over
replacements, reloads and events that are no longer kept, and finds the page left exactly if
that is said by an event at or after its position that is kept. -/

namespace ClusterConsole

/-- The load that an event is; a replacement is none. -/
def PageEvent.load? : PageEvent → Option Load
  | .navigated _ => some .navigated
  | .replaced _ => none
  | .reloaded _ => some .reloaded

namespace Feed

variable {f : Feed PageEvent} {position next i : Nat} {load : Load}

/-- At or after a position an event is kept that says that the page was left. -/
def Leaves (f : Feed PageEvent) (position : Nat) : Prop :=
  ∃ i u, position ≤ i ∧ f.oldest ≤ i ∧ f.sent[i]? = some (.navigated u)

/-! ### Positions -/

theorem leaves_oldest (h : position < f.oldest) : f.Leaves position ↔ f.Leaves f.oldest := by
  constructor
  · rintro ⟨i, u, -, hi, hu⟩
    exact ⟨i, u, hi, hi, hu⟩
  · rintro ⟨i, u, -, hi, hu⟩
    have hle : position ≤ i := by omega
    exact ⟨i, u, hle, hi, hu⟩

/-- An event that does not say so is passed over. -/
theorem leaves_succ {e : PageEvent} (he : f.sent[position]? = some e)
    (hno : ∀ u, e ≠ .navigated u) : f.Leaves position ↔ f.Leaves (position + 1) := by
  constructor
  · rintro ⟨i, u, hle, hi, hu⟩
    have hne : i ≠ position := by
      rintro rfl
      rw [he, Option.some.injEq] at hu
      exact hno u hu
    have hlt : position + 1 ≤ i := by omega
    exact ⟨i, u, hlt, hi, hu⟩
  · rintro ⟨i, u, hle, hi, hu⟩
    have hlt : position ≤ i := by omega
    exact ⟨i, u, hlt, hi, hu⟩

theorem not_leaves_end (h : f.sent[position]? = none) : ¬ f.Leaves position := by
  rintro ⟨i, u, hle, -, hu⟩
  have hlength : f.sent.length ≤ position := List.getElem?_eq_none_iff.1 h
  have hlt : i < f.sent.length := (List.getElem?_eq_some_iff.1 hu).1
  omega

/-! ### Waiting -/

/-- The next load is that the page is left, or a reload that is passed over, or it never comes. -/
theorem nextLoad_cases (f : Feed PageEvent) (position : Nat) :
    (f.nextLoad position).1 = .navigated ∧ f.Leaves position ∨
      (f.nextLoad position).1 = .reloaded ∧
        (f.Leaves position ↔ f.Leaves (f.nextLoad position).2) ∨
      (f.nextLoad position).1 = (if f.closed then .closed else .waiting) ∧ ¬ f.Leaves position := by
  fun_induction nextLoad f position with
  | case1 position hp ih =>
    rw [leaves_oldest hp]
    exact ih
  | case2 position hp u hu => exact .inr (.inl ⟨rfl, leaves_succ hu (by simp)⟩)
  | case3 position hp u hu => exact .inl ⟨rfl, position, u, Nat.le_refl _, by omega, hu⟩
  | case4 position hp u hu ih =>
    rw [leaves_succ hu (by simp)]
    exact ih
  | case5 position hp hu => exact .inr (.inr ⟨rfl, not_leaves_end hu⟩)

theorem nextNavigation_cases (f : Feed PageEvent) (position : Nat) :
    (f.nextNavigation position).1 = .navigated ∧ f.Leaves position ∨
      (f.nextNavigation position).1 = (if f.closed then .closed else .waiting) ∧
        ¬ f.Leaves position := by
  fun_induction nextNavigation f position with
  | case1 position next hload ih =>
    have hcases := nextLoad_cases f position
    rw [hload] at hcases
    rcases hcases with ⟨⟨⟩, -⟩ | ⟨-, hleaves⟩ | ⟨hend, -⟩
    · rwa [hleaves]
    · split at hend <;> cases hend
  | case2 position hload =>
    rcases nextLoad_cases f position with hnavigated | ⟨hreloaded, -⟩ | hend
    · exact .inl hnavigated
    · have hpair : f.nextLoad position = (.reloaded, (f.nextLoad position).2) :=
        Prod.ext hreloaded rfl
      exact (hload _ hpair).elim
    · exact .inr hend

theorem nextNavigation_of_leaves (h : f.Leaves position) :
    (f.nextNavigation position).1 = .navigated := by
  rcases nextNavigation_cases f position with ⟨hnavigated, -⟩ | ⟨-, hno⟩
  · exact hnavigated
  · exact absurd h hno

theorem nextNavigation_of_not_leaves (h : ¬ f.Leaves position) :
    (f.nextNavigation position).1 = if f.closed then .closed else .waiting := by
  rcases nextNavigation_cases f position with ⟨-, hyes⟩ | ⟨hend, -⟩
  · exact absurd hyes h
  · exact hend

/-! ### The next load -/

/-- A reader at the position comes to the event at `i` next: of those before it that are kept none
is a load. -/
structure Finds (f : Feed PageEvent) (position i : Nat) (load : Load) : Prop where
  le : position ≤ i
  kept : f.oldest ≤ i
  event : ∃ e, f.sent[i]? = some e ∧ e.load? = some load
  before : ∀ k e, position ≤ k → f.oldest ≤ k → k < i → f.sent[k]? = some e → e.load? = none

theorem Finds.here {e : PageEvent} (hkept : ¬ position < f.oldest) (he : f.sent[position]? = some e)
    (hload : e.load? = some load) : f.Finds position position load where
  le := Nat.le_refl _
  kept := Nat.le_of_not_lt hkept
  event := ⟨e, he, hload⟩
  before _ _ hle _ hlt := absurd hle (Nat.not_le_of_lt hlt)

theorem Finds.of_oldest (hlost : position < f.oldest) (h : f.Finds f.oldest i load) :
    f.Finds position i load where
  le := Nat.le_of_lt (Nat.lt_of_lt_of_le hlost h.le)
  kept := h.kept
  event := h.event
  before k e _ hkept hlt hk := h.before k e hkept hkept hlt hk

theorem Finds.of_succ {u : Url} (hu : f.sent[position]? = some (.replaced u))
    (h : f.Finds (position + 1) i load) : f.Finds position i load where
  le := Nat.le_of_succ_le h.le
  kept := h.kept
  event := h.event
  before k e hle hkept hlt hk := by
    rcases Nat.eq_or_lt_of_le hle with rfl | hlt'
    · rw [hu] at hk
      cases hk
      rfl
    · exact h.before k e hlt' hkept hlt hk

theorem Finds.reloaded (h : f.Finds position i .reloaded) :
    ∃ u, f.sent[i]? = some (.reloaded u) := by
  obtain ⟨e, he, hload⟩ := h.event
  cases e with
  | reloaded u => exact ⟨u, he⟩
  | _ => cases hload

theorem Finds.navigated (h : f.Finds position i .navigated) :
    ∃ u, f.sent[i]? = some (.navigated u) := by
  obtain ⟨e, he, hload⟩ := h.event
  cases e with
  | navigated u => exact ⟨u, he⟩
  | _ => cases hload

/-- A load that is found stands right before the next position. -/
theorem finds_of_nextLoad (h : f.nextLoad position = (load, next))
    (hload : load = .reloaded ∨ load = .navigated) :
    ∃ i, next = i + 1 ∧ f.Finds position i load := by
  fun_induction nextLoad f position with
  | case1 position hp ih =>
    obtain ⟨i, hi, hfinds⟩ := ih h
    exact ⟨i, hi, hfinds.of_oldest hp⟩
  | case2 position hp u hu =>
    cases h
    exact ⟨position, rfl, .here hp hu rfl⟩
  | case3 position hp u hu =>
    cases h
    exact ⟨position, rfl, .here hp hu rfl⟩
  | case4 position hp u hu ih =>
    obtain ⟨i, hi, hfinds⟩ := ih h
    exact ⟨i, hi, hfinds.of_succ hu⟩
  | case5 position hp hu =>
    rcases hload with rfl | rfl
    · split at h <;> cases h
    · split at h <;> cases h

theorem Finds.of_kept (h : f.Finds position i load) (hlost : position < f.oldest) :
    f.Finds f.oldest i load where
  le := h.kept
  kept := h.kept
  event := h.event
  before k e _ hkept hlt hk := h.before k e (Nat.le_trans (Nat.le_of_lt hlost) hkept) hkept hlt hk

/-- At a position that is kept a load is found there, or the event there is none. -/
theorem Finds.cases_here (h : f.Finds position i load) (hkept : ¬ position < f.oldest)
    {e : PageEvent} (he : f.sent[position]? = some e) :
    position = i ∧ e.load? = some load ∨ e.load? = none ∧ f.Finds (position + 1) i load := by
  rcases Nat.eq_or_lt_of_le h.le with rfl | hlt
  · obtain ⟨e', he', hload⟩ := h.event
    rw [he, Option.some.injEq] at he'
    exact .inl ⟨rfl, he' ▸ hload⟩
  · refine .inr ⟨h.before position e (Nat.le_refl _) (Nat.le_of_not_lt hkept) hlt he, hlt, h.kept,
      h.event, ?_⟩
    intro k e hle hk hki
    exact h.before k e (Nat.le_of_succ_le hle) hk hki

/-- The load that a reader comes to is the one that it finds. -/
theorem nextLoad_of_finds (h : f.Finds position i load) : f.nextLoad position = (load, i + 1) := by
  fun_induction nextLoad f position with
  | case1 position hp ih => exact ih (h.of_kept hp)
  | case2 position hp u hu =>
    rcases h.cases_here hp hu with ⟨rfl, hload⟩ | ⟨hnone, -⟩
    · cases hload
      rfl
    · cases hnone
  | case3 position hp u hu =>
    rcases h.cases_here hp hu with ⟨rfl, hload⟩ | ⟨hnone, -⟩
    · cases hload
      rfl
    · cases hnone
  | case4 position hp u hu ih =>
    rcases h.cases_here hp hu with ⟨-, hload⟩ | ⟨-, hnext⟩
    · cases hload
    · exact ih hnext
  | case5 position hp hu =>
    have hlength : f.sent.length ≤ position := List.getElem?_eq_none_iff.1 hu
    obtain ⟨e, he, -⟩ := h.event
    have hlt : i < f.sent.length := (List.getElem?_eq_some_iff.1 he).1
    have hle := h.le
    omega

/-! ### Silence -/

/-- No event at or after a position is a load. -/
def Silent (f : Feed PageEvent) (position : Nat) : Prop :=
  ∀ i e, position ≤ i → f.sent[i]? = some e → e.load? = none

theorem silent_subscribe (f : Feed PageEvent) : f.Silent f.subscribe := by
  intro i e hi he
  rw [List.getElem?_eq_none_iff.2 hi] at he
  cases he

theorem Silent.not_finds (h : f.Silent position) : ¬ f.Finds position i load := by
  intro hfinds
  obtain ⟨e, he, hload⟩ := hfinds.event
  rw [h i e hfinds.le he] at hload
  cases hload

/-- A reader has to wait. -/
theorem Silent.nextLoad (h : f.Silent position) :
    (f.nextLoad position).1 = if f.closed then .closed else .waiting := by
  rcases nextLoad_cases f position with ⟨hload, -⟩ | ⟨hload, -⟩ | ⟨hend, -⟩
  · obtain ⟨i, -, hfinds⟩ := finds_of_nextLoad (Prod.ext hload rfl) (.inr rfl)
    exact absurd hfinds h.not_finds
  · obtain ⟨i, -, hfinds⟩ := finds_of_nextLoad (Prod.ext hload rfl) (.inl rfl)
    exact absurd hfinds h.not_finds
  · exact hend

theorem Silent.send_replaced (h : f.Silent position) (u : Url) :
    (f.send (.replaced u)).Silent position := by
  intro i e hi he
  rw [send, List.getElem?_append] at he
  split at he
  · exact h i e hi he
  · rw [List.getElem?_singleton] at he
    split at he
    · cases he
      rfl
    · cases he

/-- The first load that is sent is found. -/
theorem Silent.finds_send (h : f.Silent position) (hposition : position ≤ f.sent.length)
    (hcapacity : 0 < f.capacity) {e : PageEvent} (hload : e.load? = some load) :
    (f.send e).Finds position f.sent.length load where
  le := hposition
  kept := by
    simp only [oldest, send, List.length_append, List.length_singleton]
    omega
  event := ⟨e, List.getElem?_concat_length, hload⟩
  before k e' hle _ hlt hk := by
    rw [send, List.getElem?_append_left hlt] at hk
    exact h k e' hle hk

end Feed

end ClusterConsole
