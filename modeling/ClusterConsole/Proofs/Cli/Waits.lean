import ClusterConsole.Cli.Send
import ClusterConsole.Cli.Watch
import ClusterConsole.Proofs.Page.Load

/-! What waits come to that are made one after the other. Of the events that were sent a feed
keeps the last ones. Waits consume these from left to right: each takes the events up to the one
that answers it, and where there is none it takes all that are left and comes to the end of the
feed, or has to wait on. That earlier events were lost shows in no answer. -/

namespace ClusterConsole

/-- What a reader waits for. -/
inductive Wait where
  /-- A reload or a navigation, whichever comes first. -/
  | load
  | navigation
  deriving DecidableEq, Repr

namespace Wait

variable {w : Wait} {closed : Bool} {e d : PageEvent} {load load' : Load}
  {events passed rest rest' : List PageEvent}

/-- The answer that an event is to a wait. Any other event is passed over. -/
def answer? : Wait → PageEvent → Option Load
  | .load, e => e.load?
  | navigation, .navigated _ => some .navigated
  | navigation, _ => none

/-- Of the events that are left a wait consumes some, and comes to an answer. -/
inductive Consumes (closed : Bool) (w : Wait) : List PageEvent → Load → List PageEvent → Prop
  | answered {passed rest : List PageEvent} {e : PageEvent} {load : Load}
      (hpassed : ∀ d ∈ passed, w.answer? d = none) (he : w.answer? e = some load) :
      Consumes closed w (passed ++ e :: rest) load rest
  | out {events : List PageEvent} (hpassed : ∀ d ∈ events, w.answer? d = none) :
      Consumes closed w events (if closed then .closed else .waiting) []

/-- Waits one after the other, each of which goes on where the one before it stopped. -/
inductive Drains (closed : Bool) :
    List Wait → List PageEvent → List Load → List PageEvent → Prop
  | nil {events : List PageEvent} : Drains closed [] events [] events
  | cons {w : Wait} {ws : List Wait} {events mid rest : List PageEvent} {load : Load}
      {loads : List Load} (h : Consumes closed w events load mid)
      (h' : Drains closed ws mid loads rest) : Drains closed (w :: ws) events (load :: loads) rest

theorem Consumes.pass (hpassed : ∀ d ∈ passed, w.answer? d = none)
    (h : Consumes closed w events load rest) : Consumes closed w (passed ++ events) load rest := by
  cases h with
  | answered hmore he =>
    rw [← List.append_assoc]
    exact .answered (List.forall_mem_append.2 ⟨hpassed, hmore⟩) he
  | out hmore => exact .out (List.forall_mem_append.2 ⟨hpassed, hmore⟩)

/-- An event that is no answer is passed over. -/
theorem consumes_cons_none (he : w.answer? e = none) :
    Consumes closed w (e :: events) load rest ↔ Consumes closed w events load rest := by
  constructor
  · intro h
    generalize hall : e :: events = all at h
    cases h with
    | @answered passed rest e' load hpassed he' =>
      cases passed with
      | nil =>
        obtain ⟨rfl, -⟩ := List.cons.inj hall
        simp [he] at he'
      | cons d passed =>
        obtain ⟨rfl, rfl⟩ := List.cons.inj hall
        exact .answered (fun d hd => hpassed d (List.mem_cons_of_mem _ hd)) he'
    | out hpassed =>
      subst hall
      exact .out fun d hd => hpassed d (List.mem_cons_of_mem e hd)
  · intro h
    have hpassed : ∀ d ∈ [e], w.answer? d = none := by simpa using he
    exact h.pass hpassed

/-- The first event that is an answer is the last one that is consumed. -/
theorem consumes_cons_some (he : w.answer? e = some load') :
    Consumes closed w (e :: events) load rest ↔ load = load' ∧ rest = events := by
  constructor
  · intro h
    generalize hall : e :: events = all at h
    cases h with
    | @answered passed rest e' load hpassed he' =>
      cases passed with
      | nil =>
        obtain ⟨rfl, rfl⟩ := List.cons.inj hall
        exact ⟨Option.some.inj (he'.symm.trans he), rfl⟩
      | cons d passed =>
        obtain ⟨rfl, -⟩ := List.cons.inj hall
        simp [hpassed e List.mem_cons_self] at he
    | out hpassed =>
      subst hall
      simp [hpassed e List.mem_cons_self] at he
  · rintro ⟨rfl, rfl⟩
    have hpassed : ∀ d ∈ ([] : List PageEvent), w.answer? d = none := nofun
    exact .answered hpassed he

theorem consumes_nil :
    Consumes closed w [] load rest ↔ load = (if closed then .closed else .waiting) ∧ rest = [] := by
  constructor
  · intro h
    generalize hall : ([] : List PageEvent) = all at h
    cases h with
    | answered hpassed he => simp at hall
    | out hpassed => exact ⟨rfl, hall⟩
  · rintro ⟨rfl, rfl⟩
    exact .out (by simp)

/-- A wait comes to one answer only, and leaves the same events. -/
theorem Consumes.unique (h : Consumes closed w events load rest)
    (h' : Consumes closed w events load' rest') : load = load' ∧ rest = rest' := by
  induction events with
  | nil =>
    rw [consumes_nil] at h h'
    obtain ⟨rfl, rfl⟩ := h
    exact ⟨h'.1.symm, h'.2.symm⟩
  | cons e events ih =>
    cases he : w.answer? e with
    | none => exact ih ((consumes_cons_none he).1 h) ((consumes_cons_none he).1 h')
    | some answer =>
      obtain ⟨rfl, rfl⟩ := (consumes_cons_some he).1 h
      obtain ⟨rfl, rfl⟩ := (consumes_cons_some he).1 h'
      exact ⟨rfl, rfl⟩

end Wait

namespace Feed

open Wait (Consumes Drains)

variable {f : Feed PageEvent} {w : Wait} {position : Nat} {closed : Bool} {load : Load}
  {events rest : List PageEvent}

/-! ### Single waits -/

/-- What a wait comes to at a position, and the next position. -/
def wait (f : Feed PageEvent) (position : Nat) : Wait → Load × Nat
  | .load => f.nextLoad position
  | .navigation => f.nextNavigation position

/-- The events that a reader at the position can still read. -/
def left (f : Feed PageEvent) (position : Nat) : List PageEvent := (f.unread position).2

theorem left_of_lost (h : position < f.oldest) : f.left position = f.left f.oldest := by
  simp only [left, unread, Nat.max_self, Nat.max_eq_right (Nat.le_of_lt h)]

theorem left_of_some {e : PageEvent} (hkept : ¬ position < f.oldest)
    (he : f.sent[position]? = some e) : f.left position = e :: f.left (position + 1) := by
  obtain ⟨hlt, rfl⟩ := List.getElem?_eq_some_iff.1 he
  have hmax : max position f.oldest = position := by omega
  have hmax' : max (position + 1) f.oldest = position + 1 := by omega
  simp only [left, unread, hmax, hmax']
  exact List.drop_eq_getElem_cons hlt

theorem left_of_none (h : f.sent[position]? = none) : f.left position = [] := by
  have hle : f.sent.length ≤ position := List.getElem?_eq_none_iff.1 h
  simp only [left, unread]
  exact List.drop_eq_nil_of_le (by omega)

theorem consumes_nextLoad (f : Feed PageEvent) (position : Nat) :
    Consumes f.closed .load (f.left position) (f.nextLoad position).1
      (f.left (f.nextLoad position).2) := by
  fun_induction nextLoad f position with
  | case1 position hp ih =>
    rw [left_of_lost hp]
    exact ih
  | case2 position hp u hu =>
    rw [left_of_some hp hu]
    exact (Wait.consumes_cons_some rfl).2 ⟨rfl, rfl⟩
  | case3 position hp u hu =>
    rw [left_of_some hp hu]
    exact (Wait.consumes_cons_some rfl).2 ⟨rfl, rfl⟩
  | case4 position hp u hu ih =>
    rw [left_of_some hp hu]
    exact (Wait.consumes_cons_none rfl).2 ih
  | case5 position hp hu =>
    rw [left_of_none hu]
    exact Wait.consumes_nil.2 ⟨rfl, rfl⟩

/-- What is no load says nothing of a navigation either. -/
theorem answer?_navigation_of_load {d : PageEvent} (h : Wait.answer? .load d = none) :
    Wait.answer? .navigation d = none := by
  cases d with
  | replaced u => rfl
  | _ => cases h

/-- A wait for a navigation passes over what a wait for a load has consumed, unless that is its
answer too. -/
theorem consumes_navigation (h : Consumes closed .load events load rest) :
    (load ≠ .reloaded → Consumes closed .navigation events load rest) ∧
      (load = .reloaded → ∀ load' rest', Consumes closed .navigation rest load' rest' →
        Consumes closed .navigation events load' rest') := by
  cases h with
  | @answered passed rest e load hpassed he =>
    have hnone : ∀ d ∈ passed, Wait.answer? .navigation d = none :=
      fun d hd => answer?_navigation_of_load (hpassed d hd)
    cases e with
    | navigated u =>
      cases he
      exact ⟨fun _ => .answered hnone rfl, nofun⟩
    | replaced u => cases he
    | reloaded u =>
      cases he
      refine ⟨fun hne => absurd rfl hne, fun _ load' rest' hrest => ?_⟩
      exact Consumes.pass hnone ((Wait.consumes_cons_none rfl).2 hrest)
  | out hpassed =>
    refine ⟨fun _ => .out fun d hd => answer?_navigation_of_load (hpassed d hd), fun hload => ?_⟩
    cases closed <;> cases hload

theorem consumes_nextNavigation (f : Feed PageEvent) (position : Nat) :
    Consumes f.closed .navigation (f.left position) (f.nextNavigation position).1
      (f.left (f.nextNavigation position).2) := by
  fun_induction nextNavigation f position with
  | case1 position next hload ih =>
    have hconsumes := consumes_nextLoad f position
    rw [hload] at hconsumes
    exact (consumes_navigation hconsumes).2 rfl _ _ ih
  | case2 position hload =>
    refine (consumes_navigation (consumes_nextLoad f position)).1 fun hreloaded => ?_
    exact hload _ (Prod.ext hreloaded rfl)

/-- A wait consumes of what a reader can still read. -/
theorem consumes_wait (f : Feed PageEvent) (position : Nat) (w : Wait) :
    Consumes f.closed w (f.left position) (f.wait position w).1 (f.left (f.wait position w).2) := by
  cases w with
  | load => exact consumes_nextLoad f position
  | navigation => exact consumes_nextNavigation f position

/-! ### Lost events -/

/-- The next load is found by looking at what is received, over and over. -/
theorem nextLoad_eq_receive (f : Feed PageEvent) (position : Nat) :
    f.nextLoad position =
      match f.receive position with
      | (.event (.reloaded _), next) => (.reloaded, next)
      | (.event (.navigated _), next) => (.navigated, next)
      | (.event (.replaced _), next) => f.nextLoad next
      | (.lagged _, next) => f.nextLoad next
      | (.closed, next) => (.closed, next)
      | (.nothing, next) => (.waiting, next) := by
  rw [nextLoad]
  unfold receive
  split
  · rfl
  · split
    · next u hu => rw [hu]
    · next u hu => rw [hu]
    · next u hu => rw [hu]
    · next hu =>
      rw [hu]
      cases f.closed <;> rfl

/-- A navigation is found by looking at the next load, over and over. -/
theorem nextNavigation_eq_nextLoad (f : Feed PageEvent) (position : Nat) :
    f.nextNavigation position =
      match f.nextLoad position with
      | (.reloaded, next) => f.nextNavigation next
      | found => found := by
  rw [nextNavigation]
  split
  · next hload => rw [hload]
  · next hne =>
    split
    · next next hload => exact absurd hload (hne next)
    · rfl

/-- A reader that fell behind goes on with the oldest event that is kept, whatever it waits
for. -/
theorem wait_of_lagged {lost next : Nat} (h : f.receive position = (.lagged lost, next))
    (w : Wait) : next = f.oldest ∧ lost + position = f.oldest ∧
      f.wait position w = f.wait next w := by
  have hload : f.nextLoad position = f.nextLoad next := by rw [nextLoad_eq_receive, h]
  have hwait : f.wait position w = f.wait next w := by
    cases w with
    | load => exact hload
    | navigation =>
      show f.nextNavigation position = f.nextNavigation next
      rw [nextNavigation_eq_nextLoad, nextNavigation_eq_nextLoad, hload]
  unfold receive at h
  split at h
  · next hlt =>
    cases h
    exact ⟨rfl, by omega, hwait⟩
  · split at h <;> simp at h
    split at h <;> simp at h

/-! ### Waits one after the other -/

/-- The answers to waits from a position on, and the position after them. -/
def waits (f : Feed PageEvent) (position : Nat) : List Wait → List Load × Nat
  | [] => ([], position)
  | w :: ws =>
    let (load, next) := f.wait position w
    let (loads, last) := f.waits next ws
    (load :: loads, last)

theorem drains_waits (f : Feed PageEvent) (position : Nat) (ws : List Wait) :
    Drains f.closed ws (f.left position) (f.waits position ws).1
      (f.left (f.waits position ws).2) := by
  induction ws generalizing position with
  | nil => exact .nil
  | cons w ws ih => exact .cons (f.consumes_wait position w) (ih _)

/-- All that a run of waits may come to is what it comes to. -/
theorem drains_iff {ws : List Wait} {loads : List Load} :
    Drains f.closed ws (f.left position) loads rest ↔
      loads = (f.waits position ws).1 ∧ rest = f.left (f.waits position ws).2 := by
  constructor
  · intro h
    induction ws generalizing position loads with
    | nil =>
      cases h
      exact ⟨rfl, rfl⟩
    | cons w ws ih =>
      cases h with
      | cons hfirst hrest =>
        obtain ⟨rfl, rfl⟩ := hfirst.unique (f.consumes_wait position w)
        obtain ⟨rfl, rfl⟩ := ih hrest
        exact ⟨rfl, rfl⟩
  · rintro ⟨rfl, rfl⟩
    exact drains_waits f position ws

/-! ### Capacity -/

/-- A feed keeps the least power of two of events that is as much as asked for. -/
theorem roundUp_least (n : Nat) : (roundUp n).isPowerOfTwo ∧ n ≤ roundUp n ∧
    ∀ m, m.isPowerOfTwo → n ≤ m → roundUp n ≤ m := by
  refine ⟨⟨_, rfl⟩, ?_, ?_⟩
  · show n ≤ 2 ^ (if n ≤ 1 then 0 else (n - 1).log2 + 1)
    split
    · next h => simpa using h
    · next h =>
      have hlt : n - 1 < 2 ^ ((n - 1).log2 + 1) := Nat.lt_log2_self
      omega
  · rintro m ⟨j, rfl⟩ hj
    refine Nat.pow_le_pow_right (by decide) ?_
    split
    · exact Nat.zero_le j
    · next h =>
      have hle : 2 ^ (n - 1).log2 ≤ n - 1 := Nat.log2_self_le (by omega)
      have hlt : 2 ^ (n - 1).log2 < 2 ^ j := by omega
      exact (Nat.pow_lt_pow_iff_right (by decide)).1 hlt

/-- A feed of a capacity after some events, and closed or not. -/
def holding (capacity : Nat) (events : List PageEvent) (closed : Bool) : Feed PageEvent :=
  let f := events.foldl send (ofCapacity capacity)
  if closed then f.close else f

theorem foldl_send (f : Feed PageEvent) (events : List PageEvent) :
    events.foldl send f = { f with sent := f.sent ++ events } := by
  induction events generalizing f with
  | nil => simp
  | cons e events ih => simp [ih, send]

theorem holding_eq (capacity : Nat) (events : List PageEvent) (closed : Bool) :
    holding capacity events closed = { capacity := roundUp capacity, sent := events, closed } := by
  cases closed <;> simp [holding, foldl_send, ofCapacity, close]

theorem left_holding (capacity : Nat) (events : List PageEvent) (closed : Bool) :
    (holding capacity events closed).left 0 =
      events.drop (events.length - roundUp capacity) := by
  rw [holding_eq]
  simp [left, unread, oldest]

/-! ### Commands -/

open Cli (CommandError)

/-- A wait that a command makes came to the end of the feed, and the command fails with a text. -/
structure Failing (f : Feed PageEvent) (text : String) : Prop where
  send : ∀ (p : Cli.Send) (c : Console) (position : Nat), c.page.feed = f →
    (f.wait position .navigation).1 = .closed → ∃ (t : Cli.Turn Cli.SendStage) (e : CommandError),
      p.look? c position = some t ∧ t.stage = .ended (.error e) ∧ e.message = text
  watch : ∀ (s : Server) (c : Console) (i position : Nat) (signal : Option Nat),
    c.page.feed = f → (f.wait position .load).1 = .closed →
    ∃ (t : Cli.Turn Cli.WatchStage) (e : CommandError),
      Cli.Watch.look? s c i position signal = some t ∧ t.stage = .ended (.error e) ∧
        e.message = text

theorem failing_pageClosed (f : Feed PageEvent) : f.Failing "page closed" := by
  constructor
  case send =>
    rintro p c position rfl hclosed
    replace hclosed : (c.page.feed.nextNavigation position).1 = .closed := hclosed
    refine ⟨{ console := c, stage := .ended (.error .pageClosed) }, .pageClosed, ?_, rfl, rfl⟩
    rw [Cli.Send.look?, hclosed]
  case watch =>
    rintro s c i position signal rfl hclosed
    obtain ⟨next, hload⟩ : ∃ next, c.page.feed.nextLoad position = (.closed, next) :=
      ⟨_, Prod.ext hclosed rfl⟩
    refine ⟨{ console := c.dropController i, stage := .ended (.error .pageClosed) }, .pageClosed,
      ?_, rfl, rfl⟩
    rw [Cli.Watch.look?, hload]

/-! ### The law -/

/-- What becomes of the events that were sent before a reader begins to wait. -/
structure ReadOut (capacity : Nat) (events : List PageEvent) (closed : Bool) : Prop where
  /-- The feed has room for the least power of two of events that is the capacity or more. -/
  room : (roundUp capacity).isPowerOfTwo ∧ capacity ≤ roundUp capacity ∧
    ∀ n, n.isPowerOfTwo → capacity ≤ n → roundUp capacity ≤ n
  /-- Waits consume the last events, one after the other, as many as there is room for. -/
  consumed : ∀ ws loads rest,
    Drains closed ws (events.drop (events.length - roundUp capacity)) loads rest ↔
      loads = ((holding capacity events closed).waits 0 ws).1 ∧
        rest = (holding capacity events closed).left ((holding capacity events closed).waits 0 ws).2
  /-- A wait for a load looks at what is received, over and over. -/
  received : ∀ position, let f := holding capacity events closed
    f.wait position .load =
      match f.receive position with
      | (.event (.reloaded _), next) => (.reloaded, next)
      | (.event (.navigated _), next) => (.navigated, next)
      | (.event (.replaced _), next) => f.wait next .load
      | (.lagged _, next) => f.wait next .load
      | (.closed, next) => (.closed, next)
      | (.nothing, next) => (.waiting, next)
  /-- A reader that is told of lost events goes on with the oldest one that is kept, and its wait
  comes to what it comes to from there. -/
  lagged : ∀ position lost next, let f := holding capacity events closed
    f.receive position = (.lagged lost, next) → ∀ w, next = f.oldest ∧
      lost + position = f.oldest ∧ f.wait position w = f.wait next w
  /-- A command whose wait comes to the end of the feed fails with this text. -/
  fails : (holding capacity events closed).Failing "page closed"

/-- Whatever was sent before is read out so. -/
theorem readOut_holding (capacity : Nat) (events : List PageEvent) (closed : Bool) :
    ReadOut capacity events closed := by
  constructor
  case room => exact roundUp_least capacity
  case consumed =>
    intro ws loads rest
    have hclosed : (holding capacity events closed).closed = closed := by rw [holding_eq]
    rw [← left_holding capacity events closed]
    have hiff : Drains (holding capacity events closed).closed ws
        ((holding capacity events closed).left 0) loads rest ↔ _ := drains_iff
    rwa [hclosed] at hiff
  case received => exact fun position => nextLoad_eq_receive _ position
  case lagged => exact fun position lost next h w => wait_of_lagged h w
  case fails => exact failing_pageClosed _

/-- Of five events a feed of capacity three keeps four; the navigation that came first is lost. -/
example :
    let u : Url := { scheme := "http".toList, path := .rooted [[]] }
    let f := holding 3 [.navigated u, .reloaded u, .replaced u, .navigated u, .reloaded u] true
    (f.waits 0 [.navigation, .load, .load]).1 = [.navigated, .reloaded, .closed] := by
  decide +kernel

end Feed

end ClusterConsole
