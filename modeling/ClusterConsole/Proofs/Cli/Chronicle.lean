import Mathlib.Data.Option.Basic
import ClusterConsole.Cli.Watch
import ClusterConsole.Proofs.Cli.Beside
import ClusterConsole.Proofs.Console.Fragment
import ClusterConsole.Proofs.Page.Load

/-! What a command that watches the page does, turn by turn. It asks for views, and acts with
controllers of its own. A chronicle holds all that happens in a run, what the command does and
what others do beside it, so that a law of every chronicle is a law of every run. -/

namespace ClusterConsole.Cli

/-- What happens in a run of a command: it does something, it reads a load from the page's feed,
or others do something beside it. -/
inductive Deed where
  | does (move : Move)
  | reads (event : PageEvent)
  | beside (move : Move)

def Deed.move? : Deed → Option Move
  | does m => some m
  | reads _ => none
  | beside m => some m

/-- The moves among what happens, in their order. -/
def moves (ds : List Deed) : List Move := ds.filterMap Deed.move?

theorem moves_append (ds ds' : List Deed) : moves (ds ++ ds') = moves ds ++ moves ds' :=
  List.filterMap_append

theorem moves_does (ms : List Move) : moves (ms.map .does) = ms := by
  induction ms with
  | nil => rfl
  | cons m ms ih => exact congrArg (m :: ·) ih

theorem split_append {ds new pre post : List Deed} {d : Deed}
    (h : ds ++ new = pre ++ d :: post) :
    (∃ before, pre = ds ++ before ∧ new = before ++ d :: post) ∨ ∃ rest, ds = pre ++ d :: rest := by
  rcases List.append_eq_append_iff.1 h with hnew | ⟨rest, hds, hrest⟩
  · exact .inl hnew
  · cases rest with
    | nil => exact .inl ⟨[], by simpa using hds.symm, hrest.symm⟩
    | cons e rest =>
      obtain ⟨rfl, -⟩ := List.cons.inj hrest
      exact .inr ⟨rest, hds⟩

namespace Watch

variable {p : Watch} {s : Server} {c c₀ : Console} {stage : WatchStage} {t : Turn WatchStage}

/-! ### Turns -/

/-- The moves by which a new controller takes up auto-reload. It is switched on if that is asked
for and the page does not do so. -/
def opening (p : Watch) (c : Console) (enable : Bool) : List Move :=
  let i := c.controllers.length
  [.addController p.interval, .pageLoaded i] ++
    if enable && !c.page.location.isOn then [.toggle i true] else []

/-- What the command does in a turn, and where it stands then. -/
inductive Does (p : Watch) (s : Server) (c : Console) :
    WatchStage → List Deed → WatchStage → Prop
  | start : Does p s c .start [.does (.view c.page.location.text)]
      (load s c p.enable c.page.feed.subscribe none).stage
  | on {due : Nat} {result : Except String View} {location : Url} {enable : Bool}
      {position : Nat} {signal : Option Nat} (hdue : due ≤ c.now)
      (hon : (enable || c.page.location.isOn) = true) :
      Does p s c (.loading due result location enable position signal)
        ((p.opening c enable).map .does)
        (.waiting c.controllers.length position (signal <|> p.shutdown.map (c.after ·.delay)))
  | off {due : Nat} {result : Except String View} {location : Url} {position : Nat}
      {signal : Option Nat} (hdue : due ≤ c.now) (hoff : c.page.location.isOn = false) :
      Does p s c (.loading due result location false position signal)
        ((p.opening c false ++ [Move.dropController c.controllers.length]).map .does)
        (.ended (.ok .done))
  | reloaded {i position j : Nat} {signal : Option Nat} {u : Url}
      (hfinds : c.page.feed.Finds position j .reloaded)
      (hevent : c.page.feed.sent[j]? = some (.reloaded u)) :
      Does p s c (.waiting i position signal)
        [.reads (.reloaded u), .does (.dropController i), .does (.view c.page.location.text)]
        (load s (c.dropController i) false (j + 1) signal).stage
  | navigated {i position j : Nat} {signal : Option Nat} {u : Url}
      (hfinds : c.page.feed.Finds position j .navigated)
      (hevent : c.page.feed.sent[j]? = some (.navigated u)) :
      Does p s c (.waiting i position signal) [.reads (.navigated u), .does (.dropController i)]
        (.ended (.ok .done))
  | closed {i position : Nat} {signal : Option Nat}
      (hclosed : (c.page.feed.nextLoad position).1 = .closed) :
      Does p s c (.waiting i position signal) [.does (.dropController i)]
        (.ended (.error .pageClosed))
  | stopped {i position time : Nat} (htime : time ≤ c.now) :
      Does p s c (.waiting i position (some time))
        [.does (.toggle i false), .does (.dropController i)] (.ended (.ok .done))
  | failed {i position time : Nat} (htime : time ≤ c.now) (message : String) :
      Does p s c (.waiting i position (some time)) [.does (.dropController i)]
        (.ended (.error (.signal message)))

/-- A turn of the command, with what it does. -/
def Performs (p : Watch) (s : Server) (c : Console) (stage : WatchStage) (ds : List Deed)
    (t : Turn WatchStage) : Prop :=
  Does p s c stage ds t.stage ∧ World.run s ⟨c, []⟩ (moves ds) = ⟨t.console, []⟩

/-- A new controller says what the page says. -/
theorem reloadState_opened (c : Console) (interval : Nat) :
    ((c.addController interval).pageLoaded c.controllers.length).reloadState c.controllers.length =
      if c.page.location.isOn then .on else .off :=
  World.freshState_eq ⟨c, []⟩ interval

theorem length_opened (c : Console) (interval : Nat) : c.controllers.length <
    ((c.addController interval).pageLoaded c.controllers.length).controllers.length := by
  rw [Console.pageLoaded_length, Console.addController, List.length_append]
  exact Nat.lt_succ_self _

theorem openController_now (p : Watch) (c : Console) (enable : Bool) :
    (p.openController c enable).now = c.now := by
  have hopened : ((c.addController p.interval).pageLoaded c.controllers.length).now = c.now :=
    Console.pageLoaded_now _ _
  unfold openController
  simp only
  split
  · rw [Console.toggle_now, hopened]
  · exact hopened

theorem run_opening (p : Watch) (s : Server) (c : Console) (enable : Bool) :
    World.run s ⟨c, []⟩ (p.opening c enable) = ⟨p.openController c enable, []⟩ := by
  have hstate := reloadState_opened c p.interval
  unfold opening openController
  simp only
  rw [hstate]
  cases c.page.location.isOn <;> cases enable <;> rfl

theorem reloadState_openController (p : Watch) (c : Console) (enable : Bool) :
    (p.openController c enable).reloadState c.controllers.length =
      if enable || c.page.location.isOn then .on else .off := by
  have hstate := reloadState_opened c p.interval
  unfold openController
  simp only
  split
  · next h => rw [Console.reloadState_toggle _ _ (length_opened c p.interval), h.1, Bool.true_or]
  · next h =>
    rw [hstate] at h ⊢
    cases enable with
    | false => rw [Bool.false_or]
    | true =>
      cases hon : c.page.location.isOn with
      | true => rfl
      | false =>
        rw [hon] at h
        exact absurd ⟨rfl, rfl⟩ h

theorem performs_loaded {due : Nat} (hdue : due ≤ c.now) (result : Except String View)
    (location : Url) (enable : Bool) (position : Nat) (signal : Option Nat) :
    ∃ ds, Performs p s c (.loading due result location enable position signal) ds
      (p.loaded c result location enable position signal) := by
  have hstate := reloadState_openController p c enable
  have hopening := run_opening p s c enable
  unfold loaded
  simp only
  cases hon : enable || c.page.location.isOn with
  | true =>
    have hafter : (p.openController c enable).after = c.after := by
      funext delay
      rw [Console.after, openController_now]
      rfl
    rw [hstate, hon, hafter]
    refine ⟨_, .on hdue hon, ?_⟩
    rw [moves_does]
    exact hopening
  | false =>
    obtain ⟨rfl, hoff⟩ := Bool.or_eq_false_iff.1 hon
    rw [hstate, hon]
    refine ⟨_, .off hdue hoff, ?_⟩
    rw [moves_does, World.run_append, hopening]
    rfl

theorem performs_look {i position : Nat} {signal : Option Nat}
    (h : look? s c i position signal = some t) :
    ∃ ds, Performs p s c (.waiting i position signal) ds t := by
  unfold look? at h
  simp only at h
  split at h
  · cases h
  · next hload =>
    cases h
    exact ⟨_, .closed (congrArg Prod.fst hload), rfl⟩
  · next hload =>
    cases h
    obtain ⟨j, -, hfinds⟩ := Feed.finds_of_nextLoad hload (.inr rfl)
    obtain ⟨u, hevent⟩ := hfinds.navigated
    exact ⟨_, .navigated hfinds hevent, rfl⟩
  · next hload =>
    cases h
    obtain ⟨j, rfl, hfinds⟩ := Feed.finds_of_nextLoad hload (.inl rfl)
    obtain ⟨u, hevent⟩ := hfinds.reloaded
    refine ⟨_, .reloaded hfinds hevent, ?_⟩
    have hpage : (c.dropController i).page = c.page := Console.disarm_page c i
    rw [← hpage]
    rfl

theorem performs_stop {i position : Nat} {signal : Option Nat}
    (h : p.stop? c i signal = some t) :
    ∃ ds, Performs p s c (.waiting i position signal) ds t := by
  unfold stop? at h
  split at h
  · next time shutdown =>
    split at h
    · next htime =>
      cases h
      unfold stopped
      split
      · next message _ => exact ⟨_, .failed htime message, rfl⟩
      · exact ⟨_, .stopped htime, rfl⟩
    · cases h
  · cases h

/-- Whatever the command does in a turn is some moves, and the turn is nothing else. -/
theorem performs_of_turn (h : p.turn? s c stage = some t) : ∃ ds, Performs p s c stage ds t := by
  cases stage with
  | start =>
    cases h
    exact ⟨_, .start, rfl⟩
  | loading due result location enable position signal =>
    replace h : (if due ≤ c.now then some (p.loaded c result location enable position signal)
      else none) = some t := h
    split at h
    · next hdue =>
      cases h
      exact performs_loaded hdue result location enable position signal
    · cases h
  | waiting i position signal =>
    unfold turn? at h
    simp only at h
    split at h
    · rcases (Option.orElse_eq_some _ _ _).1 h with hstop | ⟨-, hlook⟩
      · exact performs_stop hstop
      · exact performs_look hlook
    · rcases (Option.orElse_eq_some _ _ _).1 h with hlook | ⟨-, hstop⟩
      · exact performs_look hlook
      · exact performs_stop hstop
  | ended ending => cases h

/-! ### Chronicles -/

/-- All that happens from a run on, with the events by which it goes on to another run. -/
inductive Chronicle (p : Watch) (s : Server) (start : Run WatchStage) :
    List Event → List Deed → Run WatchStage → Prop
  | nil : Chronicle p s start [] [] start
  | turn {es : List Event} {ds new : List Deed} {r r' : Run WatchStage}
      (h : Chronicle p s start es ds r) (hturn : Happens p.activity s r .turn r')
      (hdoes : Does p s r.console r.stage new r'.stage)
      (hrun : World.run s ⟨r.console, []⟩ (moves new) = ⟨r'.console, []⟩) :
      Chronicle p s start (es ++ [.turn]) (ds ++ new) r'
  | other {es : List Event} {ds : List Deed} {r r' : Run WatchStage} {m : Move}
      (h : Chronicle p s start es ds r) (he : Happens p.activity s r (.other m) r') :
      Chronicle p s start (es ++ [.other m]) (ds ++ [.beside m]) r'

variable {start r r' : Run WatchStage} {es : List Event} {ds new : List Deed}

/-- Every run has a chronicle. -/
theorem exists_chronicle (h : Goes p.activity s start es r) :
    ∃ ds, Chronicle p s start es ds r := by
  induction h with
  | nil => exact ⟨[], .nil⟩
  | snoc hgoes he ih =>
    obtain ⟨ds, hchronicle⟩ := ih
    cases he with
    | turn hturn =>
      obtain ⟨t, ht, rfl⟩ := Option.map_eq_some_iff.1 hturn
      obtain ⟨new, hdoes, hrun⟩ := performs_of_turn ht
      exact ⟨ds ++ new, hchronicle.turn (.turn hturn) hdoes hrun⟩
    | other ready hready hwaits hm ha =>
      exact ⟨_, hchronicle.other (.other ready hready hwaits hm ha)⟩

theorem Chronicle.goes (h : Chronicle p s start es ds r) : Goes p.activity s start es r := by
  induction h with
  | nil => exact .nil
  | turn _ hturn _ _ ih => exact ih.snoc hturn
  | other _ he ih => exact ih.snoc he

/-- What the command does it may do at any time. -/
theorem Does.lawful {stage' : WatchStage} (h : Does p s c stage new stage') (w : World) :
    World.Lawful s w (moves new) := by
  cases h with
  | on hdue hon =>
    rw [moves_does]
    unfold opening
    simp only
    split
    · exact ⟨trivial, trivial, trivial, trivial⟩
    · exact ⟨trivial, trivial, trivial⟩
  | off hdue hoff => exact ⟨trivial, trivial, trivial, trivial⟩
  | reloaded => exact ⟨trivial, trivial, trivial⟩
  | stopped => exact ⟨trivial, trivial, trivial⟩
  | _ => exact ⟨trivial, trivial⟩

/-- The moves of a chronicle are lawful, and they lead where the run goes. -/
theorem Chronicle.led (h : Chronicle p s start es ds r) :
    World.Lawful s ⟨start.console, []⟩ (moves ds) ∧
      World.run s ⟨start.console, []⟩ (moves ds) = ⟨r.console, []⟩ := by
  induction h with
  | nil => exact ⟨trivial, rfl⟩
  | turn _ _ hdoes hrun ih =>
    obtain ⟨hl, hled⟩ := ih
    rw [moves_append, World.lawful_append, World.run_append, hled]
    exact ⟨⟨hl, hdoes.lawful _⟩, hrun⟩
  | other _ he ih =>
    obtain ⟨hl, hled⟩ := ih
    rw [moves_append, World.lawful_append, World.run_append, hled]
    cases he with
    | other ready hready hwaits hm ha => exact ⟨⟨hl, ha, trivial⟩, World.move_of_outside hm⟩

theorem keepsTidy (p : Watch) (s : Server) : p.activity.KeepsTidy s := by
  intro c stage t ht hturn
  obtain ⟨ds, hdoes, hrun⟩ := performs_of_turn hturn
  have htidy := World.tidy_run (w := ⟨c, []⟩) ht (hdoes.lawful (s := s) ⟨c, []⟩)
  rwa [hrun] at htidy

theorem Chronicle.append {mid : Run WatchStage} {es' : List Event} {ds' : List Deed}
    (h : Chronicle p s start es ds mid) (h' : Chronicle p s mid es' ds' r) :
    Chronicle p s start (es ++ es') (ds ++ ds') r := by
  induction h' with
  | nil => rwa [List.append_nil, List.append_nil]
  | turn _ hturn hdoes hrun ih =>
    rw [← List.append_assoc, ← List.append_assoc]
    exact ih.turn hturn hdoes hrun
  | other _ he ih =>
    rw [← List.append_assoc, ← List.append_assoc]
    exact ih.other he

/-- What happens begins where a chronicle up to it ends: it is part of a turn, or it is what
others do. -/
theorem Chronicle.split (h : Chronicle p s start es ds r) {pre post : List Deed} {d : Deed}
    (hds : ds = pre ++ d :: post) : ∃ es₁ ds₁ r₁, Chronicle p s start es₁ ds₁ r₁ ∧
      ((∃ before after stage', pre = ds₁ ++ before ∧
          Does p s r₁.console r₁.stage (before ++ d :: after) stage') ∨
        ∃ m r₂, pre = ds₁ ∧ d = .beside m ∧ Happens p.activity s r₁ (.other m) r₂) := by
  induction h generalizing post with
  | nil => exact absurd hds.symm (by simp)
  | turn hbefore hturn hdoes hrun ih =>
    rcases split_append hds with ⟨before, hpre, hnew⟩ | ⟨rest, hrest⟩
    · exact ⟨_, _, _, hbefore, .inl ⟨before, post, _, hpre, hnew ▸ hdoes⟩⟩
    · exact ih hrest
  | other hbefore he ih =>
    rcases split_append hds with ⟨before, hpre, hnew⟩ | ⟨rest, hrest⟩
    · obtain ⟨rfl, hd⟩ : before = [] ∧ .beside _ = d := by
        cases before with
        | nil => exact ⟨rfl, (List.cons.inj hnew).1⟩
        | cons _ before => exact absurd (List.cons.inj hnew).2 (by simp)
      exact ⟨_, _, _, hbefore, .inr ⟨_, _, by simpa using hpre, hd.symm, he⟩⟩
    · exact ih hrest

theorem Chronicle.tidy (h : Chronicle p s start es ds r) (ht : start.console.Tidy) :
    r.console.Tidy := by
  obtain ⟨hl, hled⟩ := h.led
  have htidy := World.tidy_run (w := ⟨start.console, []⟩) ht hl
  rwa [hled] at htidy

end Watch

end ClusterConsole.Cli
