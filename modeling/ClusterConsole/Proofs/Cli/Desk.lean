import ClusterConsole.Proofs.Cli.Course
import ClusterConsole.Proofs.Console.Places

/-! Any number of commands on one console. They have their turns in any order, others begin while
they wait, and the users of the console, its timers and its server go on beside them. As long as
nobody else acts on the page, all of them together keep it on the server on which it was
opened, and at few places there. -/

namespace ClusterConsole.Cli

/-- A command at work, at one of its stages. -/
inductive Errand where
  | send (p : Send) (stage : SendStage)
  | entitled (stage : EntitledStage)
  | watch (p : Watch) (stage : WatchStage)

namespace Errand

/-- The command has still to begin. -/
inductive IsNew : Errand → Prop
  | send (p : Send) : IsNew (.send p p.activity.start)
  | entitled : IsNew (.entitled Entitled.activity.start)
  | watch (p : Watch) : IsNew (.watch p p.activity.start)

/-- The next turn, unless the command has to wait. -/
def turn? (s : Server) (c : Console) : Errand → Option (Console × Errand)
  | send p stage => (p.activity.turn? s c stage).map fun t => (t.console, send p t.stage)
  | entitled stage => (Entitled.activity.turn? s c stage).map fun t => (t.console, entitled t.stage)
  | watch p stage => (p.activity.turn? s c stage).map fun t => (t.console, watch p t.stage)

/-- The turn that a signal leads to, if the command takes one. -/
def signal? (c : Console) : Errand → Option (Console × Errand)
  | send p stage => (p.activity.onSignal? c stage).map fun t => (t.console, send p t.stage)
  | entitled stage =>
    (Entitled.activity.onSignal? c stage).map fun t => (t.console, entitled t.stage)
  | watch p stage => (p.activity.onSignal? c stage).map fun t => (t.console, watch p t.stage)

/-- What is given up with the command. -/
def stop (c : Console) : Errand → Console
  | send p stage => p.activity.stop c stage
  | entitled stage => Entitled.activity.stop c stage
  | watch p stage => p.activity.stop c stage

end Errand

/-- A console with its users, and the commands at work on it. -/
structure Desk where
  world : World
  errands : List Errand := []

namespace Desk

/-- What may happen at a desk where nobody else acts on the page. -/
inductive Step (s : Server) : Desk → Desk → Prop
  | move {d : Desk} {m : Move} (hm : ¬ m.Foreign) (ha : d.world.Allows m) :
      Step s d { d with world := d.world.move s m }
  | begin {d : Desk} {e : Errand} (he : e.IsNew) : Step s d { d with errands := d.errands ++ [e] }
  | turn {d : Desk} {i : Nat} {e e' : Errand} {c : Console} (he : d.errands[i]? = some e)
      (hturn : e.turn? s d.world.console = some (c, e')) :
      Step s d ⟨{ d.world with console := c }, d.errands.set i e'⟩
  | signal {d : Desk} {i : Nat} {e e' : Errand} {c : Console} (he : d.errands[i]? = some e)
      (hsignal : e.signal? d.world.console = some (c, e')) :
      Step s d ⟨{ d.world with console := c }, d.errands.set i e'⟩
  | stop {d : Desk} {i : Nat} {e : Errand} (he : d.errands[i]? = some e) :
      Step s d ⟨{ d.world with console := e.stop d.world.console }, d.errands.eraseIdx i⟩

/-- Some steps lead from one desk to the other. -/
inductive Leads (s : Server) (start : Desk) : Desk → Prop
  | refl : Leads s start start
  | step {d d' : Desk} (h : Leads s start d) (hstep : Step s d d') : Leads s start d'

def page (d : Desk) : Page := d.world.console.page

/-- A console on which nothing has begun. -/
def ofPage (page : Page) : Desk := { world := .ofPage page }

end Desk

/-! ### Turns -/

variable {s : Server} {c c' : Console}

namespace Send

variable {p : Send} {stage : SendStage} {t : Turn SendStage}

theorem led_turn (h : p.activity.turn? s c stage = some t) : c.page.Led t.console.page := by
  cases stage with
  | start =>
    obtain rfl : p.start s c = t := Option.some.inj h
    rcases start_cases p s c with ⟨hconsole, -⟩ | ⟨hconsole, -⟩ <;> rw [hconsole]
    · exact .refl _
    · exact .refl _
  | asking due result dispatcher position =>
    replace h : (if due ≤ c.now then some (p.answered c result dispatcher position) else none) =
      some t := h
    split at h
    · obtain rfl := Option.some.inj h
      rw [(answered_cases p c result dispatcher position).1]
      exact Console.led_conclude c dispatcher p.request result
    · cases h
  | leaving position =>
    have hlook : p.look? c position = some t := h
    rw [(look_some hlook).1]
    exact .refl _
  | ended ending => cases h

end Send

namespace Entitled

variable {stage : EntitledStage} {t : Turn EntitledStage}

theorem led_turn (h : activity.turn? s c stage = some t) : c.page.Led t.console.page := by
  cases stage with
  | start =>
    obtain rfl : start s c = t := Option.some.inj h
    exact .refl _
  | asking due result =>
    replace h : (if due ≤ c.now then some (answered c result) else none) = some t := h
    split at h
    · obtain rfl := Option.some.inj h
      rw [(answered_eq c result).1]
      exact Console.led_enforce c result
    · cases h
  | ended ending => cases h

end Entitled

namespace Watch

variable {p : Watch} {stage : WatchStage} {t : Turn WatchStage} {i : Nat} {m : Move}

theorem not_foreign_of_tends (h : m.Tends i) : ¬ m.Foreign := by
  match m, h with
  | .view _, _ | .addController _, _ | .pageLoaded _, _ | .toggle _ _, _ | .dropController _, _ =>
    exact id

theorem led_turn (h : p.activity.turn? s c stage = some t) : c.page.Led t.console.page := by
  obtain ⟨ds, hdoes, hrun⟩ := performs_of_turn h
  have hled := World.led_run (s := s) (w := ⟨c, []⟩) fun m hm =>
    not_foreign_of_tends (hdoes.tends m hm)
  rwa [hrun] at hled

theorem led_drop (c : Console) (i : Nat) : c.page.Led (c.dropController i).page :=
  .of_eq (Console.disarm_page c i)

theorem led_signal (h : p.activity.onSignal? c stage = some t) : c.page.Led t.console.page := by
  cases stage with
  | waiting i position signal =>
    obtain rfl : stopped c i (.ok ()) = t := Option.some.inj h
    exact (Console.led_toggle c i false).trans (led_drop _ i)
  | _ => cases h

theorem led_stop (c : Console) (stage : WatchStage) :
    c.page.Led (p.activity.stop c stage).page := by
  cases stage with
  | waiting i position signal => exact led_drop c i
  | _ => exact .refl _

end Watch

namespace Errand

variable {e e' : Errand}

theorem led_turn (h : e.turn? s c = some (c', e')) : c.page.Led c'.page := by
  cases e with
  | send p stage =>
    obtain ⟨t, ht, heq⟩ := Option.map_eq_some_iff.1 h
    cases heq
    exact Send.led_turn ht
  | entitled stage =>
    obtain ⟨t, ht, heq⟩ := Option.map_eq_some_iff.1 h
    cases heq
    exact Entitled.led_turn ht
  | watch p stage =>
    obtain ⟨t, ht, heq⟩ := Option.map_eq_some_iff.1 h
    cases heq
    exact Watch.led_turn ht

theorem led_signal (h : e.signal? c = some (c', e')) : c.page.Led c'.page := by
  cases e with
  | watch p stage =>
    obtain ⟨t, ht, heq⟩ := Option.map_eq_some_iff.1 h
    cases heq
    exact Watch.led_signal ht
  | _ => cases h

theorem led_stop (c : Console) (e : Errand) : c.page.Led (e.stop c).page := by
  cases e with
  | watch p stage => exact Watch.led_stop c stage
  | _ => exact .refl _

end Errand

/-! ### Desks -/

namespace Desk

variable {start d d' : Desk}

/-- Whatever happens, the page is led by the console itself. -/
theorem Step.led (h : Step s d d') : d.page.Led d'.page := by
  cases h with
  | move hm ha => exact World.led_move hm
  | begin he => exact .refl _
  | turn he hturn => exact Errand.led_turn hturn
  | signal he hsignal => exact Errand.led_signal hsignal
  | stop he => exact Errand.led_stop _ _

theorem Leads.led (h : Leads s start d) : start.page.Led d.page := by
  induction h with
  | refl => exact .refl _
  | step _ hstep ih => exact ih.trans hstep.led

/-- A page that was opened at a web address never leaves its server, and all its locations are
the address, the home page and the page for those who are not entitled, each on or not. -/
theorem within_leads {url : String} {page : Page} (hopen : Page.open url = .ok page)
    (hweb : page.location.IsWeb) (h : Leads s (ofPage page) d) :
    ∀ v ∈ d.page.history, page.location.Place v ∧
      v.scheme = page.location.scheme ∧ v.authority = page.location.authority := by
  obtain ⟨hspecial, hfile⟩ := hweb.special
  have hpath : page.location.hasPath = true :=
    Url.hasPath_iff.2 (Page.rooted_open hopen hspecial)
  have hat : page = .at page.location := by
    unfold Page.open at hopen
    split at hopen
    · cases hopen
      rfl
    · cases hopen
  have hstart : (ofPage page).page.Within page.location := by
    rw [hat]
    exact Page.within_at page.location
  intro v hv
  have hplace := hstart.led hpath hfile h.led v hv
  exact ⟨hplace, hplace.site⟩

/-- Nobody is entitled. -/
def refusing : Server where
  entitlement _ := { result := .ok .notEntitled }
  submission _ _ := none
  view _ _ := { result := .ok { status := 200, bytes := 0 } }

/-- Somebody watches the page and switches auto-reload on, and then somebody else is refused. -/
theorem within_leads_watching :
    ∃ d, Leads refusing (ofPage World.consolePage) d ∧
      d.page.history = [{ World.consolePage.location with fragment := some "autoreload".toList },
        World.consolePage.location.unauthorized] ∧
      ∀ v ∈ d.page.history, World.consolePage.location.Place v ∧
        v.scheme = World.consolePage.location.scheme ∧
          v.authority = World.consolePage.location.authority := by
  have hbegin := Leads.refl.step (Step.begin (s := refusing) (d := ofPage World.consolePage)
    (.watch { interval := 1, enable := true }))
  have hload := hbegin.step (.turn (i := 0) rfl rfl)
  have hloaded := hload.step (.turn (i := 0) rfl rfl)
  have hask := hloaded.step (.move (m := .ask .enforce) id trivial)
  have hanswer := hask.step (.move (m := .answer ⟨.enforce, 1, 0, .ok .notEntitled⟩) id
    ⟨.head _, Nat.le_refl _⟩)
  exact ⟨_, hanswer, by decide +kernel, within_leads World.open_consolePage (.inl rfl) hanswer⟩

end Desk

end ClusterConsole.Cli
