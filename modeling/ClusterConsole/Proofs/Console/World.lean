import ClusterConsole.Proofs.Console.Tidy

/-! What can happen on a console, in any order. The moves of a world are those of its
users, who may begin anything at any moment, those of the server, whose answers come
after any time, and those of the clock. Of several jobs that are due any may be done
first, and only the clock waits for all of them. A run is a list of moves each of which
is allowed when its turn comes, so that what holds after every run holds in whatever way
the activities on a console are interleaved. -/

namespace ClusterConsole

/-- What somebody does who waits for an entitlement answer. -/
inductive Purpose where
  | dispatch (dispatcher : Nat) (request : CommandRequest)
  | check
  | enforce
  deriving DecidableEq, Repr, Inhabited

/-- A call that somebody waits for. `call` is the number of calls made before it. -/
structure Inquiry where
  purpose : Purpose
  call : Nat
  due : Nat
  result : Except String EntitlementResponse
  deriving Inhabited

/-- A console, and the calls that somebody waits for. What nobody waits for is on the
agenda of the console. -/
structure World where
  console : Console
  waiting : List Inquiry := []
  deriving Inhabited

inductive Move where
  /-- The clock goes on to a time. -/
  | wait (time : Nat)
  /-- A job of the agenda is done. -/
  | resume (job : Job Task)
  /-- Somebody asks for an entitlement and waits for the answer. -/
  | ask (purpose : Purpose)
  /-- Somebody who waited goes on. -/
  | answer (inquiry : Inquiry)
  /-- A dispatch begins that nobody waits for. -/
  | start (dispatcher : Nat) (request : CommandRequest)
  /-- Somebody else acts on the page, now or later. -/
  | act (actions : List PageAction)
  | plan (delay : Nat) (actions : List PageAction)
  /-- A view is asked for. -/
  | view (path : String)
  | addController (interval : Nat)
  | pageLoaded (controller : Nat)
  | toggle (controller : Nat) (checked : Bool)
  | dropController (controller : Nat)
  | addDispatcher (delay : Nat)
  deriving Inhabited

/-- What is done with an answer. -/
def Purpose.conclude (c : Console) (result : Except String EntitlementResponse) :
    Purpose → Console
  | dispatch i request => (c.conclude i request result).2
  | check => c
  | enforce => (c.enforce result).2

namespace World

def ofPage (page : Page) : World := { console := .ofPage page }

/-- A call that is made now. -/
def inquiry (s : Server) (w : World) (purpose : Purpose) : Inquiry where
  purpose
  call := w.console.calls.length
  due := w.console.after (s.entitlement w.console.calls).delay
  result := (s.entitlement w.console.calls).result

/-- Nothing that is due may be left when the clock goes on. -/
def Allows (w : World) : Move → Prop
  | .wait time => w.console.now ≤ time ∧ ∀ j ∈ w.console.agenda.jobs, time ≤ j.due
  | .resume j => j ∈ w.console.agenda.jobs ∧ j.due ≤ w.console.now
  | .answer q => q ∈ w.waiting ∧ q.due ≤ w.console.now
  | _ => True

def move (s : Server) (w : World) : Move → World
  | .wait time => { w with console := { w.console with now := time } }
  | .resume j => { w with console := w.console.resume s j }
  | .ask purpose =>
    { console := (w.console.ask s).2, waiting := w.waiting ++ [w.inquiry s purpose] }
  | .answer q =>
    { console := q.purpose.conclude w.console q.result
      waiting := w.waiting.filter (·.call != q.call) }
  | .start i request => { w with console := w.console.schedule 0 (.dispatch i request) }
  | .act actions => { w with console := w.console.act actions }
  | .plan delay actions => { w with console := w.console.schedule delay (.act actions) }
  | .view path => { w with console := w.console.record (.view path) }
  | .addController interval => { w with console := w.console.addController interval }
  | .pageLoaded i => { w with console := w.console.pageLoaded i }
  | .toggle i checked => { w with console := w.console.toggle i checked }
  | .dropController i => { w with console := w.console.dropController i }
  | .addDispatcher delay => { w with console := w.console.addDispatcher delay }

/-! ### Runs -/

def run (s : Server) (w : World) (ms : List Move) : World := ms.foldl (move s) w

/-- Each of the moves is allowed when its turn comes. -/
def Lawful (s : Server) : World → List Move → Prop
  | _, [] => True
  | w, m :: ms => w.Allows m ∧ Lawful s (w.move s m) ms

variable {s : Server} {w : World} {m : Move} {ms ns : List Move}

@[simp] theorem run_nil : w.run s [] = w := rfl

@[simp] theorem run_cons : w.run s (m :: ms) = (w.move s m).run s ms := rfl

theorem run_append : w.run s (ms ++ ns) = (w.run s ms).run s ns := List.foldl_append

theorem lawful_append : Lawful s w (ms ++ ns) ↔ Lawful s w ms ∧ Lawful s (w.run s ms) ns := by
  induction ms generalizing w with
  | nil => simp [Lawful]
  | cons m ms ih => simp only [List.cons_append, Lawful, run_cons, ih, and_assoc]

/-- What every move keeps, every run keeps. -/
theorem run_keeps {P : World → Prop} (keeps : ∀ w m, P w → w.Allows m → P (w.move s m))
    (h : P w) (hl : Lawful s w ms) : P (w.run s ms) := by
  induction ms generalizing w with
  | nil => exact h
  | cons m ms ih => exact ih (keeps w m h hl.1) hl.2

/-- Some run leads from one world to another. -/
def Reaches (s : Server) (w w' : World) : Prop := ∃ ms, Lawful s w ms ∧ w.run s ms = w'

theorem Reaches.refl (w : World) : Reaches s w w := ⟨[], trivial, rfl⟩

theorem Reaches.trans {w' w'' : World} (h : Reaches s w w') (h' : Reaches s w' w'') :
    Reaches s w w'' := by
  obtain ⟨ms, hl, rfl⟩ := h
  obtain ⟨ns, hl', rfl⟩ := h'
  exact ⟨ms ++ ns, lawful_append.2 ⟨hl, hl'⟩, run_append⟩

theorem Reaches.move (ha : w.Allows m) : Reaches s w (w.move s m) := ⟨[m], ⟨ha, trivial⟩, rfl⟩

/-! ### Every world is tidy -/

theorem tidy_conclude {c : Console} (h : c.Tidy) (purpose : Purpose)
    (result : Except String EntitlementResponse) : (purpose.conclude c result).Tidy := by
  cases purpose with
  | dispatch i request => exact h.conclude i request result
  | check => exact h
  | enforce => exact h.enforce result

theorem tidy_move (h : w.console.Tidy) (ha : w.Allows m) : (w.move s m).console.Tidy := by
  cases m with
  | wait time => exact h.wait ha.2
  | resume j => exact h.resume s fun k hk => Nat.le_trans ha.2 (h.due k hk)
  | ask purpose => exact h.record .entitlement
  | answer q => exact tidy_conclude h q.purpose q.result
  | start i request => exact h.schedule 0 (by simp) (by simp)
  | act actions => exact h.page _
  | plan delay actions => exact h.schedule delay (by simp) (by simp)
  | view path => exact h.record _
  | addController interval => exact h.addController interval
  | pageLoaded i => exact h.pageLoaded i
  | toggle i checked => exact h.toggle i checked
  | dropController i => exact h.disarm i
  | addDispatcher delay => exact h.addDispatcher delay

theorem tidy_run (h : w.console.Tidy) (hl : Lawful s w ms) : (w.run s ms).console.Tidy :=
  run_keeps (P := fun w => w.console.Tidy) (fun _ _ h ha => tidy_move h ha) h hl

theorem Reaches.tidy {w' : World} (h : Reaches s w w') (ht : w.console.Tidy) : w'.console.Tidy := by
  obtain ⟨ms, hl, rfl⟩ := h
  exact tidy_run ht hl

theorem tidy_ofPage {page : Page} (hl : Lawful s (ofPage page) ms) :
    ((ofPage page).run s ms).console.Tidy :=
  tidy_run (Console.tidy_ofPage page) hl

end World

end ClusterConsole
