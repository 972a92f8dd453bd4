import ClusterConsole.Cli.Activity
import ClusterConsole.Page.Load

/-! Watching the page. Its view is loaded again at every reload, each time with a new
controller, until auto-reload is off, the page has left, or a signal comes. -/

namespace ClusterConsole.Cli

/-- The signal to stop, or the failure to wait for it. Nobody listens for it before the
page is first waited for, and it comes some time after that. -/
structure Shutdown where
  delay : Nat
  result : Except String Unit := .ok ()
  deriving Inhabited

structure Watch where
  /-- The time between two reloads. -/
  interval : Nat
  /-- Whether auto-reload is switched on after the first load. -/
  enable : Bool := false
  shutdown : Option Shutdown := none
  /-- Whether the signal goes first where a load is there too, by the number of calls made
  so far. -/
  shutdownFirst : Nat → Bool := fun _ => false
  deriving Inhabited

/-- `position` is where the page's feed is read on, and `signal` the moment at which the
signal comes, once somebody listens for it. -/
inductive WatchStage where
  | start
  /-- The view of a location comes at a time. -/
  | loading (due : Nat) (result : Except String View) (location : Url) (enable : Bool)
      (position : Nat) (signal : Option Nat)
  /-- Auto-reload is on, and the page is to be reloaded. -/
  | waiting (controller position : Nat) (signal : Option Nat)
  | ended (ending : Ending)
  deriving Inhabited

namespace Watch

/-- Asks for the view of the page. -/
def load (s : Server) (c : Console) (enable : Bool) (position : Nat) (signal : Option Nat) :
    Turn WatchStage :=
  let location := c.page.location
  let answer := s.view c.calls location.text
  { console := c.record (.view location.text)
    stage := .loading (c.after answer.delay) answer.result location enable position signal }

/-- A new controller is told of the load, and switched on if that is asked for. It has
the number `c.controllers.length`. -/
def openController (p : Watch) (c : Console) (enable : Bool) : Console :=
  let i := c.controllers.length
  let c := (c.addController p.interval).pageLoaded i
  if enable ∧ c.reloadState i = .off then c.toggle i true else c

/-- The view is there: it is shown, and a failure is not. -/
def loaded (p : Watch) (c : Console) (result : Except String View) (location : Url)
    (enable : Bool) (position : Nat) (signal : Option Nat) : Turn WatchStage :=
  let i := c.controllers.length
  let shown := (result.toOption.map (Line.viewed location ·)).toList
  let c := p.openController c enable
  match c.reloadState i with
  | .off =>
    { console := c.dropController i, stage := .ended (.ok .done), lines := shown ++ [.reloadOff] }
  | .on =>
    { console := c
      stage := .waiting i position (signal <|> p.shutdown.map (c.after ·.delay))
      lines := shown ++ [.reloadOn p.interval] }

/-- The signal is there. -/
def stopped (c : Console) (i : Nat) : Except String Unit → Turn WatchStage
  | .error e => { console := c.dropController i, stage := .ended (.error (.signal e)) }
  | .ok () =>
    { console := (c.toggle i false).dropController i
      stage := .ended (.ok .done)
      lines := [.switchedOff] }

/-- Looks whether the page was reloaded or has left. The controller is given up. -/
def look? (s : Server) (c : Console) (i position : Nat) (signal : Option Nat) :
    Option (Turn WatchStage) :=
  let c' := c.dropController i
  match c.page.feed.nextLoad position with
  | (.waiting, _) => none
  | (.closed, _) => some { console := c', stage := .ended (.error .pageClosed) }
  | (.navigated, _) =>
    some { console := c', stage := .ended (.ok .done), lines := [.left c.page.location] }
  | (.reloaded, next) => some (load s c' false next signal)

/-- The end by the signal, if it has come. -/
def stop? (p : Watch) (c : Console) (i : Nat) (signal : Option Nat) : Option (Turn WatchStage) :=
  match signal, p.shutdown with
  | some time, some shutdown => if time ≤ c.now then some (stopped c i shutdown.result) else none
  | _, _ => none

def turn? (p : Watch) (s : Server) (c : Console) : WatchStage → Option (Turn WatchStage)
  | .start => some (load s c p.enable c.page.feed.subscribe none)
  | .loading due result location enable position signal =>
    if due ≤ c.now then some (p.loaded c result location enable position signal) else none
  | .waiting i position signal =>
    if p.shutdownFirst c.calls.length then p.stop? c i signal <|> look? s c i position signal
    else look? s c i position signal <|> p.stop? c i signal
  | .ended _ => none

def activity (p : Watch) : Activity WatchStage where
  start := .start
  turn? := p.turn?
  wake?
    | .loading due _ _ _ _ _ => some due
    | .waiting _ _ signal => signal
    | _ => none
  ending?
    | .ended ending => some ending
    | _ => none
  stop c
    | .waiting i _ _ => c.dropController i
    | _ => c
  onSignal? c
    | .waiting i _ _ => some (stopped c i (.ok ()))
    | _ => none

end Watch

end ClusterConsole.Cli
