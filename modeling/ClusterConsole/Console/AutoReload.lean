import ClusterConsole.Console.Basic
import ClusterConsole.Route

/-! Auto-reload. The page's fragment is what carries it over a reload: a page loaded
with it arms the timer of its controller again. A controller has at most one timer,
and a console may have many controllers. -/

namespace ClusterConsole.Console

/-- The new controller has the number `c.controllers.length`. -/
def addController (c : Console) (interval : Nat) : Console :=
  { c with controllers := c.controllers ++ [{ interval }] }

def isArmed (c : Console) (k : Controller) : Bool := c.isPending k.timer

/-- Takes a controller's timer away. -/
def disarm (c : Console) (i : Nat) : Console :=
  match c.controllers[i]? with
  | none => c
  | some k => { c.cancel k.timer with controllers := c.controllers.set i { k with timer := none } }

/-- Starts the timer of a controller, in the place of one that runs already. -/
def arm (c : Console) (i : Nat) : Console :=
  match c.controllers[i]? with
  | none => c
  | some k =>
    { (c.disarm i).schedule k.interval .reload with
      controllers := c.controllers.set i { k with timer := some c.agenda.nextId } }

def setState (c : Console) (i : Nat) (state : ReloadState) : Console :=
  { c with controllers := c.controllers.modify i fun k => { k with state } }

/-- Tells a controller that the page was loaded: a page with the fragment goes on with
auto-reload. -/
def pageLoaded (c : Console) (i : Nat) : Console :=
  if c.page.fragment = some autoReloadFragment then
    let c := (c.arm i).setState i .on
    { c with page := c.page.setChecked true }
  else c

/-- Switches auto-reload on, with the fragment, or off, back to the home path. -/
def toggle (c : Console) (i : Nat) (checked : Bool) : Console :=
  if checked then
    (({ c with page := c.page.replace ("#" ++ autoReloadFragment) } : Console).arm i).setState i .on
  else
    (({ c with page := c.page.replace Route.home } : Console).disarm i).setState i .off

/-- The state of a controller; one that does not exist is off. -/
def reloadState (c : Console) (i : Nat) : ReloadState := (c.controllers[i]?.map (·.state)).getD .off

/-- A controller that is dropped takes its timer with it. -/
def dropController (c : Console) (i : Nat) : Console := c.disarm i

end ClusterConsole.Console
