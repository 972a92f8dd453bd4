import ClusterConsole.Error
import ClusterConsole.Page.Feed
import ClusterConsole.Url.Parse

/-! The page that the console is open on: a history of locations, the auto-reload
control, and a feed of what happens to the page. A target that leads nowhere
changes nothing. -/

namespace ClusterConsole

inductive PageEvent where
  /-- A new entry of the history. -/
  | navigated (url : Url)
  /-- Another location in the place of the last. -/
  | replaced (url : Url)
  | reloaded (url : Url)
  deriving DecidableEq, Repr, Inhabited

/-- `past` holds the locations before the current one, oldest first. -/
structure Page where
  past : List Url := []
  location : Url
  checked : Bool := false
  reloads : Nat := 0
  feed : Feed PageEvent := .ofCapacity 64
  deriving DecidableEq, Repr, Inhabited

inductive PageAction where
  | navigate (target : String)
  | replace (target : String)
  | reload
  | setChecked (checked : Bool)
  deriving DecidableEq, Repr, Inhabited

namespace Page

def «at» (location : Url) : Page := { location }

def «open» (url : String) : Except ConsoleError Page :=
  match Url.parse url with
  | .ok u => .ok (.at u)
  | .error e => .error (.invalidUrl url e)

/-- All locations, oldest first. -/
def history (p : Page) : List Url := p.past ++ [p.location]

/-- The fragment of the location, without its `#`. -/
def fragment (p : Page) : Option String := p.location.fragmentText

/-- A new entry of the history, on which auto-reload is not checked. -/
def navigate (p : Page) (target : String) : Page :=
  match p.location.join target with
  | .error _ => p
  | .ok u =>
    { p with
      past := p.past ++ [p.location]
      location := u
      checked := false
      feed := p.feed.send (.navigated u) }

def replace (p : Page) (target : String) : Page :=
  match p.location.join target with
  | .error _ => p
  | .ok u => { p with location := u, feed := p.feed.send (.replaced u) }

def reload (p : Page) : Page :=
  { p with
    checked := false
    reloads := p.reloads + 1
    feed := p.feed.send (.reloaded p.location) }

def setChecked (p : Page) (checked : Bool) : Page := { p with checked }

def act (p : Page) : PageAction → Page
  | .navigate target => p.navigate target
  | .replace target => p.replace target
  | .reload => p.reload
  | .setChecked checked => p.setChecked checked

def acts (p : Page) (actions : List PageAction) : Page := actions.foldl act p

end Page

end ClusterConsole
