import ClusterConsole.Console.Run

/-! A session: a console whose controllers and dispatchers have names, and the steps
that a user takes one after the other. A name given again stands for the new one.
Between two steps all is done that is due. -/

namespace ClusterConsole

inductive SessionStep where
  | act (actions : List PageAction)
  | advance (duration : Nat)
  | addController (name : String) (interval : Nat)
  | dropController (name : String)
  | pageLoaded (name : String)
  | toggle (name : String) (checked : Bool)
  | addDispatcher (name : String) (delay : Nat)
  | dropDispatcher (name : String)
  /-- Sends a command and waits for the outcome. -/
  | dispatch (name : String) (request : CommandRequest)
  /-- Sends a command and goes on. -/
  | start (name : String) (request : CommandRequest)
  | check
  | enforce
  deriving DecidableEq, Repr, Inhabited

inductive SessionResult where
  | done
  | state (state : ReloadState)
  | outcome (outcome : Except ConsoleError Outcome)
  | decision (decision : Except ConsoleError Decision)
  | started
  /-- Whether there was something to drop. -/
  | dropped (found : Bool)
  | unknownName
  deriving Inhabited

/-- The names stand for numbers of controllers and dispatchers. -/
structure Session where
  console : Console
  controllers : List (String × Nat) := []
  dispatchers : List (String × Nat) := []
  deriving Inhabited

namespace Session

/-! ### Names -/

def without (names : List (String × Nat)) (name : String) : List (String × Nat) :=
  names.filter (·.1 != name)

def controller? (s : Session) (name : String) : Option Nat := s.controllers.lookup name

def dispatcher? (s : Session) (name : String) : Option Nat := s.dispatchers.lookup name

/-- Drops the controller with a name, if there is one. -/
def dropController (s : Session) (name : String) : Session :=
  match s.controller? name with
  | none => s
  | some i =>
    { s with console := s.console.dropController i, controllers := without s.controllers name }

def addController (s : Session) (name : String) (interval : Nat) : Session :=
  let s := s.dropController name
  { s with
    console := s.console.addController interval
    controllers := (name, s.console.controllers.length) :: s.controllers }

/-- Forgets the name. What the dispatcher has begun goes on. -/
def dropDispatcher (s : Session) (name : String) : Session :=
  { s with dispatchers := without s.dispatchers name }

def addDispatcher (s : Session) (name : String) (delay : Nat) : Session :=
  let s := s.dropDispatcher name
  { s with
    console := s.console.addDispatcher delay
    dispatchers := (name, s.console.dispatchers.length) :: s.dispatchers }

/-! ### Steps -/

/-- Asks about the entitlement and waits for the answer. What falls due meanwhile is
done. -/
def await (server : Server) (c : Console) : Except String EntitlementResponse × Console :=
  let (answer, asked) := c.ask server
  (answer.result, asked.passTo server (asked.after answer.delay))

/-- What a step does before everything that is due is done. -/
def begin (server : Server) (s : Session) : SessionStep → SessionResult × Session
  | .act actions => (.done, { s with console := s.console.act actions })
  | .advance duration => (.done, { s with console := s.console.advance server duration })
  | .addController name interval => (.done, s.addController name interval)
  | .dropController name => (.dropped (s.controller? name).isSome, s.dropController name)
  | .pageLoaded name =>
    match s.controller? name with
    | none => (.unknownName, s)
    | some i =>
      let c := s.console.pageLoaded i
      (.state (c.reloadState i), { s with console := c })
  | .toggle name checked =>
    match s.controller? name with
    | none => (.unknownName, s)
    | some i =>
      let c := s.console.toggle i checked
      (.state (c.reloadState i), { s with console := c })
  | .addDispatcher name delay => (.done, s.addDispatcher name delay)
  | .dropDispatcher name => (.dropped (s.dispatcher? name).isSome, s.dropDispatcher name)
  | .dispatch name request =>
    match s.dispatcher? name with
    | none => (.unknownName, s)
    | some i =>
      let (result, c) := await server s.console
      let (outcome, c) := c.conclude i request result
      (.outcome outcome, { s with console := c })
  | .start name request =>
    match s.dispatcher? name with
    | none => (.unknownName, s)
    | some i => (.started, { s with console := s.console.schedule 0 (.dispatch i request) })
  | .check =>
    let (result, c) := await server s.console
    (.decision (Decision.ofAnswer result), { s with console := c })
  | .enforce =>
    let (result, c) := await server s.console
    let (decision, c) := c.enforce result
    (.decision decision, { s with console := c })

/-- Takes a step, and does all that is due after it. -/
def step (server : Server) (s : Session) (step : SessionStep) : SessionResult × Session :=
  let (result, s) := s.begin server step
  (result, { s with console := s.console.settle server })

/-- Takes steps one after the other. -/
def run (server : Server) (s : Session) (steps : List SessionStep) : Session :=
  steps.foldl (fun s t => (s.step server t).2) s

/-- A session on a page, at time zero. -/
def ofPage (page : Page) : Session := { console := .ofPage page }

end Session

end ClusterConsole
