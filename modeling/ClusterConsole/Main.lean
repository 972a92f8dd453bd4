import ClusterConsole.Cli.Program
import ClusterConsole.DispatchId
import ClusterConsole.Http.Wire
import Std.Async
import Std.Time

/-! The console on a terminal: files, environment, sockets, clock and signals of the
machine it runs on. Everything that is decided is decided elsewhere. -/

namespace ClusterConsole.Main

open Std.Async

/-! ### The machine -/

def readText (path : String) : IO (Except FileError String) := do
  try
    let bytes ← IO.FS.readBinFile path
    return (Utf8.text? bytes.toList).elim (.error .unreadable) .ok
  catch
    | .noFileOrDirectory .. => return .error .notFound
    | _ => return .error .unreadable

def environment : IO Environment := do
  let bindings ← Settings.variableNames.filterMapM fun name => do
    return (← IO.getEnv name).map fun value => (name, value.toUTF8.toList)
  return { bindings }

def clock : IO String := do return (← Std.Time.PlainTime.now).format "HH:mm:ss"

def newId : IO String := do
  let bytes ← IO.getRandomBytes 16
  return (DispatchId.ofRandom (.ofNat 128 (bytes.foldl (fun n b => 256 * n + b.toNat) 0))).text

/-! ### The network -/

/-- The addresses of a host. -/
def addresses (host : Host) (port : UInt16) : Async (Array Std.Net.SocketAddress) :=
  match host with
  | .ipv4 a b c d => return #[.v4 ⟨.ofParts a b c d, port⟩]
  | .ipv6 [a, b, c, d, e, f, g, h] => return #[.v6 ⟨.ofParts a b c d e f g h, port⟩]
  | host => do
    let found ← DNS.getAddrInfo (String.ofList host.render) (toString port)
    return found.map fun
      | .v4 addr => .v4 ⟨addr, port⟩
      | .v6 addr => .v6 ⟨addr, port⟩

partial def receiveAll (socket : TCP.Socket.Client) (before : ByteArray) : Async ByteArray := do
  let next ← try socket.recv? 65536 catch _ => pure none
  match next with
  | none => return before
  | some bytes => receiveAll socket (before ++ bytes)

def exchangeWith (address : Std.Net.SocketAddress) (request : Http.Request) :
    Async Http.Delivery := do
  let socket ← TCP.Socket.Client.mk
  socket.connect address
  socket.send request.wire.toUTF8
  return .ofWire (← receiveAll socket .empty).toList

/-- Sends a request to the first address that takes it. No encrypted connection is made, so that
nothing reaches a server that asks for one. -/
def deliver (request : Http.Request) : IO Http.Delivery :=
  match request.url.authority with
  | none => return .lost
  | some a => do
    if request.url.scheme ≠ "http".toList then return .lost
    let port := UInt16.ofNat (a.port.getD 80)
    try
      for address in ← (addresses a.host port).block do
        try
          return ← (exchangeWith address request).block
        catch _ => pure ()
      return .lost
    catch _ => return .lost

/-! ### Commands -/

/-- A command at work on this machine. -/
structure Work (σ : Type) where
  activity : Cli.Activity σ
  client : Http.Client
  /-- The reading of the machine's clock at time zero. -/
  start : Nat

/-- No time lies beyond this. -/
def noLimit : Nat := Nat.pow 2 64

variable {σ : Type}

/-- The server as the network shows it for a call that is made now. A submission goes its own
way, and nobody waits for its answer. -/
def answer (w : Work σ) (call : Call) : IO Server := do
  let offline : Server := { w.client.server .down with submission := fun _ _ => none }
  match call, w.client.requestOf? call with
  | _, none => return offline
  | .submit _, some request =>
    let _ ← IO.asTask (deliver request)
    return offline
  | _, some request =>
    let before ← IO.monoMsNow
    let delivery ← deliver request
    let time := (← IO.monoMsNow) - before
    return { w.client.server (fun _ _ => (delivery, time)) with submission := fun _ _ => none }

/-- The next that happens, with the answer to the call that it makes. -/
def next? (w : Work σ) (r : Cli.Run σ) : IO (Option (Cli.Run σ)) := do
  let offline : Server := { w.client.server .down with submission := fun _ _ => none }
  match w.activity.next? offline noLimit r with
  | none => return none
  | some r' =>
    match r'.console.calls.drop r.console.calls.length with
    | [] => return some r'
    | made :: _ => return w.activity.next? (← answer w made.call) noLimit r

def print (lines : List Cli.Line) : IO Unit := do
  for line in lines do
    let text := line.text (← clock) (← newId)
    if line.isDiagnostic then IO.eprintln text else IO.println text

/-- Sleeps until a moment, or until a signal is there. -/
partial def sleepUntil (w : Work σ) (time : Nat) (isSignalled : BaseIO Bool) : IO Bool := do
  if ← isSignalled then return true
  let now := (← IO.monoMsNow) - w.start
  if time ≤ now then return false
  IO.sleep (min 50 (time - now)).toUInt32
  sleepUntil w time isSignalled

/-- Does what is next until the command has ended. A signal is listened for from the first
stage on that takes one. -/
partial def drive (w : Work σ) (isSignalled : Option (BaseIO Bool)) (r : Cli.Run σ) :
    IO Cli.Ending := do
  if let some ending := w.activity.ending? r.stage then return ending
  let isSignalled ←
    match isSignalled, w.activity.onSignal? r.console r.stage with
    | none, some _ =>
      let waiter ← Signal.Waiter.mk .sigint false
      let signal ← waiter.wait
      pure (some (IO.hasFinished signal))
    | known, _ => pure known
  let found ← next? w r
  let time := found.elim noLimit (·.console.now)
  let stopped := (w.activity.onSignal? r.console r.stage).bind fun turn =>
    isSignalled.map fun isSignalled => (turn, isSignalled)
  match stopped with
  | some (turn, isSignalled) =>
    if ← sleepUntil w time isSignalled then
      print turn.lines
      return ← drive w isSignalled { console := turn.console, stage := turn.stage }
  | none => let _ ← sleepUntil w time (pure false)
  match found with
  | none => drive w isSignalled r
  | some r' =>
    print (r'.lines.drop r.lines.length)
    drive w isSignalled r'

def start (p : Cli.Plan) (activity : Cli.Activity σ) : IO Cli.Ending := do
  let w : Work σ := { activity, client := p.client, start := ← IO.monoMsNow }
  drive w none (activity.begin (.ofPage p.page))

def runPlan (p : Cli.Plan) : IO Cli.Ending :=
  match p.action with
  | .send cluster command => start p (p.send cluster command).activity
  | .entitled => start p Cli.Entitled.activity
  | .watch enable => start p (p.watch enable).activity

/-- Prints why the program ends, and gives its exit status. -/
def fail (e : Cli.ProgramError) : IO UInt32 := do
  match e with
  | .options .help => IO.println Cli.Arguments.usage
  | .options .version => IO.println Cli.Arguments.version
  | e => IO.eprintln (e.text?.getD "")
  return e.status.toUInt32

/-- The program. -/
def run (arguments : List String) : IO UInt32 := do
  let text ←
    match Cli.Arguments.read arguments with
    | .error _ => pure (.error .notFound)
    | .ok a => readText a.config
  match Cli.plan arguments (fun _ => text) (← environment) with
  | .error e => fail e
  | .ok p =>
    match ← runPlan p with
    | .error e => fail (.command e)
    | .ok exit => return exit.status.toUInt32

end ClusterConsole.Main

def main (arguments : List String) : IO UInt32 := ClusterConsole.Main.run arguments
