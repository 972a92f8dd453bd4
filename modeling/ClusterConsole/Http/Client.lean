import ClusterConsole.Credentials
import ClusterConsole.Error
import ClusterConsole.Http.Message
import ClusterConsole.Server.Basic
import ClusterConsole.Text.Base64
import ClusterConsole.Text.Utf8
import ClusterConsole.Url.Parse

/-! The server behind HTTP. Each call is one request to a URL resolved from the base.
The cookies of the session go with every request, and user info of the URL becomes its
authorization. A call fails if its request cannot be made or sent, and asks the network
only once. -/

namespace ClusterConsole.Http

/-! ### Failures -/

inductive CallError where
  | unresolvable (path : String) (base : Url)
  /-- No reply to a call other than that of a view. -/
  | unsent (method : Method) (url : Url)
  /-- No reply to the call of a view. -/
  | unloaded (url : Url)
  | unreadable (url : Url) (status : Nat)
  /-- The body of a view ended early. -/
  | brokenBody
  deriving DecidableEq, Repr, Inhabited

def CallError.message : CallError → String
  | unresolvable path base => "cannot resolve '" ++ path ++ "' against " ++ base.text
  | unsent method url => method.text ++ " " ++ url.text
  | unloaded url => "failed to load " ++ url.text
  | unreadable url status =>
    "unreadable entitlement response from " ++ url.text ++ " (" ++ toString status ++ " " ++
      phrase status ++ ")"
  | brokenBody => "error decoding response body"

/-! ### Requests -/

/-- What a header may hold: all but control characters, and the tab. -/
def isHeaderChar (c : Char) : Bool := c == '\t' || (' ' ≤ c && c != '\x7f')

/-- The URL that is sent to the server. -/
def sentUrl (u : Url) : Url :=
  { u with
    authority := u.authority.map fun a => { a with username := [], password := [] }
    fragment := none }

/-- The bytes of a text whose characters may be escaped. -/
def unescape : List Char → List UInt8
  | '%' :: a :: b :: rest =>
    match Percent.hexValue? a, Percent.hexValue? b with
    | some x, some y => UInt8.ofNat (16 * x + y) :: unescape rest
    | _, _ => '%'.toNat.toUInt8 :: unescape (a :: b :: rest)
  | c :: rest => String.utf8EncodeChar c ++ unescape rest
  | [] => []

/-- The authorization that user info stands for. The name has to be text, and a password
that is none counts as empty. -/
def authorization? (a : Authority) : Option String :=
  (Utf8.text? (unescape a.username)).bind fun name =>
    let password := (Utf8.text? (unescape a.password)).getD ""
    if name.isEmpty && password.isEmpty then none
    else some ("Basic " ++ String.ofList (Base64.encode (name ++ ":" ++ password).toUTF8.toList))

/-- A server with its session. -/
structure Client where
  base : Url
  credentials : Credentials := {}
  deriving DecidableEq, Repr, Inhabited

namespace Client

def «open» (base : String) (credentials : Credentials) : Except ConsoleError Client :=
  match Url.parse base with
  | .ok u => .ok ⟨u, credentials⟩
  | .error e => .error (.invalidUrl base e)

/-- Where a path leads from the base. -/
def endpoint (c : Client) (path : String) : Except CallError Url :=
  match c.base.join path with
  | .ok u => .ok u
  | .error _ => .error (.unresolvable path c.base)

/-- What is sent to a URL. -/
def requestTo (c : Client) (method : Method) (url : Url) (body : Option String) : Request where
  method
  url := sentUrl url
  cookie := c.credentials.cookie?
  authorization := url.authority.bind authorization?
  contentType := body.map fun _ => "application/json"
  body := body.getD ""

/-- The request for a URL. It has to be a web address, and the cookies have to fit into a
header. -/
def request? (c : Client) (method : Method) (url : Url) (body : Option String) :
    Option Request :=
  if url.IsWeb ∧ (c.credentials.cookie?.getD "").toList.all isHeaderChar then
    some (c.requestTo method url body)
  else none

/-! ### Calls -/

/-- The path that a call is made to. -/
def path : Call → String
  | .entitlement => Route.entitlement
  | .submit _ => Route.command
  | .view path => path

def method : Call → Method
  | .submit _ => .post
  | _ => .get

def body : Call → Option String
  | .submit request => some request.print
  | _ => none

/-- The request of a call. -/
def requestOf? (c : Client) (call : Call) : Option Request :=
  match c.endpoint (path call) with
  | .error _ => none
  | .ok url => c.request? (method call) url (body call)

/-- The reply to a call, and the time that it takes. -/
def exchange (c : Client) (network : Network) (before : List Request) (call : Call) :
    Option Reply × Nat :=
  match c.requestOf? call with
  | none => (none, 0)
  | some request =>
    match network before request with
    | (.answered reply, time) => (some reply, time)
    | (_, time) => (none, time)

/-- The requests that reached the server, of calls made one after the other. -/
def received (c : Client) (network : Network) (calls : List Call) : List Request :=
  calls.foldl
    (fun before call =>
      match c.requestOf? call with
      | none => before
      | some request =>
        if (network before request).1.isReceived then before ++ [request] else before)
    []

/-- The entitlement answer that a reply is, whatever its status. -/
def readEntitlement (url : Url) (reply : Option Reply) : Except CallError EntitlementResponse :=
  match reply with
  | none => .error (.unsent .get url)
  | some r =>
    match r.bytes?.map fun bytes => EntitlementResponse.read (.ofBytes bytes) with
    | some (.ok response) => .ok response
    | _ => .error (.unreadable url r.status)

/-- Any reply to a submission will do. -/
def readSubmission (url : Url) (reply : Option Reply) : Except CallError Unit :=
  match reply with
  | none => .error (.unsent .post url)
  | some _ => .ok ()

def readView (url : Url) (reply : Option Reply) : Except CallError View :=
  match reply with
  | none => .error (.unloaded url)
  | some r =>
    match r.bytes? with
    | some bytes => .ok ⟨r.status, bytes.length⟩
    | none => .error .brokenBody

/-- What a call comes to, read from its reply. -/
def answer {α : Type} (c : Client) (network : Network) (before : List Request) (call : Call)
    (read : Url → Option Reply → Except CallError α) : Answer α :=
  match c.endpoint (path call) with
  | .error e => { result := .error e.message }
  | .ok url =>
    let (reply, time) := c.exchange network before call
    { delay := time, result := (read url reply).mapError CallError.message }

/-- The server as the console sees it. -/
def server (c : Client) (network : Network) : Server where
  entitlement calls :=
    c.answer network (c.received network (calls.map CallRecord.call)) .entitlement readEntitlement
  submission calls request :=
    some (c.answer network (c.received network (calls.map CallRecord.call)) (.submit request)
      readSubmission)
  view calls path :=
    c.answer network (c.received network (calls.map CallRecord.call)) (.view path) readView

end Client

end ClusterConsole.Http
