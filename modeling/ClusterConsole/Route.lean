/-! What console and server agree on: routes and pages, the fragment that keeps
auto-reload on, the classes of validated forms, the session's cookies, and the
console's own times. -/

namespace ClusterConsole

namespace Route

def entitlement : String := "/api/v1/isEntitled"

def command : String := "/"

def home : String := "/"

def unauthorized : String := "/unauthorized"

end Route

/-- The fragment, without its `#`, that keeps auto-reload on across reloads. -/
def autoReloadFragment : String := "autoreload"

/-- The class of a form that is validated before it is submitted. -/
def needsValidation : String := "needs-validation"

/-- The class of a form that was validated. -/
def wasValidated : String := "was-validated"

namespace Cookie

def accessToken : String := "access_token"

def userId : String := "user_id"

end Cookie

/-- The time between two reloads, in milliseconds. -/
def defaultReloadInterval : Nat := 30000

/-- The time between a command and the way home, in milliseconds. -/
def defaultRedirectDelay : Nat := 1000

namespace Command

/-- Starts a cluster. -/
def start : String := "aks-start"

/-- Stops a cluster. -/
def stop : String := "aks-stop"

end Command

end ClusterConsole
