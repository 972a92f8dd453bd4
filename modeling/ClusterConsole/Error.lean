import ClusterConsole.Url.Basic

/-! What can go wrong in the console, by cause. -/

namespace ClusterConsole

inductive ConsoleError where
  | entitlementCheck (source : String)
  | invalidUrl (url : String) (reason : UrlError)
  | unknownForm (id : String)
  deriving DecidableEq, Repr, Inhabited

def ConsoleError.message : ConsoleError → String
  | entitlementCheck source => "entitlement check failed: " ++ source
  | invalidUrl url reason => "invalid console url '" ++ url ++ "': " ++ reason.message
  | unknownForm id => "no form with id '" ++ id ++ "' on this page"

end ClusterConsole
