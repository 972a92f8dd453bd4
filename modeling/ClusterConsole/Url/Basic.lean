/-! A URL in its parts, and its text. The parts hold what is printed: user info,
path, query and fragment are already percent-encoded, the scheme is in lower
case, and a port is given only where it differs from the scheme's own. -/

namespace ClusterConsole

/-- The host of a URL: a name (of any form where the scheme is not special, and
then possibly empty), four octets, or eight groups of sixteen bits. -/
inductive Host where
  | name (text : List Char)
  | ipv4 (a b c d : UInt8)
  | ipv6 (groups : List UInt16)
  deriving DecidableEq, Repr, Inhabited

/-- What follows `//`. An absent user name or password is empty. -/
structure Authority where
  username : List Char := []
  password : List Char := []
  host : Host
  port : Option Nat := none
  deriving DecidableEq, Repr, Inhabited

/-- The path of a URL: text without structure (`mailto:x`), or segments, each
printed after a slash. -/
inductive UrlPath where
  | rootless (text : List Char)
  | rooted (segments : List (List Char))
  deriving DecidableEq, Repr, Inhabited

structure Url where
  scheme : List Char
  authority : Option Authority := none
  path : UrlPath
  query : Option (List Char) := none
  fragment : Option (List Char) := none
  deriving DecidableEq, Repr, Inhabited

/-! ### Text -/

namespace Host

def decimal (n : Nat) : List Char := Nat.toDigits 10 n

def lowerHex (n : Nat) : List Char := Nat.toDigits 16 n

/-- Groups in hexadecimal, separated by colons. -/
def joinGroups (groups : List UInt16) : List Char :=
  List.intercalate [':'] (groups.map fun g => lowerHex g.toNat)

/-- The length of the run of zero groups that a list starts with. -/
def zeroRun (groups : List UInt16) : Nat := (groups.takeWhile (· == 0)).length

/-- Start and length of the first longest run of zero groups at or after
position `start`, given the best one before it. -/
def longestZeroRun : List UInt16 → Nat → Nat × Nat → Nat × Nat
  | [], _, best => best
  | g :: rest, start, best =>
    let n := zeroRun (g :: rest)
    longestZeroRun rest (start + 1) (if best.2 < n then (start, n) else best)

/-- The first longest run of at least two zero groups is written `::`. -/
def renderGroups (groups : List UInt16) : List Char :=
  let run := longestZeroRun groups 0 (0, 1)
  if run.2 < 2 then joinGroups groups
  else joinGroups (groups.take run.1) ++ "::".toList ++ joinGroups (groups.drop (run.1 + run.2))

def render : Host → List Char
  | name text => text
  | ipv4 a b c d =>
    decimal a.toNat ++ '.' :: decimal b.toNat ++ '.' :: decimal c.toNat ++ '.' :: decimal d.toNat
  | ipv6 groups => '[' :: renderGroups groups ++ [']']

end Host

namespace Authority

def renderUserInfo (a : Authority) : List Char :=
  if a.username.isEmpty && a.password.isEmpty then []
  else if a.password.isEmpty then a.username ++ ['@']
  else a.username ++ ':' :: a.password ++ ['@']

def renderPort (a : Authority) : List Char :=
  match a.port with
  | none => []
  | some p => ':' :: Host.decimal p

/-- User info, host and port, without the slashes before them. -/
def render (a : Authority) : List Char := a.renderUserInfo ++ a.host.render ++ a.renderPort

end Authority

namespace UrlPath

def renderSegments (segments : List (List Char)) : List Char := segments.flatMap ('/' :: ·)

def render : UrlPath → List Char
  | rootless text => text
  | rooted segments => renderSegments segments

end UrlPath

namespace Url

/-- Without an authority a path that starts with an empty segment is written
after `/.`, since `//` would start an authority. -/
def renderHierarchy (u : Url) : List Char :=
  match u.authority, u.path with
  | some a, path => "//".toList ++ a.render ++ path.render
  | none, .rooted ([] :: second :: rest) =>
    "/.".toList ++ UrlPath.renderSegments ([] :: second :: rest)
  | none, path => path.render

def renderQuery (u : Url) : List Char := u.query.elim [] ('?' :: ·)

def renderFragment (u : Url) : List Char := u.fragment.elim [] ('#' :: ·)

def render (u : Url) : List Char :=
  u.scheme ++ ':' :: u.renderHierarchy ++ u.renderQuery ++ u.renderFragment

/-- The printed URL. -/
def text (u : Url) : String := String.ofList u.render

instance : ToString Url := ⟨text⟩

/-- The fragment without its `#`. -/
def fragmentText (u : Url) : Option String := u.fragment.map String.ofList

end Url

/-! ### Schemes -/

/-- The port that a scheme stands for, where it stands for one. -/
def defaultPort? (scheme : List Char) : Option Nat :=
  if scheme = "http".toList || scheme = "ws".toList then some 80
  else if scheme = "https".toList || scheme = "wss".toList then some 443
  else if scheme = "ftp".toList then some 21
  else none

def isFileScheme (scheme : List Char) : Bool := scheme == "file".toList

/-- A special scheme has a host and a path in every URL, and reads a backslash
as a slash. -/
def isSpecialScheme (scheme : List Char) : Bool :=
  isFileScheme scheme || (defaultPort? scheme).isSome

/-- A web address. -/
def Url.IsWeb (u : Url) : Prop := u.scheme = "http".toList ∨ u.scheme = "https".toList

instance (u : Url) : Decidable u.IsWeb := inferInstanceAs (Decidable (_ ∨ _))

theorem Url.IsWeb.special {u : Url} (h : u.IsWeb) :
    isSpecialScheme u.scheme = true ∧ isFileScheme u.scheme = false := by
  rcases h with h | h <;> rw [h] <;> decide

/-- Why a text is no URL. -/
inductive UrlError where
  | relativeWithoutBase
  | emptyHost
  | hostName
  | port
  | ipv4
  | ipv6
  | hostCharacter
  | baseWithoutPath
  deriving DecidableEq, Repr, Inhabited

def UrlError.message : UrlError → String
  | relativeWithoutBase => "relative URL without a base"
  | emptyHost => "empty host"
  | hostName => "invalid international domain name"
  | port => "invalid port number"
  | ipv4 => "invalid IPv4 address"
  | ipv6 => "invalid IPv6 address"
  | hostCharacter => "invalid domain character"
  | baseWithoutPath => "relative URL with a cannot-be-a-base base"

end ClusterConsole
