import ClusterConsole.Url.Host
import ClusterConsole.Url.Segments

/-! Reading a URL, alone or as a reference from a base. The fragment and the query
are cut off first; what is left is a scheme with something after it, or a
reference. `file` has rules of its own for hosts and drive letters. -/

namespace ClusterConsole.Url

/-! ### Cutting the text up -/

def isBlank (c : Char) : Bool := c ≤ ' '

/-- The text without blanks and control characters at its ends. -/
def trim (s : List Char) : List Char :=
  ((s.dropWhile isBlank).reverse.dropWhile isBlank).reverse

/-- The text without tabs and line breaks. -/
def clean (s : List Char) : List Char := s.filter (!Segments.isBreak ·)

/-- What stands before the first `mark`, and what after it, if it occurs. -/
def cut (mark : Char) : List Char → List Char × Option (List Char)
  | [] => ([], none)
  | c :: r => if c = mark then ([], some r) else ((cut mark r).1.cons c, (cut mark r).2)

/-- A reference without its query and fragment, and those two. Only the main part
still has its tabs and line breaks. -/
structure Reference where
  main : List Char
  query : Option (List Char)
  fragment : Option (List Char)

def Reference.ofText (s : List Char) : Reference :=
  let (front, fragment) := cut '#' (trim s)
  let (main, query) := cut '?' front
  ⟨main, query.map clean, fragment.map clean⟩

def isSchemeChar (c : Char) : Bool := c.isAlphanum || c == '+' || c == '-' || c == '.'

/-- The scheme in lower case, and what follows its colon. -/
def splitScheme (s : List Char) : Option (List Char × List Char) :=
  let (front, rest) := cut ':' s
  let name := clean front
  if (name.head?.any Char.isAlpha) && name.all isSchemeChar then
    rest.map (name.map Char.toLower, ·)
  else none

def isSlash (c : Char) : Bool := c == '/' || c == '\\'

/-! ### Authorities -/

/-- The text up to the last `@` of an authority, and what follows it. -/
def cutUserInfo (s : List Char) : Option (List Char) × List Char :=
  let parts := s.splitOn '@'
  match parts.reverse with
  | last :: front@(_ :: _) => (some (List.intercalate ['@'] front.reverse), last)
  | _ => (none, s)

/-- User name and password as they are printed. -/
def readUserInfo (s : List Char) : List Char × List Char :=
  let (name, password) := cut ':' s
  (Percent.encode Percent.inUserInfo name, Percent.encode Percent.inUserInfo (password.getD []))

/-- The host's text, and what follows it from its colon on, if it has one. A
colon in brackets belongs to the host. -/
def cutHost (inBrackets : Bool) : List Char → List Char × Option (List Char)
  | [] => ([], none)
  | c :: r =>
    if c = ':' ∧ ¬ inBrackets then ([], some r)
    else
      let inside := if c = '[' then true else if c = ']' then false else inBrackets
      ((cutHost inside r).1.cons c, (cutHost inside r).2)

/-- A port is at most 65535; the scheme's own port, like no digits, is none. -/
def readPort (scheme : List Char) (s : List Char) : Except UrlError (Option Nat) :=
  if s.all Char.isDigit then
    let n := (Host.digitsValue? 10 s).getD 0
    if 65535 < n then .error .port
    else if s.isEmpty || defaultPort? scheme = some n then .ok none
    else .ok (some n)
  else .error .port

def readHost (scheme : List Char) (s : List Char) : Except UrlError Host :=
  if isSpecialScheme scheme then
    if s.isEmpty then .error .emptyHost else Host.parseSpecial s
  else Host.parseText s

/-- The authority that a text without slashes stands for, and what of the text is
left: a backslash ends a port. An empty user info may stand
before an empty host only if the text is the `last` of the URL. -/
def readAuthority (scheme : List Char) (last : Bool) (s : List Char) :
    Except UrlError (Authority × List Char) := do
  let (userInfo, rest) := cutUserInfo s
  if userInfo = some [] ∧ rest.isEmpty ∧ ¬ last then throw .emptyHost
  let (username, password) := readUserInfo (userInfo.getD [])
  let (hostText, afterHost) := cutHost false rest
  let host ← readHost scheme hostText
  if host = .name [] ∧ afterHost.isSome then throw .emptyHost
  let (portText, left) := (afterHost.getD []).span (· != '\\')
  let port ← readPort scheme portText
  if host = .name [] ∧ ¬ (username.isEmpty ∧ password.isEmpty) then throw .emptyHost
  return ({ username, password, host, port }, left)

/-! ### Building the URL -/

def encodeQuery (scheme : List Char) (s : List Char) : List Char :=
  Percent.encode (if isSpecialScheme scheme then Percent.inSpecialQuery else Percent.inQuery) s

def encodeFragment (s : List Char) : List Char := Percent.encode Percent.inFragment s

/-- A URL with the query and fragment of a reference. -/
def build (scheme : List Char) (authority : Option Authority) (path : UrlPath) (r : Reference) :
    Url where
  scheme := scheme
  authority := authority
  path := path
  query := r.query.map (encodeQuery scheme)
  fragment := r.fragment.map encodeFragment

/-- The text of a path after an authority, without its leading slash; `none` if
there is no path. Only a special scheme has one in every URL. -/
def pathText? (scheme : List Char) (s : List Char) : Option (List Char) :=
  match s with
  | [] => if isSpecialScheme scheme then some [] else none
  | c :: r => if Segments.isSeparator (isSpecialScheme scheme) c then some r else some s

def pathAfterAuthority (scheme : List Char) (s : List Char) : List (List Char) :=
  (pathText? scheme s).elim [] (Segments.resolve scheme [])

/-- A URL from what follows the two slashes. -/
def withAuthority (scheme : List Char) (s : List Char) (r : Reference) : Except UrlError Url := do
  let (text, after) := s.span (!Segments.isSeparator (isSpecialScheme scheme) ·)
  let last := after.isEmpty && r.query.isNone && r.fragment.isNone
  let (authority, left) ← readAuthority scheme last text
  return build scheme (some authority) (.rooted (pathAfterAuthority scheme (left ++ after))) r

def baseSegments (base : Url) : List (List Char) :=
  match base.path with
  | .rooted segments => segments
  | .rootless _ => []

/-- A reference that keeps the base's path. The base's query stays too unless the
reference has one. -/
def keepPath (base : Url) (r : Reference) : Url :=
  { build base.scheme base.authority base.path r with
    query := (r.query.map (encodeQuery base.scheme)).orElse fun _ => base.query }

/-- A reference whose text starts with no scheme, from a base with a rooted
path. -/
def relative (base : Url) (s : List Char) (r : Reference) : Except UrlError Url :=
  match s with
  | [] => .ok (keepPath base r)
  | c :: rest =>
    if isSlash c then
      match s with
      | '/' :: '/' :: after => withAuthority base.scheme after r
      | _ =>
        if 2 ≤ (s.takeWhile isSlash).length then
          withAuthority base.scheme (s.dropWhile isSlash) r
        else
          .ok (build base.scheme base.authority (.rooted (Segments.resolve base.scheme [] rest)) r)
    else
      .ok (build base.scheme base.authority
        (.rooted (Segments.resolve base.scheme (baseSegments base).dropLast s)) r)

/-! ### Files -/

def noHost : Authority := { host := .name [] }

/-- The text from its first character on that is no tab or line break. -/
def skipBreaks (s : List Char) : List Char := s.dropWhile Segments.isBreak

/-- Whether a path's text starts with a drive letter as its segment. -/
def startsWithDriveLetter (s : List Char) : Bool :=
  match clean s with
  | a :: b :: r => Segments.isDriveLetter [a, b] && r.head?.all isSlash
  | _ => false

/-- The host of a file: none where it is empty or names this machine. -/
def readFileHost (s : List Char) : Except UrlError Authority :=
  if s.isEmpty then .ok noHost
  else (Host.parseSpecial s).map fun host =>
    if host = .name "localhost".toList then noHost else { host }

/-- A `file` URL from what follows its two slashes. A drive letter takes the place of
the host, also at the start of the path; after no host it is not looked for there. -/
def fileWithHost (s : List Char) (r : Reference) : Except UrlError Url := do
  let scheme := "file".toList
  let (text, after) := s.span (!isSlash ·)
  if Segments.isDriveLetter (clean text) then
    return build scheme (some noHost) (.rooted (Segments.resolve scheme [] s)) r
  let authority ← readFileHost (clean text)
  if authority = noHost then
    return build scheme (some noHost) (.rooted (Segments.resolve scheme [] after)) r
  let path := after.drop 1
  let kept := if Segments.namesDrive [] (Segments.split true path) then noHost else authority
  return build scheme (some kept) (.rooted (Segments.resolve scheme [] path)) r

/-- Whose host and drive a path from the root keeps: the drive of the base, else
its host, unless the path has a drive of its own. -/
def fileRoot (base : Option Url) (s : List Char) : Authority × List (List Char) :=
  match base with
  | none => (noHost, [])
  | some b =>
    if startsWithDriveLetter s then (noHost, [])
    else
      match (baseSegments b).head? with
      | some first =>
        if Segments.isNormalDriveLetter first then (noHost, [first])
        else (b.authority.getD noHost, [])
      | none => (b.authority.getD noHost, [])

/-- The path that a relative path leads to. The last segment of the base gives way to
it unless it is a drive letter. -/
def relativeFilePath (base : Url) (s : List Char) : List (List Char) :=
  let scheme := "file".toList
  let segments := baseSegments base
  match segments.getLast?.filter Segments.isNormalDriveLetter with
  | none => Segments.resolve scheme segments.dropLast s
  | some drive =>
    if segments.length = 1 then Segments.resolve scheme segments s
    else Segments.resolveAfterDrive segments.dropLast drive s

/-- A `file` URL from what follows its scheme, or a reference from a `file`
base. -/
def file (base : Option Url) (s : List Char) (r : Reference) : Except UrlError Url :=
  let scheme := "file".toList
  match skipBreaks s with
  | [] =>
    match base with
    | some b => .ok (keepPath b r)
    | none => .ok (build scheme (some noHost) (.rooted [[]]) r)
  | c :: rest =>
    if isSlash c then
      let next := skipBreaks rest
      if next.head?.any isSlash then fileWithHost (next.drop 1) r
      else
        let (authority, drive) := fileRoot base rest
        .ok (build scheme (some authority) (.rooted (Segments.resolve scheme drive rest)) r)
    else
      match base with
      | some b =>
        if startsWithDriveLetter s then
          .ok (build scheme (some noHost) (.rooted (Segments.resolve scheme [] s)) r)
        else .ok (build scheme b.authority (.rooted (relativeFilePath b s)) r)
      | none => .ok (build scheme (some noHost) (.rooted (Segments.resolve scheme [] s)) r)

/-! ### Resolving -/

/-- A reference that starts with the scheme of no file, from what follows it. -/
def absolute (base : Option Url) (scheme : List Char) (s : List Char) (r : Reference) :
    Except UrlError Url :=
  if isSpecialScheme scheme then
    match base with
    | some b =>
      if b.scheme = scheme ∧ (s.takeWhile isSlash).length < 2 then relative b s r
      else withAuthority scheme (s.dropWhile isSlash) r
    | none => withAuthority scheme (s.dropWhile isSlash) r
  else
    match s with
    | '/' :: '/' :: after => withAuthority scheme after r
    | '/' :: after => .ok (build scheme none (.rooted (Segments.resolve scheme [] after)) r)
    | _ => .ok (build scheme none (.rootless (Percent.encode Percent.isControl s)) r)

/-- A reference that starts with no scheme. A base without a rooted path can only
get another fragment. -/
def reference (base : Url) (r : Reference) : Except UrlError Url :=
  match base.path with
  | .rootless _ =>
    if r.main.isEmpty && r.query.isNone && r.fragment.isSome then .ok (keepPath base r)
    else .error .baseWithoutPath
  | .rooted _ =>
    if isFileScheme base.scheme then file (some base) r.main r else relative base (clean r.main) r

def resolve (base : Option Url) (s : List Char) : Except UrlError Url :=
  let r := Reference.ofText s
  match splitScheme r.main with
  | some (scheme, rest) =>
    if isFileScheme scheme then file (base.filter fun b => isFileScheme b.scheme) rest r
    else absolute base scheme (clean rest) r
  | none =>
    match base with
    | some b => reference b r
    | none => .error .relativeWithoutBase

/-- The URL that a text is. It is none if it has the scheme of a server and the name of its host
goes beyond ASCII. -/
def parse (s : String) : Except UrlError Url := resolve none s.toList

/-- The URL that a reference leads to from this one. -/
def join (base : Url) (s : String) : Except UrlError Url := resolve (some base) s.toList

end ClusterConsole.Url
