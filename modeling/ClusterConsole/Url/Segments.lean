import ClusterConsole.Text.Percent
import ClusterConsole.Url.Basic

/-! Resolving a path. The segments of a text are appended one by one to the
segments that are there already: `.` adds nothing, `..` takes one back, and a
trailing one of either leaves the path ending in a slash. A drive letter is
never taken back. A `file` path that opens with a drive letter gives it one
spelling, and has no host. -/

namespace ClusterConsole.Segments

/-! ### Kinds of segments -/

/-- `.` in one of its spellings. -/
def isSingleDot (s : List Char) : Bool :=
  match s with
  | ['.'] => true
  | ['%', '2', e] => e == 'e' || e == 'E'
  | _ => false

/-- `..` in one of its spellings. -/
def isDoubleDot (s : List Char) : Bool :=
  match s with
  | '.' :: r => isSingleDot r
  | '%' :: '2' :: e :: r => (e == 'e' || e == 'E') && isSingleDot r
  | _ => false

/-- A letter and a colon or bar. -/
def isDriveLetter (s : List Char) : Bool :=
  match s with
  | [a, b] => a.isAlpha && (b == ':' || b == '|')
  | _ => false

def isNormalDriveLetter (s : List Char) : Bool :=
  match s with
  | [a, b] => a.isAlpha && b == ':'
  | _ => false

/-- A drive letter, alone or before a backslash. -/
def isDrive (s : List Char) : Bool :=
  isDriveLetter (s.take 2) && (s.drop 2).head?.all (· == '\\')

/-- The segments before the last one, except that a drive stays. -/
def pop (segments : List (List Char)) : List (List Char) :=
  match segments.getLast? with
  | some last => if isDrive last then segments else segments.dropLast
  | none => []

/-! ### Segments as they are written -/

/-- What is left out of a URL wherever it stands, though it may end a drive
letter. -/
def isBreak (c : Char) : Bool := c == '\t' || c == '\n' || c == '\r'

/-- The runs of characters between the breaks of a segment. -/
abbrev Runs := List (List Char)

/-- Whether a character ends a segment. -/
def isSeparator (special : Bool) (c : Char) : Bool := c == '/' || (special && c == '\\')

/-- The text between separators, percent-encoded. -/
def split (special : Bool) (s : List Char) : List Runs :=
  (s.splitOnP (isSeparator special)).map fun segment =>
    (segment.splitOnP isBreak).map (Percent.encode Percent.inPath)

/-- A drive letter that a break ends, and the text after it. -/
def cutDrive (front : List Char) : Runs → Option (List Char × List Char)
  | [] => none
  | run :: rest =>
    if isNormalDriveLetter (front ++ run) && !rest.flatten.isEmpty then
      some (front ++ run, rest.flatten)
    else cutDrive (front ++ run) rest

/-! ### Appending -/

/-- Whether a segment is the drive letter that a `file` path opens with. -/
def opensDrive (file : Bool) (done : List (List Char)) (segment : Runs) : Bool :=
  file && done.isEmpty && isDriveLetter segment.flatten

/-- The segments that a segment which is no dots becomes. -/
def place (file : Bool) (done : List (List Char)) (segment : Runs) : List (List Char) :=
  if opensDrive file done segment then [segment.flatten.take 1 ++ [':']]
  else
    match if file && done.isEmpty then cutDrive [] segment else none with
    | some (drive, rest) => [drive, rest]
    | none => [segment.flatten]

/-- The segments after one that a slash ends. -/
def step (file : Bool) (done : List (List Char)) (segment : Runs) : List (List Char) :=
  if isDoubleDot segment.flatten then pop done
  else if isSingleDot segment.flatten then done
  else done ++ place file done segment

/-- The segments after the last one. -/
def finish (file : Bool) (done : List (List Char)) (segment : Runs) : List (List Char) :=
  if isDoubleDot segment.flatten || isSingleDot segment.flatten then
    step file done segment ++ [[]]
  else step file done segment

/-- Appends segments to those that are done. -/
def append (file : Bool) (done : List (List Char)) : List Runs → List (List Char)
  | [] => done
  | [last] => finish file done last
  | segment :: next :: rest => append file (step file done segment) (next :: rest)

/-- Whether the path that comes of it has a drive letter in the place of a host. -/
def namesDrive (done : List (List Char)) : List Runs → Bool
  | [] => false
  | segment :: rest => opensDrive true done segment || namesDrive (step true done segment) rest

/-- A `file` path starts with no empty segment unless that is all of it. -/
def trimLeading : List (List Char) → List (List Char)
  | [] :: second :: rest => trimLeading (second :: rest)
  | segments => segments

/-- The path that a text without its leading slash gives after the segments
`done`. -/
def resolve (scheme : List Char) (done : List (List Char)) (s : List Char) : List (List Char) :=
  let segments := append (isFileScheme scheme) done (split (isSpecialScheme scheme) s)
  if isFileScheme scheme then trimLeading segments else segments

/-- The `file` path that a text gives after the segments `done` and a drive letter
that ends a longer path. The first segment of the text continues the drive letter. -/
def resolveAfterDrive (done : List (List Char)) (drive : List Char) (s : List Char) :
    List (List Char) :=
  trimLeading <|
    match split true s with
    | [] => done ++ [drive]
    | [last] =>
      if isDoubleDot last.flatten then done ++ [drive]
      else if isSingleDot last.flatten then done ++ [drive, []]
      else done ++ [drive ++ last.flatten]
    | first :: next :: rest =>
      let segment :=
        if isDoubleDot first.flatten || isSingleDot first.flatten then drive
        else drive ++ first.flatten
      append true (done ++ [segment]) (next :: rest)

end ClusterConsole.Segments
