import ClusterConsole.Text.Punycode
import ClusterConsole.Unicode.Composition
import ClusterConsole.Unicode.Direction
import ClusterConsole.Unicode.HostCharacter
import ClusterConsole.Unicode.Joining

/-! The labels of a host's name. A label that starts with `xn--` is the Punycode form of one
beyond ASCII, and what it stands for has to be a label that would be written so. -/

namespace ClusterConsole.Host

/-- What no name of a special scheme's host may hold after decoding. -/
def isForbiddenInName (c : Char) : Bool :=
  c ≤ ' ' || c == '\x7f' || c == '%' || c == '#' || c == '/' || c == ':' || c == '<' ||
    c == '>' || c == '?' || c == '@' || c == '[' || c == '\\' || c == ']' || c == '^' || c == '|'

/-! ### Joiners -/

/-- Between letters that join to it over transparent ones. `before` is what stands before the
place, the nearest first. -/
def joinsAcross (before after : List Char) : Bool :=
  let nearest (s : List Char) := s.find? (Unicode.joining · != .transparent)
  (nearest before).any Unicode.joinsNext && (nearest after).any Unicode.joinsPrevious

/-- A joiner stands after a virama, and a non-joiner also where letters would join. `before`
is the text before, reversed. -/
def joinersFit (before : List Char) : List Char → Bool
  | [] => true
  | c :: r =>
    let fits :=
      if c = '\u200c' then before.head?.any Unicode.isVirama || joinsAcross before r
      else if c = '\u200d' then before.head?.any Unicode.isVirama
      else true
    fits && joinersFit (c :: before) r

/-! ### Directions -/

open Unicode (Direction direction)

def isRightToLeft (c : Char) : Bool :=
  direction c == .rightToLeft || direction c == .arabicNumber

/-- A label next to one that is written from right to left: it keeps to the direction of its
first character, and ends in a letter or number of it. -/
def hasOneDirection (label : List Char) : Bool :=
  let directions := label.map direction
  let last? := (directions.reverse.dropWhile (· == .mark)).head?
  match directions with
  | [] => true
  | .leftToRight :: rest =>
    rest.all (fun d => d != .rightToLeft && d != .arabicNumber) &&
      last?.any (fun d => d == .leftToRight || d == .europeanNumber)
  | .rightToLeft :: rest =>
    rest.all (· != .leftToRight) &&
      last?.any (fun d => d == .rightToLeft || d == .europeanNumber || d == .arabicNumber) &&
      !(rest.contains .europeanNumber && rest.contains .arabicNumber)
  | _ => false

/-! ### Labels -/

def punycodeMark : List Char := ['x', 'n', '-', '-']

/-- Whether a label can be written in Punycode: it holds only characters of hosts, is composed,
starts with no mark, and its joiners have letters to join or to keep apart. -/
def isEncodable (label : List Char) : Bool :=
  label.all (fun c => if c.toNat < 128 then !isForbiddenInName c else Unicode.isHostCharacter c) &&
    Unicode.isNormal label && !label.head?.any Unicode.isMark && joinersFit [] label

/-- What a label of a name in lower case stands for. -/
def decodeLabel? (label : List Char) : Option (List Char) :=
  if punycodeMark.isPrefixOf label then
    let code := label.drop punycodeMark.length
    if 2000 < code.length || code.isEmpty || code.getLast? = some '-' then none
    else (Punycode.decode? code).filter isEncodable
  else some label

/-- Whether a name in lower case is one of a host. -/
def isName (labels : List (List Char)) : Bool :=
  match labels.mapM decodeLabel? with
  | none => false
  | some decoded => !decoded.any (·.any isRightToLeft) || decoded.all hasOneDirection

end ClusterConsole.Host
