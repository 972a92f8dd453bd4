/-! Text as a terminal may show it. Sequences that steer a terminal are taken out, and so are
control characters that are no white space. A sequence starts with an escape character; how far
it goes depends on what follows. -/

namespace ClusterConsole.Terminal

/-- The part of a sequence that a text has reached. -/
inductive Sequence where
  | none
  | escape
  /-- An escape with a character before its final one. -/
  | intermediate
  /-- Parameters up to a final letter. -/
  | control
  /-- Text for the terminal's own system, up to a bell. -/
  | system
  | device
  | deviceParameters
  | deviceIntermediate
  /-- Text up to the string terminator. -/
  | string
  deriving DecidableEq, Repr, Inhabited

/-- The byte that ends a string. -/
def terminator : UInt8 := 0x9c

def isBetween (low high c : Char) : Bool := low ≤ c && c ≤ high

/-- The part that is reached with a character that is not shown. -/
def Sequence.next (q : Sequence) (c : Char) : Sequence :=
  if c = '\x1b' then escape
  else if c = '\x18' ∨ c = '\x1a' then none
  else
    match q with
    | none => none
    | escape =>
      if isBetween ' ' '/' c then intermediate
      else if c = '[' then control
      else if c = ']' then system
      else if c = 'P' then device
      else if c = 'X' ∨ c = '^' ∨ c = '_' then string
      else if isBetween '0' '~' c then none
      else escape
    | intermediate => if isBetween '0' '~' c then none else intermediate
    | control => if isBetween '@' '~' c then none else control
    | system => if c = '\x07' then none else system
    | device =>
      if isBetween ' ' '/' c then deviceIntermediate
      else if c = ':' ∨ isBetween '@' '~' c then string
      else if isBetween '0' '?' c then deviceParameters
      else device
    | deviceParameters =>
      if isBetween ' ' '/' c then deviceIntermediate
      else if c = ':' ∨ isBetween '<' '~' c then string
      else deviceParameters
    | deviceIntermediate => if isBetween '0' '~' c then string else deviceIntermediate
    | string => if (String.utf8EncodeChar c).contains terminator then none else string

def isWhite (c : Char) : Bool := c == '\t' || c == '\n' || c == '\x0c' || c == '\r'

def isGraphic (c : Char) : Bool := ' ' ≤ c && c != '\x7f'

/-- Whether a character is shown that a sequence comes to. White space does not belong to the
sequences that have no text of their own. -/
def Sequence.shows (q : Sequence) (c : Char) : Bool :=
  match q with
  | none => isGraphic c || isWhite c
  | escape | intermediate | control => isWhite c
  | _ => false

/-- What is shown of a text. Where white space has broken into a sequence, the text after it is
shown as well, and the sequence goes on with the next control character unless a character
beyond ASCII has ended it. -/
def visible (isShown : Bool) (q : Sequence) : List Char → List Char
  | [] => []
  | c :: r =>
    if (isShown && (isGraphic c || isWhite c)) || q.shows c then
      c :: visible true (if c.toNat < 128 then q else .none) r
    else visible false (q.next c) r

/-- A text without what steers a terminal. -/
def plain (text : String) : String := String.ofList (visible false .none text.toList)

end ClusterConsole.Terminal
