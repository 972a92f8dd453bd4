import ClusterConsole.Toml.Moment
import ClusterConsole.Toml.Scalar

/-! A TOML document: values, keys, and the lines that build up its tables. -/

namespace ClusterConsole.Toml

/-! ### Keys -/

/-- What a key may hold without quotes. -/
def isBare (c : Char) : Bool := c.isAlphanum || c == '-' || c == '_'

def readName (s : List Char) : Read String :=
  match s with
  | '"' :: r => (readBasic r).map fun (t, r) => (String.ofList t, r)
  | '\x27' :: r => (readLiteral r).map fun (t, r) => (String.ofList t, r)
  | s =>
    let name := s.takeWhile isBare
    if name.isEmpty then none else some (String.ofList name, s.dropWhile isBare)

/-- At least one name, and at most `limit`, with points between them. -/
def readNames (limit : Nat) (s : List Char) : Read Key :=
  match limit with
  | 0 => none
  | limit + 1 =>
    match readName (skipBlanks s) with
    | none => none
    | some (name, r) =>
      match skipBlanks r with
      | '.' :: r => (readNames limit r).map fun (k, r) => ({ k with path := name :: k.path }, r)
      | r => some (⟨[], name⟩, r)

/-- How many names a key may have, and how deep a value may be nested. -/
def maxDepth : Nat := 79

def readKey (s : List Char) : Read Key := readNames maxDepth s

/-! ### Values -/

mutual

/-- A value of at most `levels` levels. Every character takes at most two of the `fuel`:
one for a value, and one for the item or pair that the value is. -/
def readValueWith : Nat → Nat → List Char → Read Value
  | 0, _, _ => none
  | fuel + 1, levels, s =>
    match s, levels with
    | '[' :: _, 0 => none
    | '\x7b' :: _, 0 => none
    | '[' :: r, levels + 1 => (readItems fuel levels r).map fun (items, r) => (.array items, r)
    | '\x7b' :: r, levels + 1 =>
      match skipBlanks r with
      | '\x7d' :: r => some (.table .inline [], r)
      | r => (readPairs fuel levels [] r).map fun (entries, r) => (.table .inline entries, r)
    | s, _ => readScalar s

/-- The items of an array up to its bracket. A comma may follow the last one. -/
def readItems : Nat → Nat → List Char → Read (List Value)
  | 0, _, _ => none
  | fuel + 1, levels, s =>
    match skipSpace false s with
    | ']' :: r => some ([], r)
    | s =>
      match readValueWith fuel levels s with
      | none => none
      | some (v, r) =>
        match skipSpace false r with
        | ']' :: r => some ([v], r)
        | ',' :: r => (readItems fuel levels r).map fun (vs, r) => (v :: vs, r)
        | _ => none

/-- At least one pair of an inline table, up to its brace, added to the entries before
it. -/
def readPairs : Nat → Nat → Entries → List Char → Read Entries
  | 0, _, _, _ => none
  | fuel + 1, levels, entries, s =>
    match readKey s with
    | some (k, '=' :: r) =>
      match readValueWith fuel levels (skipBlanks r) with
      | none => none
      | some (v, r) =>
        match entries.put v k.name k.path with
        | none => none
        | some entries =>
          match skipBlanks r with
          | '\x7d' :: r => some (entries, r)
          | ',' :: r => readPairs fuel levels entries r
          | _ => none
    | _ => none

end

def readValue (s : List Char) : Read Value := readValueWith (2 * s.length + 2) maxDepth s

/-! ### Lines -/

/-- What was built up so far, and the table that keys are put into. -/
structure Document where
  root : Entries := []
  current : List String := []
  deriving Inhabited

/-- A header, from after its first bracket. -/
def readHeader (d : Document) (s : List Char) : Read Document :=
  match s with
  | '[' :: r =>
    match readKey r with
    | some (k, ']' :: ']' :: r) => (d.root.openElement k).map fun root => (⟨root, k.names⟩, r)
    | _ => none
  | r =>
    match readKey r with
    | some (k, ']' :: r) => (d.root.openTable k).map fun root => (⟨root, k.names⟩, r)
    | _ => none

/-- A key and its value. -/
def readEntry (d : Document) (s : List Char) : Read Document :=
  match readKey s with
  | some (k, '=' :: r) =>
    match readValue (skipBlanks r) with
    | none => none
    | some (v, r) =>
      (d.root.within (·.put v k.name k.path) d.current).map fun root => ({ d with root }, r)
  | _ => none

/-- What a line adds, up to what may end it. -/
def readLine (d : Document) (s : List Char) : Read Document :=
  match skipBlanks s with
  | [] => some (d, [])
  | '[' :: r => readHeader d r
  | c :: r => if c = '#' ∨ c = '\n' ∨ c = '\r' then some (d, c :: r) else readEntry d (c :: r)

def readLines : Nat → Document → List Char → Option Document
  | 0, _, _ => none
  | fuel + 1, d, s =>
    match readLine d s with
    | none => none
    | some (d, r) =>
      match endLine? r with
      | none => none
      | some [] => some d
      | some r => readLines fuel d r

/-- The entries of a document. A mark of byte order may stand before it. The document itself
stands for no time. -/
def read (text : String) : Option Entries :=
  let s := match text.toList with
    | '\ufeff' :: r => r
    | s => s
  ((readLines (s.length + 1) {} s).map Document.root).filter haveSoundValues

end ClusterConsole.Toml
