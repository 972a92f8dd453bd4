import ClusterConsole.Json.Number

/-! JSON values, and reading one. A value that is kept may be nested up to a limit;
one that is only skipped may be nested without limit. -/

namespace ClusterConsole

/-- A JSON value. The members of an object are in the order of the document,
repeated names included. -/
inductive Json where
  | null
  | bool (value : Bool)
  | number (value : Json.Number)
  | string (value : String)
  | array (items : List Json)
  | object (members : List (String × Json))
  deriving Inhabited

namespace Json

/-! ### One order of members -/

/-- Puts a member into members that are sorted by name; of two with one name the
later one stays. -/
def insertMember (name : String) (value : Json) : List (String × Json) → List (String × Json)
  | [] => [(name, value)]
  | (n, v) :: rest =>
    if name < n then (name, value) :: (n, v) :: rest
    else if n < name then (n, v) :: insertMember name value rest
    else (name, value) :: rest

def sortMembers (members : List (String × Json)) : List (String × Json) :=
  members.foldl (fun sorted m => insertMember m.1 m.2 sorted) []

mutual

/-- The value with the members of each of its objects sorted by name, each name
once. -/
def canonical : Json → Json
  | .array items => .array (canonicalItems items)
  | .object members => .object (sortMembers (canonicalMembers members))
  | v => v

def canonicalItems : List Json → List Json
  | [] => []
  | v :: vs => canonical v :: canonicalItems vs

def canonicalMembers : List (String × Json) → List (String × Json)
  | [] => []
  | (n, v) :: ms => (n, canonical v) :: canonicalMembers ms

end

/-! ### Values that are kept -/

/-- The number of levels of arrays and objects that a document may have. -/
def maxLevels : Nat := 127

mutual

/-- A value of at most `levels` levels. Every character takes at most two of the `fuel`:
one for a value, and one for the item or member that the value is. -/
def readValue : Nat → Nat → Text → Read Json
  | 0, _, _ => .error .truncated
  | fuel + 1, levels, s =>
    match skipBlanks s with
    | [] => .error .truncated
    | none :: _ => .error .malformed
    | some c :: r =>
      if c = 'n' then (readWord "ull".toList r).map (.null, ·)
      else if c = 't' then (readWord "rue".toList r).map (.bool true, ·)
      else if c = 'f' then (readWord "alse".toList r).map (.bool false, ·)
      else if c = '-' then (Number.read true r).map fun (n, r) => (.number n, r)
      else if c.isDigit then (Number.read false (some c :: r)).map fun (n, r) => (.number n, r)
      else if c = '"' then (readString r).map fun (t, r) => (.string t, r)
      else if c = '[' then
        match levels with
        | 0 => .error .malformed
        | levels + 1 =>
          match skipBlanks r with
          | some ']' :: r => .ok (.array [], r)
          | r => (readItems fuel levels r).map fun (items, r) => (.array items, r)
      else if c = '\x7b' then
        match levels with
        | 0 => .error .malformed
        | levels + 1 =>
          match skipBlanks r with
          | some '\x7d' :: r => .ok (.object [], r)
          | r => (readMembers fuel levels r).map fun (members, r) => (.object members, r)
      else .error .malformed

/-- At least one item, and the bracket that closes the array. -/
def readItems : Nat → Nat → Text → Read (List Json)
  | 0, _, _ => .error .truncated
  | fuel + 1, levels, s =>
    match readValue fuel levels s with
    | .error e => .error e
    | .ok (v, r) =>
      match skipBlanks r with
      | [] => .error .truncated
      | some ']' :: r => .ok ([v], r)
      | some ',' :: r => (readItems fuel levels r).map fun (vs, r) => (v :: vs, r)
      | _ => .error .malformed

/-- At least one member, and the brace that closes the object. -/
def readMembers : Nat → Nat → Text → Read (List (String × Json))
  | 0, _, _ => .error .truncated
  | fuel + 1, levels, s =>
    match skipBlanks s with
    | [] => .error .truncated
    | some '"' :: r =>
      match readString r with
      | .error e => .error e
      | .ok (name, r) =>
        match readColon r with
        | .error e => .error e
        | .ok r =>
          match readValue fuel levels r with
          | .error e => .error e
          | .ok (v, r) =>
            match skipBlanks r with
            | [] => .error .truncated
            | some '\x7d' :: r => .ok ([(name, v)], r)
            | some ',' :: r => (readMembers fuel levels r).map fun (ms, r) => ((name, v) :: ms, r)
            | _ => .error .malformed
    | _ => .error .malformed

end

/-- The fuel that is enough for a text. -/
def enough (s : Text) : Nat := 2 * s.length + 2

/-- A value inside `outer` levels. -/
def read (outer : Nat) (s : Text) : Read Json := readValue (enough s) (maxLevels - outer) s

/-! ### Values that are not kept -/

mutual

def skipValueWith : Nat → Text → Except Error Text
  | 0, _ => .error .truncated
  | fuel + 1, s =>
    match skipBlanks s with
    | [] => .error .truncated
    | none :: _ => .error .malformed
    | some c :: r =>
      if c = 'n' then readWord "ull".toList r
      else if c = 't' then readWord "rue".toList r
      else if c = 'f' then readWord "alse".toList r
      else if c = '-' then Number.skip r
      else if c.isDigit then Number.skip (some c :: r)
      else if c = '"' then skipString r
      else if c = '[' then
        match skipBlanks r with
        | some ']' :: r => .ok r
        | r => skipItems fuel r
      else if c = '\x7b' then
        match skipBlanks r with
        | some '\x7d' :: r => .ok r
        | r => skipMembers fuel r
      else .error .malformed

def skipItems : Nat → Text → Except Error Text
  | 0, _ => .error .truncated
  | fuel + 1, s =>
    match skipValueWith fuel s with
    | .error e => .error e
    | .ok r =>
      match skipBlanks r with
      | [] => .error .truncated
      | some ']' :: r => .ok r
      | some ',' :: r => skipItems fuel r
      | _ => .error .malformed

def skipMembers : Nat → Text → Except Error Text
  | 0, _ => .error .truncated
  | fuel + 1, s =>
    match skipBlanks s with
    | [] => .error .truncated
    | some '"' :: r =>
      match skipString r with
      | .error e => .error e
      | .ok r =>
        match readColon r with
        | .error e => .error e
        | .ok r =>
          match skipValueWith fuel r with
          | .error e => .error e
          | .ok r =>
            match skipBlanks r with
            | [] => .error .truncated
            | some '\x7d' :: r => .ok r
            | some ',' :: r => skipMembers fuel r
            | _ => .error .malformed
    | _ => .error .malformed

end

/-- The text after a value. -/
def skipValue (s : Text) : Except Error Text := skipValueWith (enough s) s

end Json

end ClusterConsole
