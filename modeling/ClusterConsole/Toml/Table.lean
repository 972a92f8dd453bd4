/-! TOML values and the tables that a document builds up. A table is filled where it is
opened and cannot be opened twice; a table that came up only on the way to another one
can still be opened by a header, and one that dotted keys made can be filled by dotted
keys only. -/

namespace ClusterConsole.Toml

/-- What brought a table up. -/
inductive TableKind where
  /-- A header of its own. -/
  | header
  /-- The header of a table inside it. -/
  | implicit
  /-- A dotted key. -/
  | dotted
  /-- A value in braces, which is complete. -/
  | inline
  deriving DecidableEq, Repr, Inhabited

/-- Floating-point numbers and times are kept as they are written. -/
inductive Value where
  | string (text : String)
  | integer (value : Int)
  | float (text : String)
  | boolean (value : Bool)
  | time (text : String)
  | array (items : List Value)
  | table (kind : TableKind) (entries : List (String × Value))
  /-- The tables that the headers of an array of tables opened. -/
  | tables (elements : List (List (String × Value)))
  deriving Inhabited

/-- The entries of a table; no key stands twice. -/
abbrev Entries := List (String × Value)

/-- A key with the tables on the way to it. -/
structure Key where
  path : List String
  name : String
  deriving DecidableEq, Repr, Inhabited

/-- All names of a key, in order. -/
def Key.names (k : Key) : List String := k.path ++ [k.name]

namespace Entries

def get? (name : String) (entries : Entries) : Option Value := entries.lookup name

/-- Puts a value, made from the one that is there, under a name. -/
def alter (name : String) (f : Option Value → Option Value) : Entries → Option Entries
  | [] => (f none).map fun v => [(name, v)]
  | (n, v) :: rest =>
    if n = name then (f (some v)).map fun v => (n, v) :: rest
    else (alter name f rest).map ((n, v) :: ·)

/-- Changes the last of the tables of an array. -/
def inLast (f : Entries → Option Entries) : List Entries → Option (List Entries)
  | [] => none
  | [e] => (f e).map ([·])
  | e :: rest => (inLast f rest).map (e :: ·)

/-! ### Dotted keys -/

/-- A new entry, which nothing may stand in the way of. -/
def add (value : Value) : Option Value → Option Value
  | none => some value
  | some _ => none

/-- Puts a value under a dotted key. Only a table that dotted keys made may get the
entry; tables without a header of their own may be passed on the way to it. -/
def put (value : Value) (name : String) : List String → Entries → Option Entries
  | [], entries => alter name (add value) entries
  | key :: path, entries =>
    alter key
      (fun
        | none => (put value name path []).map (.table .dotted)
        | some (.table .dotted sub) => (put value name path sub).map (.table .dotted)
        | some (.table .implicit sub) =>
          if path.isEmpty then none else (put value name path sub).map (.table .implicit)
        | some (.tables elements) =>
          if path.isEmpty then none else (inLast (put value name path) elements).map .tables
        | some _ => none)
      entries

/-! ### Headers -/

/-- Passes a table on the way to the one that a header names. -/
def pass (f : Entries → Option Entries) : Option Value → Option Value
  | none => (f []).map (.table .implicit)
  | some (.table .inline _) => none
  | some (.table kind sub) => (f sub).map (.table kind)
  | some (.tables elements) => (inLast f elements).map .tables
  | some _ => none

/-- Changes the table at the end of a path. -/
def within (f : Entries → Option Entries) : List String → Entries → Option Entries
  | [], entries => f entries
  | name :: path, entries => alter name (pass (within f path)) entries

/-- Opens a table. One that came up on the way to another moves to the end. -/
def reopen (name : String) (entries : Entries) : Option Entries :=
  match entries.get? name with
  | none => some (entries ++ [(name, .table .header [])])
  | some (.table .implicit sub) =>
    some (entries.filter (·.1 != name) ++ [(name, .table .header sub)])
  | some _ => none

/-- Opens the table that a header names. -/
def openTable (k : Key) : Entries → Option Entries := within (reopen k.name) k.path

/-- Opens one more table of an array of tables. -/
def openElement (k : Key) : Entries → Option Entries :=
  within
    (alter k.name fun
      | none => some (.tables [[]])
      | some (.tables elements) => some (.tables (elements ++ [[]]))
      | some _ => none)
    k.path

end Entries

end ClusterConsole.Toml
