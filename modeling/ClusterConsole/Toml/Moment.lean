import ClusterConsole.Toml.Scalar

/-! Tables that stand for a time. Such a table starts with an entry of a name of its own,
whose text has to be a date, a time of day, or both. -/

namespace ClusterConsole.Toml

/-! ### Moments as text -/

/-- The text after a time of day. The hour may be 24, and a point needs digits after it. -/
def readClock (s : List Char) : Option (List Char) := do
  let (_, r) ← readField 2 0 24 s
  let r ← readMark ':' r
  let (_, r) ← readField 2 0 59 r
  let r ← readMark ':' r
  let (_, r) ← readField 2 0 60 r
  match readMark '.' r with
  | none => return r
  | some fraction =>
    if fraction.head?.any Char.isDigit then return fraction.dropWhile Char.isDigit else none

/-- Nothing, or a distance from universal time of at most a day. -/
def isOffset (s : List Char) : Bool :=
  match s with
  | [] => true
  | c :: r =>
    if c = 'Z' ∨ c = 'z' then r.isEmpty
    else if c = '+' ∨ c = '-' then
      let rest := do
        let (hours, r) ← readField 2 0 99 r
        let r ← readMark ':' r
        let (minutes, r) ← readField 2 0 99 r
        if 60 * hours + minutes ≤ 1440 then some r else none
      rest == some []
    else false

/-- Whether a text is a time of day, or a date with what may follow it. -/
def isMoment (s : List Char) : Bool :=
  match s with
  | _ :: _ :: ':' :: _ => readClock s == some []
  | _ =>
    match readDate s with
    | none => false
    | some (c :: r) =>
      if c = 'T' ∨ c = 't' ∨ c = ' ' then (readClock r).any isOffset else isOffset (c :: r)
    | some [] => true

/-! ### Tables -/

/-- The name of the entry that makes a table stand for a time. -/
def momentName : String := "$__toml_private_datetime"

/-- For a table that stands for a time, whether it says one. -/
def saysMoment? : Entries → Option Bool
  | [] => none
  | (name, v) :: _ =>
    if name = momentName then
      match v with
      | .string text => some (isMoment text.toList)
      | _ => some false
    else none

mutual

/-- Whether every table that stands for a time says one. No other entry of such a table
counts. -/
def Value.isSound : Value → Bool
  | .array items => areSound items
  | .table _ entries => (saysMoment? entries).getD (haveSoundValues entries)
  | .tables elements => haveSoundTables elements
  | _ => true

def areSound : List Value → Bool
  | [] => true
  | v :: r => v.isSound && areSound r

def haveSoundValues : List (String × Value) → Bool
  | [] => true
  | (_, v) :: r => v.isSound && haveSoundValues r

def haveSoundTables : List (List (String × Value)) → Bool
  | [] => true
  | entries :: r => (saysMoment? entries).getD (haveSoundValues entries) && haveSoundTables r

end

end ClusterConsole.Toml
