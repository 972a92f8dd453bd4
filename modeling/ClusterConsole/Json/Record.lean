import ClusterConsole.Json.Value

/-! Reading values of a given shape: a string, a value that may be absent, a record
by its members or by its items in order. What is of another shape is a mismatch,
reported at the place where the other shape shows. -/

namespace ClusterConsole.Json

/-- The error of a value that is not of the shape asked for. Up to its first
token it still has to be JSON. -/
def mismatchAt (s : Text) : Error :=
  match skipBlanks s with
  | [] => .truncated
  | none :: _ => .malformed
  | some c :: r =>
    let after : Except Error Unit :=
      if c = 'n' then (readWord "ull".toList r).map fun _ => ()
      else if c = 't' then (readWord "rue".toList r).map fun _ => ()
      else if c = 'f' then (readWord "alse".toList r).map fun _ => ()
      else if c = '-' then (Number.read true r).map fun _ => ()
      else if c.isDigit then (Number.read false (some c :: r)).map fun _ => ()
      else if c = '"' then (readString r).map fun _ => ()
      else if c = '[' ∨ c = '\x7b' then .ok ()
      else .error .malformed
    match after with
    | .ok () => .mismatch
    | .error e => e

def readText (s : Text) : Read String :=
  match skipBlanks s with
  | some '"' :: r => readString r
  | _ => .error (mismatchAt s)

/-- A value that `null` leaves absent. -/
def readOptional {α : Type} (reader : Text → Read α) (s : Text) : Read (Option α) :=
  match skipBlanks s with
  | some 'n' :: r => (readWord "ull".toList r).map (none, ·)
  | _ => (reader s).map fun (a, r) => (some a, r)

/-! ### Records by members -/

/-- Members up to the closing brace. Each is handed to `member` with the text after
its name, and what was read before. -/
def readMembersWith {σ : Type} (member : String → σ → Text → Read σ) : Nat → σ → Text → Read σ
  | 0, _, _ => .error .truncated
  | fuel + 1, state, s =>
    match skipBlanks s with
    | [] => .error .truncated
    | some '"' :: r =>
      match readString r with
      | .error e => .error e
      | .ok (name, r) =>
        match member name state r with
        | .error e => .error e
        | .ok (state, r) =>
          match skipBlanks r with
          | [] => .error .truncated
          | some '\x7d' :: r => .ok (state, r)
          | some ',' :: r => readMembersWith member fuel state r
          | _ => .error .malformed
    | _ => .error .malformed

/-- The members of an object from after its opening brace. -/
def readRecord {σ : Type} (member : String → σ → Text → Read σ) (start : σ) (s : Text) : Read σ :=
  match skipBlanks s with
  | some '\x7d' :: r => .ok (start, r)
  | r => readMembersWith member (r.length + 1) start r

/-- The value of a member, from after its name. -/
def readMember {α : Type} (reader : Text → Read α) (s : Text) : Read α :=
  match readColon s with
  | .error e => .error e
  | .ok r => reader r

/-- Skips the value of a member, from after its name. -/
def skipMember (s : Text) : Except Error Text :=
  match readColon s with
  | .error e => .error e
  | .ok r => skipValue r

/-! ### Records by items -/

/-- Where the next item starts, if the array has one. -/
def nextItem? (first : Bool) (s : Text) : Except Error (Option Text) :=
  match skipBlanks s with
  | [] => .error .truncated
  | some ']' :: _ => .ok none
  | r =>
    if first then .ok (some r)
    else
      match r with
      | some ',' :: r =>
        match skipBlanks r with
        | [] => .error .truncated
        | some ']' :: _ => .error .malformed
        | r => .ok (some r)
      | _ => .error .malformed

/-- The next item, or `none` where the array has no more. -/
def readItem {α : Type} (first : Bool) (reader : Text → Read α) (s : Text) : Read (Option α) :=
  match nextItem? first s with
  | .error e => .error e
  | .ok none => .ok (none, s)
  | .ok (some r) => (reader r).map fun (a, r) => (some a, r)

/-- The text after the bracket that closes an array; another item is too many. -/
def closeItems (s : Text) : Except Error Text :=
  match skipBlanks s with
  | [] => .error .truncated
  | some ']' :: r => .ok r
  | _ => .error .malformed

end ClusterConsole.Json
