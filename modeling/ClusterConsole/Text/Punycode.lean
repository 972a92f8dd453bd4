/-! Punycode: any text in letters, digits and hyphens. Its ASCII characters come first, up to
the last hyphen. Each number after it adds a character: it says how many places the insertion
moves on, where going past the end of the text goes back to its start and on to the next code
point. -/

namespace ClusterConsole.Punycode

/-- Letters are the digits up to 25, in either case, and decimal digits the ten after them. -/
def digit? (c : Char) : Option Nat :=
  if c.isLower then some (c.toNat - 97)
  else if c.isUpper then some (c.toNat - 65)
  else if c.isDigit then some (c.toNat - 22)
  else none

/-- A digit below the threshold of its place is the last of its number. -/
def threshold (place bias : Nat) : Nat := max 1 (min 26 (place - bias))

/-- Weights and sums stay below this bound. -/
def bound : Nat := 4294967296

/-- The number that a text starts with, its least digit first, and the rest. -/
def number? (bias place weight : Nat) : List Char → Option (Nat × List Char)
  | [] => none
  | c :: r =>
    if bound ≤ weight then none
    else
      match digit? c with
      | none => none
      | some d =>
        let t := threshold place bias
        if d < t then some (d * weight, r)
        else (number? bias (place + 36) (weight * (36 - t)) r).map fun (n, rest) =>
          (d * weight + n, rest)

theorem number?_length {bias place weight : Nat} {s rest : List Char} {n : Nat}
    (h : number? bias place weight s = some (n, rest)) : rest.length < s.length := by
  induction s generalizing place weight n with
  | nil => simp [number?] at h
  | cons c r ih =>
    simp only [number?] at h
    split at h
    · simp at h
    · split at h
      · simp at h
      · split at h
        · simp_all
        · obtain ⟨⟨m, rest'⟩, hm, heq⟩ := Option.map_eq_some_iff.1 h
          obtain rfl : rest' = rest := by simpa using congrArg Prod.snd heq
          exact Nat.lt_succ_of_lt (ih hm)

def shrink (delta place : Nat) : Nat × Nat :=
  if 455 < delta then shrink (delta / 35) (place + 36) else (delta, place)
termination_by delta
decreasing_by exact Nat.div_lt_self (by omega) (by omega)

/-- The bias after a number: how long the next one is expected to be. -/
def adapt (delta count : Nat) (isFirst : Bool) : Nat :=
  let halved := if isFirst then delta / 700 else delta / 2
  let (rest, place) := shrink (halved + halved / count) 0
  place + 36 * rest / (rest + 38)

/-- Inserts the characters of the numbers that are left. -/
def insertAll (bias code place : Nat) (text s : List Char) : Option (List Char) :=
  match s with
  | [] => some text
  | c :: r =>
    match _h : number? bias 36 1 (c :: r) with
    | none => none
    | some (delta, rest) =>
      let count := text.length + 1
      let code' := code + (place + delta) / count
      let place' := (place + delta) % count
      if bound ≤ place + delta || !decide code'.isValidChar then none
      else
        insertAll (adapt delta count (place == 0)) code' (place' + 1)
          (text.insertIdx place' (.ofNat code')) rest
termination_by s.length
decreasing_by exact number?_length _h

/-- The text before the last hyphen, and what follows it. A hyphen with nothing before it is
no end of a text. -/
def split (s : List Char) : List Char × List Char :=
  let numbers := (s.reverse.takeWhile (· != '-')).reverse
  match s.take (s.length - (numbers.length + 1)) with
  | [] => ([], s)
  | text => (text, numbers)

def decode? (s : List Char) : Option (List Char) :=
  let (text, numbers) := split s
  insertAll 72 128 0 text numbers

end ClusterConsole.Punycode
