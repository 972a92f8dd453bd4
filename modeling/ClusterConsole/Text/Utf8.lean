/-! Bytes as characters. A byte that belongs to no UTF-8 character is a gap, and
reading goes on after it, so a text may be judged part by part. -/

namespace ClusterConsole.Utf8

/-- The six low bits of a byte that continues a character. -/
def tailBits? (b : UInt8) : Option Nat :=
  if 0x80 ≤ b && b < 0xC0 then some (b.toNat - 0x80) else none

/-- The low bits of several continuing bytes, most significant first. -/
def tail? : List UInt8 → Option Nat
  | [] => some 0
  | bytes => bytes.foldl (fun acc b => do return 64 * (← acc) + (← tailBits? b)) (some 0)

/-- How many bytes follow a first byte, and the bits that it holds itself. -/
def lead? (b : UInt8) : Option (Nat × Nat) :=
  if b < 0x80 then some (0, b.toNat)
  else if 0xC2 ≤ b && b < 0xE0 then some (1, b.toNat - 0xC0)
  else if 0xE0 ≤ b && b < 0xF0 then some (2, b.toNat - 0xE0)
  else if 0xF0 ≤ b && b < 0xF5 then some (3, b.toNat - 0xF0)
  else none

/-- The least code point that needs so many bytes after the first. -/
def leastWith (n : Nat) : Nat :=
  match n with
  | 0 => 0
  | 1 => 0x80
  | 2 => 0x800
  | _ => 0x10000

/-- The character that a first byte and the bytes after it start with, and how
many of those it takes. -/
def first? (b : UInt8) (rest : List UInt8) : Option (Char × Nat) := do
  let (n, high) ← lead? b
  if rest.length < n then none
  let low ← tail? (rest.take n)
  let code := high * Nat.pow 64 n + low
  if code < leastWith n || !code.isValidChar then none
  return (Char.ofNat code, n)

/-- The characters of a byte sequence, `none` for a byte outside all of them. -/
def decode (bytes : List UInt8) : List (Option Char) :=
  match bytes with
  | [] => []
  | b :: rest =>
    match first? b rest with
    | some (c, n) => some c :: decode (rest.drop n)
    | none => none :: decode rest
termination_by bytes.length
decreasing_by all_goals simp only [List.length_cons, List.length_drop]; omega

/-- The text of a byte sequence without gaps. -/
def text? (bytes : List UInt8) : Option String :=
  ((decode bytes).mapM id).map String.ofList

end ClusterConsole.Utf8
