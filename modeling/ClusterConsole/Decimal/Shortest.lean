/-! The shortest decimal of a binary floating-point number: of all decimals that
are read back as the number, one with the fewest digits, and of those the nearest
to it. The search is in exact arithmetic on natural numbers. -/

namespace ClusterConsole.Decimal

/-- `mantissa · 2 ^ exponent`, and whether the gap to the number below is half of
the gap to the number above. -/
structure Binary where
  mantissa : Nat
  exponent : Int
  narrowBelow : Bool
  deriving DecidableEq, Repr

/-- The magnitude of a finite number from its 64 bits. -/
def Binary.ofBits (bits : UInt64) : Binary :=
  let fraction : Nat := bits.toNat % Nat.pow 2 52
  let biased : Nat := bits.toNat / Nat.pow 2 52 % Nat.pow 2 11
  if biased = 0 then ⟨fraction, -1074, false⟩
  else ⟨fraction + Nat.pow 2 52, (biased : Int) - 1075, fraction = 0 && 1 < biased⟩

/-- `digits · 10 ^ exponent`. -/
structure Digits where
  digits : Nat
  exponent : Int
  deriving DecidableEq, Repr

namespace Binary

/-- Two natural numbers in the ratio of `2 ^ (exponent - 2)` to `10 ^ k`: a
quarter of the last binary place against a decimal unit. -/
def ratio (b : Binary) (k : Int) : Nat × Nat :=
  let shift := b.exponent - 2
  (Nat.pow 2 shift.toNat * Nat.pow 10 (-k).toNat,
    Nat.pow 10 k.toNat * Nat.pow 2 (-shift).toNat)

/-- Whether `d · 10 ^ k` is read back as the number: it lies between the
midpoints to both neighbours, and may be one of them where the mantissa is
even. -/
def readsBack (b : Binary) (k : Int) (d : Nat) : Bool :=
  let (quarter, unit) := b.ratio k
  let low := (4 * b.mantissa - (if b.narrowBelow then 1 else 2)) * quarter
  let high := (4 * b.mantissa + 2) * quarter
  let x := d * unit
  if b.mantissa % 2 = 0 then low ≤ x && x ≤ high else low < x && x < high

/-- The largest multiple of `10 ^ k` that is not above the number. -/
def below (b : Binary) (k : Int) : Nat :=
  let (quarter, unit) := b.ratio k
  4 * b.mantissa * quarter / unit

/-- Whether the multiple above is nearer to the number than the one below; of two
equally near ones, the even one is taken. -/
def upIsNearer (b : Binary) (k : Int) : Bool :=
  let (quarter, unit) := b.ratio k
  let d := b.below k
  let twice := 2 * (4 * b.mantissa * quarter)
  let middle := (2 * d + 1) * unit
  middle < twice || (middle = twice && d % 2 = 1)

/-- A decimal on the grid of `10 ^ k` that is read back as the number, if there
is one. -/
def onGrid? (b : Binary) (k : Int) : Option Digits :=
  let d := b.below k
  match b.readsBack k d, b.readsBack k (d + 1) with
  | true, true => some ⟨if b.upIsNearer k then d + 1 else d, k⟩
  | true, false => some ⟨d, k⟩
  | false, true => some ⟨d + 1, k⟩
  | false, false => none

/-- The least `p` with the number below `10 ^ p`, from an estimate that is at most
two too small. -/
def magnitude (b : Binary) : Int :=
  let estimate := ((b.mantissa.log2 : Int) + b.exponent) * 1233 / 4096 - 1
  let fits (p : Int) : Bool := b.below p = 0
  if fits estimate then estimate
  else if fits (estimate + 1) then estimate + 1
  else if fits (estimate + 2) then estimate + 2
  else estimate + 3

/-- Seventeen digits are always enough. -/
def shortest (b : Binary) : Digits :=
  let p := b.magnitude
  ((List.range 17).findSome? fun (n : Nat) => b.onGrid? (p - (n + 1 : Int))).getD
    ⟨b.below (p - 17), p - 17⟩

end Binary

/-- The same number without zeros at the end of its digits. -/
def Digits.strip : Nat → Digits → Digits
  | 0, x => x
  | fuel + 1, x =>
    if x.digits ≠ 0 ∧ x.digits % 10 = 0 then strip fuel ⟨x.digits / 10, x.exponent + 1⟩ else x

end ClusterConsole.Decimal
