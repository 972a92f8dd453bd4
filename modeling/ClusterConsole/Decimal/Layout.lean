import ClusterConsole.Decimal.Shortest

/-! How a decimal is laid out: with a point among its digits, or with one digit
before the point and an exponent. -/

namespace ClusterConsole.Decimal

/-- The exponents of the first digit for which the point stands among the
digits. -/
structure Layout where
  least : Int
  greatest : Int

def zeros (n : Nat) : List Char := List.replicate n '0'

/-- A whole number keeps one zero after its point. -/
def positional (digits : List Char) (exponent : Int) : List Char :=
  let first := digits.length + exponent - 1
  if 0 ≤ exponent then digits ++ zeros exponent.toNat ++ ".0".toList
  else if 0 ≤ first then
    digits.take (first.toNat + 1) ++ '.' :: digits.drop (first.toNat + 1)
  else "0.".toList ++ zeros (-first - 1).toNat ++ digits

/-- The exponent always has a sign. -/
def scientific (digits : List Char) (exponent : Int) : List Char :=
  let first := digits.length + exponent - 1
  let point := if digits.length = 1 then [] else ['.']
  let sign := if first < 0 then '-' else '+'
  digits.take 1 ++ point ++ digits.drop 1 ++ 'e' :: sign :: Nat.toDigits 10 first.natAbs

def Layout.place (n : Layout) (x : Digits) : List Char :=
  let digits := Nat.toDigits 10 x.digits
  let first := digits.length + x.exponent - 1
  if n.least ≤ first ∧ first ≤ n.greatest then positional digits x.exponent
  else scientific digits x.exponent

/-- The text of a finite number. Zero keeps its sign. -/
def Layout.render (n : Layout) (x : Float) : List Char :=
  let bits := x.toBits
  let sign := if Nat.pow 2 63 ≤ bits.toNat then ['-'] else []
  let b := Binary.ofBits bits
  if b.mantissa = 0 then sign ++ "0.0".toList
  else sign ++ n.place (Digits.strip 20 b.shortest)

end ClusterConsole.Decimal
