import ClusterConsole.Text.Percent
import ClusterConsole.Url.Basic
import ClusterConsole.Url.Label

/-! Reading a host. A special scheme's host is an ASCII name, decoded and put into
lower case, or an address where its last part is a number; any other scheme's
host is free text apart from a few characters. In brackets stands an address of
eight groups. -/

namespace ClusterConsole.Host

/-! ### Addresses of four octets -/

/-- The value of a text of digits in a base, if all of them are digits of it. -/
def digitsValue? (base : Nat) (s : List Char) : Option Nat :=
  s.foldl (fun acc c =>
    match acc, Percent.hexValue? c with
    | some n, some d => if d < base then some (base * n + d) else none
    | _, _ => none) (some 0)

/-- One part of an address: hexadecimal after `0x`, octal after `0`, and a bare
`0x` is zero. -/
def addressPart? : List Char → Option Nat
  | [] => none
  | '0' :: 'x' :: r => digitsValue? 16 r
  | '0' :: 'X' :: r => digitsValue? 16 r
  | '0' :: c :: r => digitsValue? 8 (c :: r)
  | s => digitsValue? 10 s

def splitDots (s : List Char) : List (List Char) := s.splitOn '.'

/-- The parts of a name, without the empty one after a final dot. -/
def nameParts (s : List Char) : List (List Char) :=
  let parts := splitDots s
  if parts.getLast? = some [] then parts.dropLast else parts

/-- Whether a name has to be read as an address. -/
def endsInNumber (s : List Char) : Bool :=
  match (splitDots s).reverse with
  | [] => false
  | [[]] => false
  | [] :: last :: _ => isNumber last
  | last :: _ => isNumber last
where
  isNumber (part : List Char) : Bool :=
    (!part.isEmpty && part.all Char.isDigit) || (addressPart? part).isSome

/-- The last part fills the octets that the others leave. -/
def ipv4? (s : List Char) : Except UrlError Host :=
  match (nameParts s).mapM addressPart? with
  | none => .error .ipv4
  | some numbers =>
    match numbers.reverse with
    | [] => .error .ipv4
    | last :: front =>
      if 3 < front.length || front.any (255 < ·) || Nat.pow 256 (4 - front.length) ≤ last then
        .error .ipv4
      else
        let high := front.reverse.zipIdx.foldl (fun acc x => acc + x.1 * Nat.pow 256 (3 - x.2)) 0
        let value := high + last
        .ok (.ipv4 (.ofNat (value / Nat.pow 256 3)) (.ofNat (value / Nat.pow 256 2))
          (.ofNat (value / 256)) (.ofNat value))

/-! ### Addresses of eight groups -/

/-- One decimal octet without a leading zero. -/
def octet? (s : List Char) : Option Nat :=
  match s with
  | [] => none
  | ['0'] => some 0
  | '0' :: _ => none
  | s => (digitsValue? 10 s).filter (· < 256)

/-- Four octets as two groups. -/
def octetGroups? (s : List Char) : Option (List UInt16) :=
  match (splitDots s).mapM octet? with
  | some [a, b, c, d] => some [.ofNat (256 * a + b), .ofNat (256 * c + d)]
  | _ => none

/-- Zero groups at the place of `::`, enough for eight. -/
def fillGroups? (groups : List UInt16) : Option Nat → Option (List UInt16)
  | none => if groups.length = 8 then some groups else none
  | some k =>
    if groups.length < 8 then
      some (groups.take k ++ List.replicate (8 - groups.length) 0 ++ groups.drop k)
    else none

/-- The hexadecimal digits, at most four, that a text starts with. -/
def groupDigits (s : List Char) : List Char :=
  (s.take 4).takeWhile fun c => (Percent.hexValue? c).isSome

/-- Groups from the start of one on. `gap` is the place of `::`, if it was met;
it counts as a group. -/
def readGroups (groups : List UInt16) (gap : Option Nat) (s : List Char) :
    Option (List UInt16) :=
  match s with
  | [] => fillGroups? groups gap
  | c :: r =>
    let count := groups.length + (if gap.isSome then 1 else 0)
    if count = 8 then none
    else if c = ':' then
      if gap.isSome then none else readGroups groups (some groups.length) r
    else
      let digits := groupDigits (c :: r)
      let groups' := groups ++ [.ofNat ((digitsValue? 16 digits).getD 0)]
      match _h : (c :: r).drop digits.length with
      | [] => fillGroups? groups' gap
      | '.' :: _ =>
        if digits.isEmpty || 6 < count then none
        else (octetGroups? (c :: r)).bind fun pair => fillGroups? (groups ++ pair) gap
      | ':' :: next => if next.isEmpty then none else readGroups groups' gap next
      | _ => none
termination_by s.length
decreasing_by
  · simp
  · have := congrArg List.length _h
    simp only [List.length_drop, List.length_cons] at this
    simp only [List.length_cons]
    omega

/-- The address between brackets. A colon at the start has to be the first of
two. -/
def ipv6? (s : List Char) : Except UrlError Host :=
  let groups :=
    match s with
    | ':' :: ':' :: r => readGroups [] (some 0) r
    | ':' :: _ => none
    | [] | [_] => none
    | s => readGroups [] none s
  match groups with
  | some groups => .ok (.ipv6 groups)
  | none => .error .ipv6

/-! ### Names -/

/-- What the free-text host of another scheme may not hold. -/
def isForbiddenInText (c : Char) : Bool :=
  c == '\x00' || c == '\t' || c == '\n' || c == '\r' || c == ' ' || c == '#' || c == '/' ||
    c == ':' || c == '<' || c == '>' || c == '?' || c == '@' || c == '[' || c == '\\' ||
    c == ']' || c == '^' || c == '|'

def bracketed? (s : List Char) : Option (Except UrlError Host) :=
  match s with
  | '[' :: r =>
    if r.getLast? = some ']' then some (ipv6? r.dropLast) else some (.error .ipv6)
  | _ => none

/-- The host of a special scheme. A name beyond ASCII is refused here: it is not mapped to the
ASCII name that stands for it. -/
def parseSpecial (s : List Char) : Except UrlError Host :=
  match bracketed? s with
  | some result => result
  | none =>
    match Percent.decodeAscii? s with
    | none => .error .hostName
    | some decoded =>
      if decoded.any isForbiddenInName then .error .hostName
      else
        let lowered := decoded.map Char.toLower
        if !isName (splitDots lowered) then .error .hostName
        else if lowered.isEmpty then .error .emptyHost
        else if endsInNumber lowered then ipv4? lowered
        else .ok (.name lowered)

/-- The host of a scheme that is not special. -/
def parseText (s : List Char) : Except UrlError Host :=
  match bracketed? s with
  | some result => result
  | none =>
    if s.any isForbiddenInText then .error .hostCharacter
    else .ok (.name (Percent.encode Percent.isControl s))

end ClusterConsole.Host
