import ClusterConsole.Name

/-! The identifier of one dispatch: 128 bits, written as 32 hexadecimal digits in
five groups. Read, it may also stand without its hyphens, in braces, or after a
prefix that names its kind. -/

namespace ClusterConsole

structure DispatchId where
  bits : BitVec 128
  deriving DecidableEq, Repr, Inhabited

namespace DispatchId

/-- The lengths of the groups of digits. -/
def groupLengths : List Nat := [8, 4, 4, 4, 12]

/-- The prefix, in lower case. -/
def label : List Char := "urn:uuid:".toList

/-- 32 hexadecimal digits. -/
def ofDigits? (digits : List Char) : Option DispatchId := do
  let values ← digits.mapM Percent.hexValue?
  if values.length = 32 then some ⟨.ofNat 128 (values.foldl (16 * · + ·) 0)⟩ else none

/-- Five groups of digits with hyphens between them. -/
def ofGroups? (s : List Char) : Option DispatchId :=
  let groups := s.splitOn '-'
  if groups.map List.length = groupLengths then ofDigits? groups.flatten else none

/-- An identifier from random bits. Six of them say that it is random. -/
def ofRandom (bits : BitVec 128) : DispatchId :=
  let kept := bits &&& ~~~((0xF000 : BitVec 128) <<< 64) &&& ~~~((0xC000 : BitVec 128) <<< 48)
  ⟨kept ||| (0x4000 : BitVec 128) <<< 64 ||| (0x8000 : BitVec 128) <<< 48⟩

def ofText? (s : List Char) : Option DispatchId :=
  match s.length with
  | 32 => ofDigits? s
  | 36 => ofGroups? s
  | 38 =>
    if s.head? = some '\x7b' ∧ s.getLast? = some '\x7d' then ofGroups? (s.drop 1).dropLast
    else none
  | 45 =>
    if (s.take label.length).map Char.toLower = label then ofGroups? (s.drop label.length)
    else none
  | _ => none

/-- The 32 digits, most significant first. -/
def digits (i : DispatchId) : List Char :=
  (List.range 32).map fun n => Json.lowerHexDigit (i.bits.toNat / Nat.pow 16 (31 - n) % 16)

def toList (i : DispatchId) : List Char :=
  let d := i.digits
  List.intercalate ['-']
    [d.take 8, (d.drop 8).take 4, (d.drop 12).take 4, (d.drop 16).take 4, d.drop 20]

def text (i : DispatchId) : String := String.ofList i.toList

instance : ToString DispatchId := ⟨text⟩

def read (s : Json.Text) : Except Json.Error DispatchId :=
  Json.finish <|
    match Json.readText s with
    | .error e => .error e
    | .ok (t, r) =>
      match ofText? t.toList with
      | some i => .ok (i, r)
      | none => .error .mismatch

def print (i : DispatchId) : String := String.ofList (Json.printString i.text)

end DispatchId

end ClusterConsole
