import ClusterConsole.Unicode.Table

/-! The direction in which the characters of hosts are written. -/

namespace ClusterConsole.Unicode

inductive Direction where
  | leftToRight
  | rightToLeft
  | arabicNumber
  | europeanNumber
  /-- The direction of the character before it. -/
  | mark
  | neutral
  deriving DecidableEq, Repr, Inhabited

def Direction.ofCode : Nat → Direction
  | 0 => leftToRight
  | 1 => rightToLeft
  | 2 => arabicNumber
  | 3 => europeanNumber
  | 4 => mark
  | _ => neutral

def directions : List (Nat × Nat) := Table.steps "
161 5 62 0 24 5 1 0 449 5 2 0 7 5 14 0 2 5 28 0 1 5 17 4 113 0 4 5 2 0 127 5 2 0 139 4 8 0
255 5 7 4 45 1 1 4 1 1 1 4 2 1 1 4 2 1 1 4 9 1 54 5 2 1 1 5 2 1 1 5 1 1 1 5 2 4 11 1 48 4 21
2 10 5 1 2 2 1 3 4 1 1 101 4 8 5 1 4 6 1 2 4 2 5 1 4 4 1 2 3 10 1 23 4 1 1 30 4 29 1 89 4 11
1 58 4 9 1 2 5 4 1 3 4 1 1 24 4 4 1 1 4 9 1 1 4 3 1 1 4 7 1 41 4 5 1 57 4 9 1 42 4 57 0 55 4
1 0 1 4 1 0 4 4 8 0 4 4 1 0 3 4 15 0 2 4 2 0 29 4 1 0 58 4 1 0 4 4 6 0 6 4 1 0 20 4 4 0 12 5
2 0 7 5 1 0 2 4 5 0 57 4 2 0 3 4 27 0 20 4 2 0 3 4 1 0 11 4 2 0 57 4 1 0 4 4 8 0 4 4 3 0 18
4 4 0 11 5 8 0 1 4 8 0 58 4 1 0 2 4 1 0 1 4 6 0 6 4 10 0 11 4 4 0 28 4 1 0 61 4 1 0 12 4 3 0
35 5 13 4 1 0 3 4 1 0 55 4 1 0 1 4 3 0 5 4 18 0 10 4 4 0 18 5 7 0 2 4 1 0 58 4 1 0 15 4 9 0
13 4 4 0 26 4 2 0 57 4 2 0 4 4 5 0 7 4 1 0 20 4 4 0 27 4 1 0 72 4 5 0 3 4 6 0 89 4 1 0 2 4
11 5 1 0 7 4 8 0 98 4 1 0 2 4 9 0 11 4 8 0 72 4 2 0 27 4 1 0 1 4 1 0 1 4 1 5 4 0 51 4 14 0 1
4 5 0 1 4 2 0 5 4 49 0 8 4 1 0 102 4 4 0 1 4 6 0 1 4 2 0 2 4 2 0 25 4 2 0 4 4 3 0 16 4 4 0
13 4 1 0 2 4 2 0 6 4 1 0 15 4 1 0 703 4 3 0 48 5 16 0 96 5 1 0 666 5 5 0 114 4 3 0 29 4 2 0
30 4 14 0 18 4 14 0 55 4 7 0 8 4 1 0 2 4 11 0 7 5 1 0 1 4 3 0 16 5 32 0 117 4 2 0 34 4 1 0
118 4 3 0 4 4 2 0 9 4 1 0 6 4 7 5 6 0 152 5 34 0 23 4 2 0 2 4 3 0 56 4 1 0 1 4 9 0 1 4 1 0 2
4 8 0 6 4 13 0 48 4 84 0 48 4 1 0 1 4 5 0 1 4 1 0 5 4 1 0 40 4 9 0 12 4 2 0 32 4 4 0 2 4 2 0
1 4 3 0 56 4 1 0 1 4 2 0 3 4 1 0 1 4 3 0 58 4 8 0 2 4 5 0 149 4 3 0 1 4 13 0 1 4 7 0 4 4 1 0
6 4 1 0 3 4 2 0 198 4 65 0 523 5 196 4 52 5 74 0 60 5 428 0 69 5 26 0 1 5 790 0 1 5 339 0
256 5 816 0 181 5 7 0 3 4 4 0 6 5 7 0 127 4 1 0 96 4 32 5 517 0 3 5 25 0 9 4 4 0 2 5 1 0 6 5
4 0 2 5 4 0 88 4 4 0 3 5 1 0 90 5 1 0 196 5 48 0 7120 5 64 0 22160 5 64 0 317 5 3 0 95 4 4 5
1 4 10 5 3 0 29 4 2 0 80 4 2 0 14 5 35 0 101 5 1 0 121 4 1 0 3 4 1 0 4 4 1 0 25 4 2 0 1 5 4
4 4 0 8 5 8 0 52 5 12 0 68 4 10 0 18 4 18 0 13 4 1 0 38 4 8 0 25 4 11 0 46 4 3 0 48 4 1 0 2
4 4 0 2 4 2 0 39 4 1 0 67 4 6 0 2 4 2 0 2 4 11 0 3 4 1 0 8 4 1 0 47 4 1 0 51 4 1 0 1 4 3 0 2
4 2 0 5 4 2 0 1 4 1 0 42 4 2 0 8 4 11 0 105 5 86 0 37 4 1 0 2 4 1 0 4 4 3 0 20270 4 148 1 17
5 605 4 37 5 46 1 397 0 257 5 1 0 62 5 77 0 3 5 64 0 45 4 131 0 96 4 1 3 31 0 118 4 10 0
1152 1 287 5 1 1 225 4 15 1 40 4 8 1 165 4 6 1 78 5 7 1 484 4 12 2 16 1 41 4 5 5 1 1 241 2
32 1 43 4 2 1 35 5 42 4 6 1 70 4 11 1 49 4 4 1 122 0 1 4 1 0 54 4 15 0 11 5 20 0 10 4 1 0 2
4 2 0 10 4 3 0 49 4 4 0 2 4 2 0 7 4 14 0 48 4 3 0 36 4 5 0 1 4 9 0 61 4 1 0 12 4 2 0 52 4 9
0 10 4 4 0 2 4 1 0 95 4 3 0 2 4 1 0 1 4 2 0 6 4 1 0 2 4 63 0 95 4 1 0 3 4 13 0 16 4 2 0 57 4
2 0 3 4 1 0 37 4 26 0 59 4 7 0 12 4 1 0 1 4 1 0 1 4 1 0 14 4 31 0 56 4 8 0 2 4 3 0 1 4 1 0
23 4 1 0 84 4 6 0 1 4 1 0 4 4 2 0 1 4 2 0 238 4 6 0 4 4 2 0 1 4 2 0 27 4 36 0 51 4 8 0 2 4 1
0 1 4 2 0 31 5 32 0 43 4 1 0 1 4 1 0 2 4 6 0 1 4 1 0 101 4 3 0 2 4 4 0 1 4 9 0 255 4 9 0 1 4
2 0 256 4 2 0 1 4 1 0 4 4 1 0 144 4 8 0 4 4 1 0 32 4 6 0 2 4 2 0 40 4 6 0 2 4 4 0 8 4 9 0 1
4 6 0 2 4 3 0 46 4 13 0 1 4 2 0 198 4 1 0 1 4 3 0 1 4 1 0 201 4 14 0 84 4 23 0 1 4 7 0 1 4 2
0 1 4 75 0 49 4 21 0 1 4 9 0 64 4 3 0 2 4 1 0 1 4 1 0 347 4 2 0 11 4 2 0 52 4 8 0 2 4 1 0 1
4 1 0 23 4 86 0 37 5 42 0 5185 4 1 0 6 4 25 0 11454 4 12 0 3 4 3 0 2496 4 5 0 59 4 7 0 1048
4 1 0 63 4 4 0 79 5 1 0 1 4 12 0 19629 4 2 0 3937 5 768 4 80 0 535 4 3 0 17 4 8 0 2 4 7 0 30
4 4 0 59 5 89 4 3 5 123 0 64 5 96 0 1696 4 55 0 4 4 50 0 8 4 1 0 14 4 1 0 22 4 1125 0 256 4
256 0 48 4 7 0 375 4 18 0 44 4 4 0 15 5 465 0 28 4 4 0 254 4 2 0 243 4 1 0 2 4 1 0 7 4 2 0 5
4 9 0 258 1 208 4 82 1 34 4 7 1 1445 5 608 0 29 5 3 0 61 5 57 0 122 5 3488 0"

/-- The direction of a character of a host. -/
def direction (c : Char) : Direction :=
  if c.isAlpha then .leftToRight
  else if c.isDigit then .europeanNumber
  else if c.toNat < 128 then .neutral
  else .ofCode (Table.value directions 0 c)

end ClusterConsole.Unicode
