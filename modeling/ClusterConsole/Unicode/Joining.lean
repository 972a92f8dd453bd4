import ClusterConsole.Unicode.Table

/-! How the letters of cursive scripts join to their neighbours. -/

namespace ClusterConsole.Unicode

inductive Joining where
  | none
  /-- The letter joins to both neighbours. -/
  | both
  | next
  | previous
  /-- Letters join across it. -/
  | transparent
  deriving DecidableEq, Repr, Inhabited

def Joining.ofCode : Nat → Joining
  | 1 => both
  | 2 => next
  | 3 => previous
  | 4 => transparent
  | _ => none

def joinings : List (Nat × Nat) := Table.steps "
768 4 113 0 274 4 8 0 262 4 45 0 1 4 1 0 1 4 2 0 1 4 2 0 1 4 9 0 64 4 11 0 5 1 1 0 1 3 4 1 1
3 1 1 1 3 1 1 5 3 4 1 13 0 1 1 7 3 1 1 2 4 21 0 14 1 2 4 1 3 3 0 5 1 15 3 18 1 38 3 1 1 2 3
9 1 1 3 1 1 1 3 1 1 2 3 2 0 1 3 1 4 8 0 1 4 6 0 2 4 2 0 1 4 4 3 2 0 10 1 3 0 2 1 1 0 16 3 1
4 1 1 3 3 5 1 4 3 1 1 9 3 1 1 1 3 1 1 1 3 1 1 2 3 1 4 29 3 1 1 11 3 3 1 15 3 2 1 4 3 1 1 1 3
2 1 3 3 2 1 6 0 38 4 11 0 25 1 33 4 9 0 9 4 1 0 24 4 4 0 1 4 9 0 1 4 3 0 1 4 7 0 16 3 1 1 5
3 2 1 1 3 1 1 10 3 1 1 1 3 3 4 5 0 2 1 1 0 1 1 4 0 1 3 1 1 1 3 26 0 3 1 1 0 2 1 5 3 1 1 8 4
9 1 10 3 3 0 1 3 1 1 2 3 2 1 6 3 1 1 15 0 1 4 57 0 55 4 1 0 1 4 1 0 4 4 8 0 4 4 1 0 3 4 15 0
2 4 2 0 29 4 1 0 58 4 1 0 4 4 6 0 6 4 1 0 20 4 4 0 24 4 5 0 57 4 2 0 3 4 27 0 20 4 2 0 3 4 1
0 11 4 2 0 57 4 1 0 4 4 8 0 4 4 3 0 18 4 4 0 20 4 8 0 58 4 1 0 2 4 1 0 1 4 6 0 6 4 10 0 11 4
4 0 28 4 1 0 61 4 1 0 12 4 3 0 48 4 1 0 3 4 1 0 55 4 1 0 1 4 3 0 5 4 18 0 10 4 4 0 27 4 1 0
58 4 1 0 2 4 1 0 6 4 1 0 5 4 9 0 13 4 4 0 26 4 2 0 57 4 2 0 4 4 5 0 7 4 1 0 20 4 4 0 27 4 1
0 72 4 5 0 3 4 6 0 89 4 1 0 2 4 11 0 8 4 8 0 98 4 1 0 2 4 9 0 11 4 8 0 72 4 2 0 27 4 1 0 1 4
1 0 1 4 1 0 55 4 14 0 1 4 5 0 1 4 2 0 5 4 49 0 8 4 1 0 102 4 4 0 1 4 6 0 1 4 2 0 2 4 2 0 25
4 2 0 4 4 3 0 16 4 4 0 13 4 1 0 2 4 2 0 6 4 1 0 15 4 1 0 703 4 3 0 946 4 3 0 29 4 2 0 30 4
14 0 18 4 14 0 55 4 7 0 8 4 1 0 2 4 11 0 9 4 3 0 39 1 1 0 24 1 96 0 5 4 2 1 34 4 1 1 6 0 112
4 3 0 4 4 2 0 9 4 1 0 6 4 7 0 215 4 2 0 2 4 3 0 56 4 1 0 1 4 9 0 1 4 1 0 2 4 8 0 6 4 13 0 48
4 84 0 48 4 1 0 1 4 5 0 1 4 1 0 5 4 1 0 40 4 9 0 12 4 2 0 32 4 4 0 2 4 2 0 1 4 3 0 56 4 1 0
1 4 2 0 3 4 1 0 1 4 3 0 58 4 8 0 2 4 5 0 149 4 3 0 1 4 13 0 1 4 7 0 4 4 1 0 6 4 1 0 3 4 2 0
198 4 65 0 719 4 52 0 3051 4 4 0 140 4 1 0 96 4 32 0 554 4 4 0 107 4 4 0 30162 4 4 0 1 4 10
0 32 4 2 0 80 4 2 0 272 4 1 0 3 4 1 0 4 4 1 0 25 4 2 0 5 4 4 0 16 1 50 2 1 0 81 4 10 0 18 4
18 0 13 4 1 0 38 4 8 0 25 4 11 0 46 4 3 0 48 4 1 0 2 4 4 0 2 4 2 0 39 4 1 0 67 4 6 0 2 4 2 0
2 4 11 0 3 4 1 0 8 4 1 0 47 4 1 0 51 4 1 0 1 4 3 0 2 4 2 0 5 4 2 0 1 4 1 0 42 4 2 0 8 4 11 0
228 4 1 0 2 4 1 0 4 4 3 0 20270 4 148 0 622 4 37 0 952 4 131 0 96 4 1 0 149 4 10 0 1665 4 15
0 40 4 8 0 128 1 5 3 1 0 1 3 1 0 1 3 2 0 2 2 1 3 5 1 4 2 1 1 5 3 1 1 3 3 1 0 2 3 1 4 6 1 4 3
1 0 144 1 1 3 1 1 1 3 3 1 3 3 1 1 2 3 1 1 1 3 2 1 1 3 8 0 16 3 4 1 2 0 337 2 1 1 33 3 1 1 1
4 12 0 57 4 5 0 317 4 2 0 21 3 1 1 2 0 1 1 10 0 42 4 6 0 48 1 3 3 1 1 17 0 1 4 11 1 3 3 1 0
27 1 4 3 2 1 12 4 4 0 42 1 1 0 1 1 2 3 3 0 1 1 1 3 2 1 2 3 1 1 2 0 1 1 1 3 2 1 1 0 4 3 1 1 1
2 21 0 33 4 1 0 54 4 15 0 41 4 1 0 2 4 2 0 10 4 3 0 49 4 4 0 2 4 2 0 7 4 14 0 48 4 3 0 36 4
5 0 1 4 9 0 61 4 1 0 12 4 2 0 52 4 9 0 10 4 4 0 2 4 1 0 95 4 3 0 2 4 1 0 1 4 2 0 6 4 1 0 2 4
63 0 95 4 1 0 3 4 13 0 16 4 2 0 57 4 2 0 3 4 1 0 37 4 26 0 59 4 7 0 12 4 1 0 1 4 1 0 1 4 1 0
14 4 31 0 56 4 8 0 2 4 3 0 1 4 1 0 23 4 1 0 84 4 6 0 1 4 1 0 4 4 2 0 1 4 2 0 238 4 6 0 4 4 2
0 1 4 2 0 27 4 36 0 51 4 8 0 2 4 1 0 1 4 2 0 106 4 1 0 1 4 1 0 2 4 6 0 1 4 1 0 101 4 1 0 1 4
1 0 2 4 4 0 1 4 9 0 255 4 9 0 1 4 2 0 256 4 2 0 1 4 1 0 4 4 1 0 144 4 8 0 4 4 1 0 32 4 10 0
40 4 6 0 2 4 4 0 8 4 9 0 1 4 6 0 2 4 3 0 46 4 13 0 1 4 2 0 198 4 1 0 1 4 3 0 1 4 1 0 201 4
14 0 1 4 1 0 82 4 23 0 1 4 7 0 1 4 2 0 1 4 75 0 49 4 21 0 1 4 9 0 64 4 3 0 2 4 1 0 1 4 1 0
347 4 2 0 11 4 2 0 52 4 8 0 2 4 1 0 1 4 1 0 23 4 86 0 5264 4 1 0 6 4 25 0 11454 4 12 0 3 4 3
0 2496 4 5 0 59 4 7 0 1048 4 1 0 63 4 4 0 81 4 12 0 19629 4 2 0 4705 4 80 0 535 4 3 0 17 4 8
0 2 4 7 0 30 4 4 0 148 4 3 0 1979 4 55 0 4 4 50 0 8 4 1 0 14 4 1 0 22 4 1125 0 256 4 256 0
48 4 7 0 375 4 18 0 44 4 4 0 508 4 4 0 254 4 2 0 243 4 1 0 2 4 1 0 7 4 2 0 5 4 9 0 466 4 82
1 34 4 12 0"

/-- How a character of a host joins. -/
def joining (c : Char) : Joining := .ofCode (Table.value joinings 0 c)

def joinsNext (c : Char) : Bool := joining c == .both || joining c == .next

def joinsPrevious (c : Char) : Bool := joining c == .both || joining c == .previous

end ClusterConsole.Unicode
