import ClusterConsole.Unicode.Table

/-! Marks among the characters of hosts, and their classes. Marks of one class attach to the
same place of the character before them; marks of different classes can be told apart in any
order, and are sorted. -/

namespace ClusterConsole.Unicode

def marks : List Nat := Table.points "
768 113 274 8 262 45 1 1 1 2 1 2 1 9 64 11 48 21 16 1 101 8 1 6 2 2 1 4 35 1 30 29 89 11 58
9 9 1 24 4 1 9 1 3 1 7 41 5 57 9 42 58 54 3 1 18 1 15 2 2 29 4 55 1 1 16 9 9 2 4 24 7 55 32
20 2 3 1 11 4 55 1 1 18 18 4 20 11 55 1 1 33 3 4 28 1 59 18 7 15 26 5 55 1 1 26 10 4 27 3 56
1 1 30 6 4 13 17 55 2 1 16 9 1 10 4 27 4 69 28 12 2 61 1 2 11 8 8 98 1 2 9 11 8 72 2 27 1 1
1 1 1 4 2 49 20 1 2 5 49 8 1 100 20 23 4 4 3 1 3 2 7 3 4 13 12 1 1 10 4 703 3 946 13 19 3 29
14 18 14 54 30 9 3 165 2 34 1 118 32 215 7 55 43 48 85 47 17 38 9 12 3 30 13 56 22 40 23 149
3 1 21 4 1 6 1 2 3 198 65 719 52 3051 4 140 1 96 32 554 6 105 4 30162 4 1 10 32 2 80 2 272 1
3 1 4 1 23 5 4 4 80 2 50 26 18 18 13 1 38 8 25 24 33 4 47 14 36 1 67 23 3 1 8 4 43 3 50 1 1
3 2 2 5 2 1 1 41 5 5 12 226 8 1 4 20270 148 622 37 952 131 96 1 149 10 1665 15 40 8 165 6
569 12 57 5 317 2 77 6 70 11 49 4 122 3 53 15 41 1 2 2 10 4 45 11 7 14 48 3 36 15 15 2 44 1
12 3 48 14 8 4 1 2 92 12 6 1 2 63 95 17 16 5 54 2 1 18 7 6 5 30 56 25 1 1 14 31 53 18 23 1
81 20 235 18 27 36 48 17 106 13 101 19 252 15 245 15 1 1 1 2 141 16 3 28 1 10 40 7 1 4 8 9 1
11 46 16 198 96 111 17 82 110 49 21 1 9 58 14 347 4 9 2 1 1 48 15 23 86 5264 1 6 25 11454 18
2496 5 59 7 1048 1 1 66 81 14 19627 2 4705 80 533 5 3 22 2 7 30 4 148 3 1979 55 4 50 8 1 14
1 22 1125 256 256 48 7 375 18 44 4 508 4 254 2 243 1 2 1 7 2 5 9 466 82 34 7"

/-- Whether a character of a host is a mark. -/
def isMark (c : Char) : Bool := Table.contains marks c

def combiningClasses : List (Nat × Nat) := Table.steps "
768 230 21 232 1 220 4 232 1 216 1 220 5 202 2 220 4 202 2 220 11 1 5 220 4 230 10 220 3 230
3 220 3 230 3 220 4 230 1 232 1 220 2 230 1 233 1 234 2 233 1 234 2 233 1 230 14 0 274 230 5
0 265 220 1 230 4 220 1 230 3 222 1 220 1 230 6 220 6 230 2 220 1 230 2 222 1 228 1 230 1 10
1 11 1 12 1 13 1 14 1 15 1 16 1 17 1 18 1 19 2 20 1 21 1 22 1 0 1 23 1 0 1 24 1 25 1 0 1 230
1 220 1 0 1 18 9 0 64 230 8 30 1 31 1 32 1 0 48 27 1 28 1 29 1 30 1 31 1 32 1 33 1 34 1 230
2 220 2 230 5 220 1 230 2 220 1 0 16 35 1 0 101 230 8 0 1 230 4 220 1 230 1 0 2 230 2 0 1
220 1 230 2 220 1 0 35 36 1 0 30 230 1 220 1 230 2 220 1 230 2 220 3 230 1 220 2 230 1 220 1
230 3 220 1 230 1 220 1 230 1 220 1 230 1 220 1 230 4 0 158 230 7 220 1 230 1 0 9 220 1 0 24
230 4 0 1 230 9 0 1 230 3 0 1 230 7 0 41 220 5 0 57 230 2 220 3 230 4 0 42 230 5 220 5 230
15 220 1 230 2 220 1 230 2 220 1 230 3 220 3 27 1 28 1 29 1 230 3 220 1 230 2 220 2 230 5 0
60 7 1 0 16 9 1 0 3 230 1 220 1 230 2 0 103 7 1 0 16 9 1 0 48 230 3 0 59 7 2 0 15 9 4 0 107
7 1 0 16 9 3 0 108 7 1 0 16 9 8 0 120 9 3 0 108 7 1 0 16 9 8 84 1 91 2 0 100 7 1 0 16 9 8 0
102 9 2 0 16 9 1 0 124 9 5 0 105 103 2 9 5 0 9 107 4 0 108 118 2 9 1 0 13 122 4 0 76 220 2 0
27 220 1 0 1 220 1 0 1 216 1 0 55 129 1 130 2 132 6 130 4 0 2 130 2 230 2 9 1 0 1 230 2 0 62
220 1 0 112 7 1 0 1 9 2 0 82 220 1 0 719 230 3 0 948 9 11 0 21 9 1 0 157 9 1 0 10 230 3 0
201 228 1 0 143 222 1 230 1 220 5 0 215 230 1 220 1 0 71 9 1 0 20 230 10 220 1 0 48 230 5
220 6 230 2 220 1 0 1 220 2 230 2 220 2 230 5 220 1 230 18 220 3 230 6 220 1 230 4 234 21 0
52 7 1 0 15 9 1 0 38 230 1 220 1 230 7 0 54 9 2 0 58 7 1 0 11 9 10 0 59 7 4 0 149 230 3 0 1
1 1 220 5 230 2 220 4 230 1 0 1 1 7 0 4 220 1 0 6 230 1 0 3 230 2 0 198 230 2 220 1 230 7
220 1 230 2 234 1 214 1 220 1 202 1 230 37 232 1 228 2 220 1 218 1 230 1 233 1 220 1 230 1
220 2 0 719 230 2 1 2 230 4 1 3 230 2 0 4 230 1 0 3 1 2 230 1 220 1 230 1 1 2 220 4 230 20 0
3051 230 4 0 140 9 1 0 96 230 32 0 554 218 1 228 1 232 1 222 1 224 2 0 105 8 4 0 30162 230 1
0 4 230 10 0 32 230 2 0 80 230 2 0 276 9 1 0 37 9 4 0 148 9 1 0 27 230 18 0 57 220 3 0 37 9
12 0 84 7 1 0 12 9 1 0 239 230 1 0 1 230 2 220 1 0 2 230 2 0 5 230 2 0 1 230 1 0 52 9 11 0
236 9 3 0 20270 26 148 0 622 230 7 220 7 230 23 0 952 220 131 0 96 220 1 0 149 230 10 0 1677
220 1 0 1 230 1 0 40 230 1 1 1 220 5 9 1 0 165 230 1 220 5 0 569 230 12 0 57 230 5 0 317 230
2 0 77 220 2 0 1 220 3 0 70 220 2 230 3 220 1 230 1 220 4 0 49 230 1 220 1 230 1 220 1 0 192
9 1 0 41 9 1 0 14 9 1 0 57 9 1 7 1 0 69 230 3 0 48 9 3 0 61 7 1 0 76 9 1 0 9 7 1 0 106 9 1 7
1 0 178 7 1 9 6 0 75 7 2 0 16 9 3 0 22 230 26 0 78 9 3 0 113 9 1 0 3 7 1 0 23 230 1 0 99 9 1
7 1 0 251 9 1 7 1 0 126 9 1 0 118 9 1 7 1 0 115 9 5 0 265 9 1 7 1 0 258 9 2 0 4 7 1 0 156 9
1 0 83 9 1 0 18 9 9 0 73 9 1 0 421 9 1 0 258 7 1 0 1 9 2 0 81 9 1 0 425 9 2 0 16876 9 1 0
2496 1 5 0 59 230 7 0 1209 6 2 0 19628 1 1 0 5318 216 2 1 3 0 3 226 1 216 13 220 8 0 2 230 5
220 2 0 30 230 4 0 148 230 3 0 3515 230 256 0 48 230 7 0 375 230 18 0 44 230 4 0 508 232 2
220 1 230 1 0 254 230 1 220 1 0 243 230 1 0 2 230 1 0 7 230 2 0 5 230 9 0 466 220 82 0 34
230 6 7 1 0"

/-- The class of a character of a host; zero if it attaches to none. -/
def combiningClass (c : Char) : Nat := Table.value combiningClasses 0 c

/-- A mark that joins two consonants. -/
def isVirama (c : Char) : Bool := combiningClass c == 9

end ClusterConsole.Unicode
