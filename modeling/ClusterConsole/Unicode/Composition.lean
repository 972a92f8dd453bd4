import ClusterConsole.Unicode.Mark
import ClusterConsole.Unicode.Table

/-! Characters that stand for a character and a mark, and texts in which all that can be
composed is. A text is normal if taking its characters apart, sorting the marks and composing
again leaves it as it is. -/

namespace ClusterConsole.Unicode

/-- A character that stands for two. -/
structure Composite where
  code : Nat
  first : Nat
  second : Nat
  deriving DecidableEq, Repr, Inhabited

def compositesFrom (code : Nat) : List Nat → List Composite
  | gap :: first :: second :: r => ⟨code + gap, first, second⟩ :: compositesFrom (code + gap) r
  | _ => []

/-- The composite characters of hosts, syllables apart. -/
def composites : List Composite := compositesFrom 0 <| Table.numbers "
224 97 768 1 97 769 1 97 770 1 97 771 1 97 776 1 97 778 2 99 807 1 101 768 1 101 769 1 101
770 1 101 776 1 105 768 1 105 769 1 105 770 1 105 776 2 110 771 1 111 768 1 111 769 1 111
770 1 111 771 1 111 776 3 117 768 1 117 769 1 117 770 1 117 776 1 121 769 2 121 776 2 97 772
2 97 774 2 97 808 2 99 769 2 99 770 2 99 775 2 99 780 2 100 780 4 101 772 2 101 774 2 101
775 2 101 808 2 101 780 2 103 770 2 103 774 2 103 775 2 103 807 2 104 770 4 105 771 2 105
772 2 105 774 2 105 808 6 106 770 2 107 807 3 108 769 2 108 807 2 108 780 6 110 769 2 110
807 2 110 780 5 111 772 2 111 774 2 111 779 4 114 769 2 114 807 2 114 780 2 115 769 2 115
770 2 115 807 2 115 780 2 116 807 2 116 780 4 117 771 2 117 772 2 117 774 2 117 778 2 117
779 2 117 808 2 119 770 2 121 770 3 122 769 2 122 775 2 122 780 35 111 795 15 117 795 30 97
780 2 105 780 2 111 780 2 117 780 2 252 772 2 252 769 2 252 780 2 252 768 3 228 772 2 551
772 2 230 772 4 103 780 2 107 780 2 111 808 2 491 772 2 658 780 1 106 780 5 103 769 4 110
768 2 229 769 2 230 769 2 248 769 2 97 783 2 97 785 2 101 783 2 101 785 2 105 783 2 105 785
2 111 783 2 111 785 2 114 783 2 114 785 2 117 783 2 117 785 2 115 806 2 116 806 4 104 780 8
97 775 2 101 807 2 246 772 2 245 772 2 111 775 2 559 772 2 121 772 349 970 769 28 945 769 1
949 769 1 951 769 1 953 769 1 971 769 26 953 776 1 965 776 1 959 769 1 965 769 1 969 769 107
1080 774 23 1077 768 1 1077 776 2 1075 769 4 1110 776 5 1082 769 1 1080 768 1 1091 774 25
1141 783 75 1078 774 15 1072 774 2 1072 776 4 1077 774 4 1241 776 2 1078 776 2 1079 776 4
1080 772 2 1080 776 2 1086 776 4 1257 776 2 1101 776 2 1091 772 2 1091 776 2 1091 779 2 1095
776 4 1099 776 297 1575 1619 1 1575 1620 1 1608 1620 1 1575 1621 1 1610 1620 154 1749 1620 2
1729 1620 17 1746 1620 598 2344 2364 8 2352 2364 3 2355 2364 151 2503 2494 1 2503 2519 380
2887 2902 3 2887 2878 1 2887 2903 72 2962 3031 54 3014 3006 1 3015 3006 1 3014 3031 124 3142
3158 120 3263 3285 7 3270 3285 1 3270 3286 2 3270 3266 1 3274 3285 127 3398 3390 1 3399 3390
1 3398 3415 142 3545 3530 2 3545 3535 1 3548 3530 1 3545 3551 584 4133 4142 2784 6917 6965 2
6919 6965 2 6921 6965 2 6923 6965 2 6925 6965 4 6929 6965 41 6970 6965 2 6972 6965 3 6974
6965 1 6975 6965 2 6978 6965 702 97 805 2 98 775 2 98 803 2 98 817 2 231 769 2 100 775 2 100
803 2 100 817 2 100 807 2 100 813 2 275 768 2 275 769 2 101 813 2 101 816 2 553 774 2 102
775 2 103 772 2 104 775 2 104 803 2 104 776 2 104 807 2 104 814 2 105 816 2 239 769 2 107
769 2 107 803 2 107 817 2 108 803 2 7735 772 2 108 817 2 108 813 2 109 769 2 109 775 2 109
803 2 110 775 2 110 803 2 110 817 2 110 813 2 245 769 2 245 776 2 333 768 2 333 769 2 112
769 2 112 775 2 114 775 2 114 803 2 7771 772 2 114 817 2 115 775 2 115 803 2 347 775 2 353
775 2 7779 775 2 116 775 2 116 803 2 116 817 2 116 813 2 117 804 2 117 816 2 117 813 2 361
769 2 363 776 2 118 771 2 118 803 2 119 768 2 119 769 2 119 776 2 119 775 2 119 803 2 120
775 2 120 776 2 121 775 2 122 770 2 122 803 2 122 817 1 104 817 1 116 776 1 119 778 1 121
778 8 97 803 2 97 777 2 226 769 2 226 768 2 226 777 2 226 771 2 7841 770 2 259 769 2 259 768
2 259 777 2 259 771 2 7841 774 2 101 803 2 101 777 2 101 771 2 234 769 2 234 768 2 234 777 2
234 771 2 7865 770 2 105 777 2 105 803 2 111 803 2 111 777 2 244 769 2 244 768 2 244 777 2
244 771 2 7885 770 2 417 769 2 417 768 2 417 777 2 417 771 2 417 803 2 117 803 2 117 777 2
432 769 2 432 768 2 432 777 2 432 771 2 432 803 2 121 768 2 121 803 2 121 777 2 121 771 7
945 787 1 945 788 1 7936 768 1 7937 768 1 7936 769 1 7937 769 1 7936 834 1 7937 834 9 949
787 1 949 788 1 7952 768 1 7953 768 1 7952 769 1 7953 769 11 951 787 1 951 788 1 7968 768 1
7969 768 1 7968 769 1 7969 769 1 7968 834 1 7969 834 9 953 787 1 953 788 1 7984 768 1 7985
768 1 7984 769 1 7985 769 1 7984 834 1 7985 834 9 959 787 1 959 788 1 8000 768 1 8001 768 1
8000 769 1 8001 769 11 965 787 1 965 788 1 8016 768 1 8017 768 1 8016 769 1 8017 769 1 8016
834 1 8017 834 9 969 787 1 969 788 1 8032 768 1 8033 768 1 8032 769 1 8033 769 1 8032 834 1
8033 834 9 945 768 2 949 768 2 951 768 2 953 768 2 959 768 2 965 768 2 969 768 52 945 774 1
945 772 5 945 834 16 951 834 10 953 774 1 953 772 1 970 768 4 953 834 1 970 834 9 965 774 1
965 772 1 971 768 2 961 787 1 961 788 1 965 834 1 971 834 15 969 834 420 8592 824 1 8594 824
19 8596 824 31 8656 824 1 8660 824 1 8658 824 53 8707 824 5 8712 824 3 8715 824 24 8739 824
2 8741 824 27 8764 824 3 8771 824 3 8773 824 2 8776 824 23 61 824 2 8801 824 11 8781 824 1
60 824 1 62 824 1 8804 824 1 8805 824 3 8818 824 1 8819 824 3 8822 824 1 8823 824 7 8826 824
1 8827 824 3 8834 824 1 8835 824 3 8838 824 1 8839 824 35 8866 824 1 8872 824 1 8873 824 1
8875 824 49 8828 824 1 8829 824 1 8849 824 1 8850 824 7 8882 824 1 8883 824 1 8884 824 1
8885 824 3423 12363 12441 2 12365 12441 2 12367 12441 2 12369 12441 2 12371 12441 2 12373
12441 2 12375 12441 2 12377 12441 2 12379 12441 2 12381 12441 2 12383 12441 2 12385 12441 3
12388 12441 2 12390 12441 2 12392 12441 7 12399 12441 1 12399 12442 2 12402 12441 1 12402
12442 2 12405 12441 1 12405 12442 2 12408 12441 1 12408 12442 2 12411 12441 1 12411 12442 23
12358 12441 10 12445 12441 14 12459 12441 2 12461 12441 2 12463 12441 2 12465 12441 2 12467
12441 2 12469 12441 2 12471 12441 2 12473 12441 2 12475 12441 2 12477 12441 2 12479 12441 2
12481 12441 3 12484 12441 2 12486 12441 2 12488 12441 7 12495 12441 1 12495 12442 2 12498
12441 1 12498 12442 2 12501 12441 1 12501 12442 2 12504 12441 1 12504 12442 2 12507 12441 1
12507 12442 23 12454 12441 3 12527 12441 1 12528 12441 1 12529 12441 1 12530 12441 4 12541
12441 54475 67026 775 27 67034 775 2742 69785 69818 2 69787 69818 15 69797 69818 131 69937
69927 1 69938 69927 540 70471 70462 1 70471 70487 55 70530 70601 2 70532 70587 9 70539 70594
3 70544 70601 52 70594 70594 2 70594 70584 1 70594 70601 243 70841 70842 1 70841 70832 2
70841 70845 252 71096 71087 1 71097 71087 893 71989 71984 18409 90398 90398 1 90398 90409 1
90398 90399 1 90409 90399 1 90398 90400 1 90401 90399 1 90402 90399 1 90401 90400 3136 93543
93543 1 93539 93543 1 93545 93543"

/-! ### Syllables -/

/-- Syllables are numbered by their first consonant, one of 19, their vowel, one of 21, and
their last consonant, one of 27 or none. -/
def syllable? (first second : Nat) : Option Nat :=
  if 0x1100 ≤ first && first < 0x1113 && 0x1161 ≤ second && second < 0x1176 then
    some (0xac00 + 28 * (21 * (first - 0x1100) + (second - 0x1161)))
  else if 0xac00 ≤ first && first < 0xd7a4 && (first - 0xac00) % 28 == 0 && 0x11a8 ≤ second &&
      second < 0x11c3 then
    some (first + (second - 0x11a7))
  else none

def syllableParts (code : Nat) : List Nat :=
  let n := code - 0xac00
  let start := [0x1100 + n / 588, 0x1161 + n / 28 % 21]
  if n % 28 = 0 then start else start ++ [0x11a7 + n % 28]

/-! ### Composing and taking apart -/

def compose? (first second : Nat) : Option Nat :=
  match syllable? first second with
  | some code => some code
  | none => (composites.find? fun x => x.first == first && x.second == second).map (·.code)

/-- The parts of a character, taken apart so many times. -/
def partsWithin : Nat → Nat → List Nat
  | 0, code => [code]
  | depth + 1, code =>
    match composites.find? (·.code == code) with
    | some x => partsWithin depth x.first ++ [x.second]
    | none => [code]

/-- The parts of a character. None stands for more than three. -/
def parts (code : Nat) : List Nat :=
  if 0xac00 ≤ code && code < 0xd7a4 then syllableParts code else partsWithin 2 code

def markClass (code : Nat) : Nat := combiningClass (.ofNat code)

/-- Puts a character in front of sorted ones: past the marks of lower classes. -/
def insertMark (code : Nat) : List Nat → List Nat
  | [] => [code]
  | x :: r =>
    if markClass x ≠ 0 && markClass x < markClass code then x :: insertMark code r
    else code :: x :: r

/-- Sorts the marks after each character. -/
def sortMarks (codes : List Nat) : List Nat := codes.foldr insertMark []

/-- Composes a character with the marks that follow it, the nearest first. `kept` are the
marks between that do not compose; a mark is out of reach behind one of its own class. -/
def composeFrom (first : Nat) (kept : List Nat) : List Nat → List Nat
  | [] => first :: kept
  | x :: r =>
    let inReach := kept.getLast?.all (markClass · < markClass x)
    match if inReach then compose? first x else none with
    | some code => composeFrom code kept r
    | none =>
      if markClass x = 0 then first :: kept ++ composeFrom x [] r
      else composeFrom first (kept ++ [x]) r

def compose : List Nat → List Nat
  | [] => []
  | x :: r => if markClass x = 0 then composeFrom x [] r else x :: compose r

def isNormal (s : List Char) : Bool :=
  let codes := s.map Char.toNat
  compose (sortMarks (codes.flatMap parts)) == codes

end ClusterConsole.Unicode
