import ClusterConsole.Text.Utf8

/-! The bytes of characters are read back as these characters, without gaps, and a text is read
from its own bytes only. -/

namespace ClusterConsole.Utf8

variable {b : UInt8} {bytes rest : List UInt8} {c : Char} {n high low : Nat} {text : String}

/-- The bytes of a text. -/
def encode (text : List Char) : List UInt8 := text.flatMap String.utf8EncodeChar

/-! ### Single bytes -/

theorem tailBits?_ofNat (h : n < 64) : tailBits? (UInt8.ofNat (n + 0x80)) = some n := by
  have hlt : n + 0x80 < 256 := by omega
  have hn : (UInt8.ofNat (n + 0x80)).toNat = n + 0x80 := UInt8.toNat_ofNat_of_lt' hlt
  simp only [tailBits?, UInt8.le_iff_toNat_le, UInt8.lt_iff_toNat_lt, hn]
  rw [if_pos (by simp; omega)]
  simp

theorem lead?_ofNat (h : n < 256) :
    lead? (UInt8.ofNat n) =
      if n < 0x80 then some (0, n)
      else if 0xC2 ≤ n ∧ n < 0xE0 then some (1, n - 0xC0)
      else if 0xE0 ≤ n ∧ n < 0xF0 then some (2, n - 0xE0)
      else if 0xF0 ≤ n ∧ n < 0xF5 then some (3, n - 0xF0)
      else none := by
  have hn : (UInt8.ofNat n).toNat = n := UInt8.toNat_ofNat_of_lt' h
  simp [lead?, UInt8.le_iff_toNat_le, UInt8.lt_iff_toNat_lt, hn]

theorem lead?_two (h : 2 ≤ n) (h' : n < 32) :
    lead? (UInt8.ofNat (n % 32 + 0xC0)) = some (1, n) := by
  rw [Nat.mod_eq_of_lt h', lead?_ofNat (by omega), if_neg (by omega), if_pos (by omega),
    Nat.add_sub_cancel]

theorem lead?_three (h : n < 16) : lead? (UInt8.ofNat (n % 16 + 0xE0)) = some (2, n) := by
  rw [Nat.mod_eq_of_lt h, lead?_ofNat (by omega), if_neg (by omega), if_neg (by omega),
    if_pos (by omega), Nat.add_sub_cancel]

theorem lead?_four (h : n < 5) : lead? (UInt8.ofNat (n % 8 + 0xF0)) = some (3, n) := by
  rw [Nat.mod_eq_of_lt (Nat.lt_trans h (by decide)), lead?_ofNat (by omega), if_neg (by omega),
    if_neg (by omega), if_neg (by omega), if_pos (by omega), Nat.add_sub_cancel]

/-- The byte that continues a character with the six lowest bits of a number. -/
def tailByte (n : Nat) : UInt8 := UInt8.ofNat (n % 64 + 0x80)

theorem tail?_concat (bytes : List UInt8) (n : Nat) :
    tail? (bytes ++ [tailByte n]) = (tail? bytes).map (64 * · + n % 64) := by
  have hfold : ∀ bytes, tail? bytes = bytes.foldl
      (fun acc b => do return 64 * (← acc) + (← tailBits? b)) (some 0) := by
    intro bytes
    cases bytes <;> rfl
  rw [hfold, hfold, List.foldl_append, List.foldl_cons, List.foldl_nil, tailByte,
    tailBits?_ofNat (Nat.mod_lt n (by decide))]
  cases List.foldl _ _ bytes <;> rfl

theorem tail?_one (k : Nat) : tail? [tailByte k] = some (k % 64) := by
  rw [← List.nil_append [_], tail?_concat]
  simp [tail?]

theorem tail?_two (k l : Nat) : tail? [tailByte k, tailByte l] = some (64 * (k % 64) + l % 64) := by
  rw [← List.singleton_append, tail?_concat, tail?_one, Option.map_some]

theorem tail?_three (k l m : Nat) : tail? [tailByte k, tailByte l, tailByte m] =
    some (64 * (64 * (k % 64) + l % 64) + m % 64) := by
  rw [show [tailByte k, tailByte l, tailByte m] = [tailByte k, tailByte l] ++ [tailByte m] from rfl,
    tail?_concat, tail?_two, Option.map_some]

/-! ### Single characters -/

theorem first?_eq (hlead : lead? b = some (n, high)) (htail : tail? bytes = some low)
    (hlength : bytes.length = n) (hcode : high * Nat.pow 64 n + low = c.toNat)
    (hleast : leastWith n ≤ c.toNat) : first? b (bytes ++ rest) = some (c, n) := by
  have htake : (bytes ++ rest).take n = bytes := by rw [← hlength, List.take_left]
  have hlong : ¬ (bytes ++ rest).length < n := by simp [hlength]
  have hvalid : c.toNat.isValidChar := c.valid
  simp only [first?, hlead, Option.bind_eq_bind, Option.bind_some, htake, htail, hcode,
    if_neg hlong]
  simp [Nat.not_lt.2 hleast, hvalid]

theorem decode_cons (h : first? b rest = some (c, n)) :
    decode (b :: rest) = some c :: decode (rest.drop n) := by
  rw [decode, h]

theorem decode_utf8EncodeChar (c : Char) (rest : List UInt8) :
    decode (String.utf8EncodeChar c ++ rest) = some c :: decode rest := by
  have hmax : c.toNat < 0x110000 := by
    rcases c.valid with h | h
    · exact Nat.lt_trans h (by decide)
    · exact h.2
  unfold String.utf8EncodeChar
  simp only [show c.val.toNat = c.toNat from rfl]
  split
  · have hlead : lead? (UInt8.ofNat c.toNat) = some (0, c.toNat) := by
      rw [lead?_ofNat (by omega), if_pos (by omega)]
    have htail : tail? [] = some 0 := rfl
    refine decode_cons (first?_eq hlead htail rfl ?_ (Nat.zero_le _))
    simp
  split
  · refine decode_cons (first?_eq (lead?_two (by omega) (by omega)) (tail?_one c.toNat)
      rfl ?_ ?_)
    · simp only [Nat.pow_eq]
      omega
    · rw [leastWith]
      omega
  split
  · refine decode_cons (first?_eq (lead?_three (by omega))
      (tail?_two (c.toNat / 64) c.toNat) rfl ?_ ?_)
    · simp only [Nat.pow_eq]
      omega
    · rw [leastWith]
      omega
  · refine decode_cons (first?_eq (lead?_four (by omega))
      (tail?_three (c.toNat / 4096) (c.toNat / 64) c.toNat) rfl ?_ ?_)
    · simp only [Nat.pow_eq]
      omega
    · simp only [leastWith]
      omega

theorem decode_encode (text : List Char) : decode (encode text) = text.map some := by
  induction text with
  | nil => rw [encode, List.flatMap_nil, decode, List.map_nil]
  | cons c text ih =>
    rw [encode, List.flatMap_cons, decode_utf8EncodeChar, List.map_cons, ← ih, encode]

/-! ### The bytes of a text -/

/-- A first byte that holds some bits, with so many after it. -/
inductive Lead (high : Nat) : Nat → UInt8 → Prop
  | zero (h : high < 0x80) : Lead high 0 (UInt8.ofNat high)
  | one (h : high < 32) : Lead high 1 (UInt8.ofNat (high + 0xC0))
  | two (h : high < 16) : Lead high 2 (UInt8.ofNat (high + 0xE0))
  | three (h : high < 8) : Lead high 3 (UInt8.ofNat (high + 0xF0))

theorem lead_of_lead? (h : lead? b = some (n, high)) : Lead high n b := by
  obtain ⟨k, hk, rfl⟩ : ∃ k, k < 256 ∧ b = UInt8.ofNat k :=
    ⟨b.toNat, b.toNat_lt, UInt8.ofNat_toNat.symm⟩
  rw [lead?_ofNat hk] at h
  split at h
  · cases h
    exact .zero ‹_›
  split at h
  · cases h
    rw [show k = k - 0xC0 + 0xC0 by omega, Nat.add_sub_cancel]
    exact .one (by omega)
  split at h
  · cases h
    rw [show k = k - 0xE0 + 0xE0 by omega, Nat.add_sub_cancel]
    exact .two (by omega)
  split at h
  · cases h
    rw [show k = k - 0xF0 + 0xF0 by omega, Nat.add_sub_cancel]
    exact .three (by omega)
  · cases h

theorem eq_tailByte (h : tailBits? b = some n) : b = tailByte n ∧ n < 64 := by
  obtain ⟨k, hk, rfl⟩ : ∃ k, k < 256 ∧ b = UInt8.ofNat k :=
    ⟨b.toNat, b.toNat_lt, UInt8.ofNat_toNat.symm⟩
  have hnat : (UInt8.ofNat k).toNat = k := UInt8.toNat_ofNat_of_lt' hk
  simp only [tailBits?, UInt8.le_iff_toNat_le, UInt8.lt_iff_toNat_lt, hnat] at h
  split at h
  · next hbounds =>
    obtain rfl : k - 0x80 = n := Option.some.inj h
    simp at hbounds
    rw [tailByte, show (k - 0x80) % 64 + 0x80 = k by omega]
    exact ⟨rfl, by omega⟩
  · cases h

theorem exists_tailBytes (h : tail? bytes = some low) : ∃ ns : List Nat,
    bytes = ns.map tailByte ∧ (∀ n ∈ ns, n < 64) ∧ low = ns.foldl (64 * · + ·) 0 := by
  have hfold : bytes.foldl (fun acc b => do return 64 * (← acc) + (← tailBits? b)) (some 0) =
      some low := by
    cases bytes <;> exact h
  clear h
  generalize 0 = acc at hfold ⊢
  induction bytes generalizing acc with
  | nil => exact ⟨[], rfl, nofun, (Option.some.inj hfold).symm⟩
  | cons b bytes ih =>
    rw [List.foldl_cons] at hfold
    cases hb : tailBits? b with
    | none =>
      have hnone : ∀ bytes : List UInt8, bytes.foldl
          (fun acc b => do return 64 * (← acc) + (← tailBits? b)) none = none := by
        intro bytes
        induction bytes with
        | nil => rfl
        | cons b bytes ih => exact ih
      rw [hb] at hfold
      cases (hnone bytes).symm.trans hfold
    | some n =>
      rw [hb] at hfold
      obtain ⟨ns, hbytes, hns, hlow⟩ := ih _ hfold
      obtain ⟨rfl, hn⟩ := eq_tailByte hb
      refine ⟨n :: ns, by rw [hbytes, List.map_cons], ?_, hlow⟩
      intro m hm
      rcases List.mem_cons.1 hm with rfl | hm
      · exact hn
      · exact hns m hm

theorem first?_inv (h : first? b rest = some (c, n)) : ∃ high low, Lead high n b ∧
    n ≤ rest.length ∧ tail? (rest.take n) = some low ∧
    c.toNat = high * Nat.pow 64 n + low ∧ leastWith n ≤ c.toNat := by
  unfold first? at h
  cases hlead : lead? b with
  | none => simp [hlead] at h
  | some found =>
    obtain ⟨m, high⟩ := found
    simp only [hlead, Option.bind_eq_bind, Option.bind_some] at h
    split at h
    · cases h
    · next hlong =>
      cases hlow : tail? (rest.take m) with
      | none => simp [hlow] at h
      | some low =>
        simp only [hlow, Option.bind_some] at h
        split at h
        · cases h
        · next hcode =>
          obtain ⟨rfl, rfl⟩ := Prod.mk.inj (Option.some.inj h)
          obtain ⟨hleast, hvalid⟩ := not_or.1 (mt Bool.or_eq_true_iff.2 hcode)
          replace hvalid : (high * Nat.pow 64 m + low).isValidChar :=
            of_decide_eq_true (by simpa only [Bool.not_eq_true, Bool.not_eq_false'] using hvalid)
          have hnat : (Char.ofNat (high * Nat.pow 64 m + low)).toNat =
              high * Nat.pow 64 m + low := by
            rw [Char.ofNat, dif_pos hvalid]
            rfl
          rw [hnat]
          exact ⟨high, low, lead_of_lead? hlead, by omega, hlow, rfl, by simpa using hleast⟩

theorem utf8EncodeChar_of_first? (h : first? b rest = some (c, n)) :
    String.utf8EncodeChar c = b :: rest.take n ∧ n ≤ rest.length := by
  obtain ⟨high, low, hlead, hlong, htail, hcode, hleast⟩ := first?_inv h
  refine ⟨?_, hlong⟩
  have hlength : (rest.take n).length = n := by
    rw [List.length_take]
    omega
  obtain ⟨ns, htake, hns, rfl⟩ := exists_tailBytes htail
  rw [htake, List.length_map] at hlength
  rw [htake]
  unfold String.utf8EncodeChar
  simp only [show c.val.toNat = c.toNat from rfl]
  cases hlead with
  | zero hhigh =>
    obtain rfl := List.length_eq_zero_iff.1 hlength
    simp only [Nat.pow_eq, Nat.pow_zero, Nat.mul_one, List.foldl_nil, Nat.add_zero] at hcode
    rw [if_pos (by omega), hcode]
    rfl
  | one hhigh =>
    match ns, hlength with
    | [n₁], _ =>
      have h₁ : n₁ < 64 := hns n₁ (by simp)
      simp only [Nat.pow_eq, List.foldl_cons, List.foldl_nil, leastWith] at hcode hleast
      rw [if_neg (by omega), if_pos (by omega), List.map_singleton, tailByte,
        show c.toNat / 64 % 32 = high by omega, show c.toNat % 64 = n₁ % 64 by omega]
  | two hhigh =>
    match ns, hlength with
    | [n₁, n₂], _ =>
      have h₁ : n₁ < 64 := hns n₁ (by simp)
      have h₂ : n₂ < 64 := hns n₂ (by simp)
      simp only [Nat.pow_eq, List.foldl_cons, List.foldl_nil, leastWith] at hcode hleast
      rw [if_neg (by omega), if_neg (by omega), if_pos (by omega),
        show c.toNat / 4096 % 16 = high by omega, show c.toNat / 64 % 64 = n₁ % 64 by omega,
        show c.toNat % 64 = n₂ % 64 by omega]
      rfl
  | three hhigh =>
    match ns, hlength with
    | [n₁, n₂, n₃], _ =>
      have h₁ : n₁ < 64 := hns n₁ (by simp)
      have h₂ : n₂ < 64 := hns n₂ (by simp)
      have h₃ : n₃ < 64 := hns n₃ (by simp)
      simp only [Nat.pow_eq, List.foldl_cons, List.foldl_nil, leastWith] at hcode hleast
      rw [if_neg (by omega), if_neg (by omega), if_neg (by omega),
        show c.toNat / 262144 % 8 = high by omega, show c.toNat / 4096 % 64 = n₁ % 64 by omega,
        show c.toNat / 64 % 64 = n₂ % 64 by omega, show c.toNat % 64 = n₃ % 64 by omega]
      rfl

theorem mapM_id_eq_some {α : Type} {l : List (Option α)} {l' : List α} :
    l.mapM id = some l' ↔ l = l'.map some := by
  constructor
  · intro h
    induction l generalizing l' with
    | nil =>
      cases h
      rfl
    | cons o l ih =>
      rw [List.mapM_cons] at h
      obtain ⟨a, ha, h⟩ := Option.bind_eq_some_iff.1 h
      obtain ⟨as, has, h⟩ := Option.bind_eq_some_iff.1 h
      cases h
      rw [List.map_cons, ← ih has, ← ha, id]
  · rintro rfl
    induction l' with
    | nil => rfl
    | cons a l' ih =>
      rw [List.map_cons, List.mapM_cons, ih]
      rfl

theorem decode_eq_map_some {chars : List Char} :
    decode bytes = chars.map some ↔ bytes = encode chars := by
  constructor
  · intro h
    induction chars generalizing bytes with
    | nil =>
      cases bytes with
      | nil => rfl
      | cons b rest =>
        rw [decode] at h
        split at h <;> cases h
    | cons c chars ih =>
      cases bytes with
      | nil =>
        rw [decode] at h
        cases h
      | cons b rest =>
        rw [decode] at h
        split at h
        · next c' n hfirst =>
          obtain ⟨hc, htail⟩ := List.cons.inj h
          obtain rfl := Option.some.inj hc
          obtain ⟨hchar, -⟩ := utf8EncodeChar_of_first? hfirst
          rw [encode, List.flatMap_cons, hchar, ← encode, ← ih htail, List.cons_append,
            List.take_append_drop]
        · cases h
  · rintro rfl
    exact decode_encode chars

/-- A text is read from its bytes, and from no others. -/
theorem text?_eq_some_iff : text? bytes = some text ↔ bytes = encode text.toList := by
  rw [text?, Option.map_eq_some_iff]
  simp only [mapM_id_eq_some, decode_eq_map_some]
  constructor
  · rintro ⟨chars, hbytes, rfl⟩
    rw [hbytes, String.toList_ofList]
  · intro hbytes
    exact ⟨text.toList, hbytes, String.ofList_toList⟩

end ClusterConsole.Utf8
