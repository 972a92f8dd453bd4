import Mathlib.Data.List.TakeWhile
import ClusterConsole.Proofs.Text.Percent

/-! Addresses of eight groups. A printed address leaves out its first longest run of zero groups,
and a reader puts as many of them back as are missing, so that it reads the groups that were
printed. -/

namespace ClusterConsole.Host

variable {groups done pre post : List UInt16} {g : UInt16} {gap : Option Nat} {s rest : List Char}

/-! ### What a reader comes to -/

theorem length_fillGroups (h : fillGroups? groups gap = some done) : done.length = 8 := by
  unfold fillGroups? at h
  split at h
  · split at h
    · next hlength => rwa [← Option.some.inj h]
    · cases h
  · split at h
    · next k hlt =>
      have hsplit := congrArg List.length (List.take_append_drop k groups)
      simp only [List.length_append] at hsplit
      rw [← Option.some.inj h]
      simp only [List.length_append, List.length_replicate]
      omega
    · cases h

/-- An address has eight groups. -/
theorem length_readGroups (h : readGroups done gap s = some groups) : groups.length = 8 := by
  fun_induction readGroups done gap s with
  | case1 => exact length_fillGroups h
  | case2 => cases h
  | case3 => cases h
  | case4 => rename_i ih; exact ih h
  | case5 => exact length_fillGroups h
  | case6 => cases h
  | case7 =>
    obtain ⟨pair, -, hfill⟩ := Option.bind_eq_some_iff.1 h
    exact length_fillGroups hfill
  | case8 => cases h
  | case9 => rename_i ih; exact ih h
  | case10 => cases h

/-! ### One group -/

/-- A hexadecimal digit. -/
def IsHex (c : Char) : Prop := (Percent.hexValue? c).isSome = true

theorem isHex_of_mem {n : Nat} {c : Char} (h : c ∈ lowerHex n) : IsHex c := by
  obtain ⟨d, hd, rfl⟩ := exists_of_mem_toDigits (by decide) h
  rw [IsHex, hexValue?_digitChar d hd]
  rfl

theorem not_isHex_colon : ¬ IsHex ':' := by simp [IsHex, Percent.hexValue?]

theorem exists_lowerHex (n : Nat) : ∃ c r, lowerHex n = c :: r ∧ c ≠ ':' := by
  cases hdigits : lowerHex n with
  | nil => exact absurd hdigits Nat.toDigits_ne_nil
  | cons c r =>
    have hhex : IsHex c := isHex_of_mem (n := n) (by simp [hdigits])
    exact ⟨c, r, rfl, fun hc => not_isHex_colon (hc ▸ hhex)⟩

theorem length_lowerHex (g : UInt16) : (lowerHex g.toNat).length ≤ 4 :=
  (Nat.length_toDigits_le_iff (by decide) (by decide)).2 g.toNat_lt

/-- The digits of a group end where no other digit follows. -/
theorem groupDigits_lowerHex (g : UInt16) (rest : List Char) (hrest : ∀ c ∈ rest.head?, ¬ IsHex c) :
    groupDigits (lowerHex g.toNat ++ rest) = lowerHex g.toNat := by
  have hlength := length_lowerHex g
  have hall : ∀ c ∈ lowerHex g.toNat, (Percent.hexValue? c).isSome = true :=
    fun c hc => isHex_of_mem hc
  have htake : (lowerHex g.toNat ++ rest).take 4 =
      lowerHex g.toNat ++ rest.take (4 - (lowerHex g.toNat).length) := by
    rw [List.take_append, List.take_of_length_le hlength]
  rw [groupDigits, htake, List.takeWhile_append_of_pos hall]
  cases rest with
  | nil => simp
  | cons c rest =>
    cases 4 - (lowerHex g.toNat).length with
    | zero => simp
    | succ k =>
      have hno : (Percent.hexValue? c).isSome = false := eq_false_of_ne_true (hrest c rfl)
      rw [List.take_succ_cons, List.takeWhile_cons_of_neg (by simp [hno]), List.append_nil]

theorem value_lowerHex (g : UInt16) :
    UInt16.ofNat ((digitsValue? 16 (lowerHex g.toNat)).getD 0) = g := by
  rw [lowerHex, digitsValue?_toDigits (by decide) (by decide)]
  exact UInt16.ofNat_toNat

/-- The number of groups that a reader has met. -/
def met (done : List UInt16) (gap : Option Nat) : Nat :=
  done.length + if gap.isSome then 1 else 0

/-- A reader reads a group, and goes on after the colon that follows it. -/
theorem readGroups_lowerHex (hmet : met done gap < 8) (g : UInt16) :
    readGroups done gap (lowerHex g.toNat) = fillGroups? (done ++ [g]) gap ∧
      ∀ next ≠ [], readGroups done gap (lowerHex g.toNat ++ ':' :: next) =
        readGroups (done ++ [g]) gap next := by
  obtain ⟨c, r, hcr, hcolon⟩ := exists_lowerHex g.toNat
  have hcount : ¬ (done.length + if gap.isSome = true then 1 else 0) = 8 := ne_of_lt hmet
  have hvalue := value_lowerHex g
  constructor
  · have hdigits := groupDigits_lowerHex g [] nofun
    rw [List.append_nil] at hdigits
    have hdrop : (lowerHex g.toNat).drop (groupDigits (lowerHex g.toNat)).length = [] := by
      rw [hdigits, List.drop_length]
    rw [hcr] at hdigits hvalue hdrop ⊢
    rw [readGroups]
    simp only [hdigits, hvalue, if_neg hcolon]
    rw [if_neg hcount]
    split
    · rfl
    · next h => cases hdrop ▸ h
    · next h => cases hdrop ▸ h
    · next hnil _ _ => exact absurd hdrop hnil
  · intro next hnext
    have hdigits := groupDigits_lowerHex g (':' :: next) (by simpa using not_isHex_colon)
    have hdrop : (lowerHex g.toNat ++ ':' :: next).drop
        (groupDigits (lowerHex g.toNat ++ ':' :: next)).length = ':' :: next := by
      rw [hdigits, List.drop_left]
    rw [hcr] at hdigits hvalue hdrop ⊢
    rw [List.cons_append] at hdigits hdrop ⊢
    rw [readGroups]
    simp only [hdigits, hvalue, if_neg hcolon]
    rw [if_neg hcount]
    split
    · next h => cases hdrop ▸ h
    · next h => cases hdrop ▸ h
    · next h =>
      cases hdrop.symm.trans h
      rw [if_neg (by simpa using hnext)]
    · next hother => exact absurd hdrop (hother next)

/-! ### Printed groups -/

theorem joinGroups_nil : joinGroups [] = [] := rfl

theorem joinGroups_singleton (g : UInt16) : joinGroups [g] = lowerHex g.toNat := by
  simp [joinGroups, List.intercalate]

theorem joinGroups_cons_cons (g next : UInt16) (rest : List UInt16) :
    joinGroups (g :: next :: rest) = lowerHex g.toNat ++ ':' :: joinGroups (next :: rest) := by
  simp [joinGroups, List.intercalate]

theorem exists_joinGroups (g : UInt16) (rest : List UInt16) :
    ∃ s, joinGroups (g :: rest) = lowerHex g.toNat ++ s := by
  cases rest with
  | nil => exact ⟨[], by rw [joinGroups_singleton, List.append_nil]⟩
  | cons next rest => exact ⟨_, joinGroups_cons_cons g next rest⟩

theorem joinGroups_ne_nil (g : UInt16) (rest : List UInt16) : joinGroups (g :: rest) ≠ [] := by
  obtain ⟨s, hs⟩ := exists_joinGroups g rest
  obtain ⟨c, r, hcr, -⟩ := exists_lowerHex g.toNat
  simp [hs, hcr]

theorem readGroups_joinGroups (hmet : met done gap + groups.length ≤ 8) :
    readGroups done gap (joinGroups groups) = fillGroups? (done ++ groups) gap := by
  induction groups generalizing done with
  | nil => simp [joinGroups_nil, readGroups]
  | cons g rest ih =>
    rw [List.length_cons] at hmet
    have hroom : met done gap < 8 := by omega
    obtain ⟨hlast, hnext⟩ := readGroups_lowerHex hroom g
    cases rest with
    | nil => rwa [joinGroups_singleton]
    | cons next rest =>
      have hstep : met (done ++ [g]) gap = met done gap + 1 := by simp [met]; omega
      rw [joinGroups_cons_cons, hnext _ (joinGroups_ne_nil next rest), ih (by omega),
        List.append_assoc]
      rfl

/-- At two colons the reader notes how many groups it has met. -/
theorem readGroups_joinGroups_gap (hpre : pre ≠ []) (hlength : done.length + pre.length < 8) :
    readGroups done none (joinGroups pre ++ ':' :: ':' :: s) =
      readGroups (done ++ pre) (some (done ++ pre).length) s := by
  induction pre generalizing done with
  | nil => exact absurd rfl hpre
  | cons g rest ih =>
    rw [List.length_cons] at hlength
    have hmet : met done none < 8 := by simp [met]; omega
    obtain ⟨-, hnext⟩ := readGroups_lowerHex hmet g
    cases rest with
    | nil =>
      rw [List.length_nil] at hlength
      have hcount : (done ++ [g]).length ≠ 8 := by simp; omega
      rw [joinGroups_singleton, hnext _ (by simp), readGroups]
      simp only [Option.isSome_none, Bool.false_eq_true, if_false, Nat.add_zero, if_neg hcount,
        if_true]
    | cons next rest =>
      have hstep : (done ++ [g]).length + (next :: rest).length < 8 := by simp at hlength ⊢; omega
      rw [joinGroups_cons_cons, List.append_assoc, List.cons_append, hnext _ (by simp),
        ih (by simp) hstep, List.append_assoc]
      rfl

/-! ### The longest run of zeros -/

theorem exists_longestZeroRun (groups : List UInt16) (start : Nat) (best : Nat × Nat) :
    longestZeroRun groups start best = best ∨
      ∃ k, longestZeroRun groups start best = (start + k, zeroRun (groups.drop k)) := by
  induction groups generalizing start best with
  | nil => exact .inl rfl
  | cons g rest ih =>
    rw [longestZeroRun]
    rcases ih (start + 1)
      (if best.2 < zeroRun (g :: rest) then (start, zeroRun (g :: rest)) else best) with
      hbest | ⟨k, hrun⟩
    · simp only [hbest]
      split
      · exact .inr ⟨0, rfl⟩
      · exact .inl rfl
    · exact .inr ⟨k + 1, by rw [hrun, List.drop_succ_cons, Nat.add_assoc, Nat.add_comm 1 k]⟩

theorem eq_replicate_zeroRun (groups : List UInt16) :
    groups = List.replicate (zeroRun groups) 0 ++ groups.drop (zeroRun groups) := by
  have hzeros : groups.takeWhile (· == 0) = List.replicate (zeroRun groups) 0 :=
    List.eq_replicate_iff.2 ⟨rfl, fun g hg =>
      eq_of_beq (List.mem_takeWhile_imp (p := (· == 0)) hg)⟩
  have htake : groups.takeWhile (· == 0) = groups.take (zeroRun groups) :=
    List.prefix_iff_eq_take.1 (List.takeWhile_prefix _)
  rw [← hzeros, htake]
  exact (List.take_append_drop _ _).symm

/-- A printed address is one text of groups, or two around a run of zeros. -/
theorem exists_renderGroups (groups : List UInt16) :
    renderGroups groups = joinGroups groups ∨
      ∃ pre post n, 2 ≤ n ∧ groups = pre ++ List.replicate n 0 ++ post ∧
        renderGroups groups = joinGroups pre ++ ':' :: ':' :: joinGroups post := by
  by_cases hshort : (longestZeroRun groups 0 (0, 1)).2 < 2
  · exact .inl (if_pos hshort)
  · rcases exists_longestZeroRun groups 0 (0, 1) with hbest | ⟨k, hrun⟩
    · exact absurd (by rw [hbest]; decide) hshort
    · rw [Nat.zero_add] at hrun
      have hlong : 2 ≤ zeroRun (groups.drop k) := by
        rw [hrun] at hshort
        exact Nat.le_of_not_lt hshort
      refine .inr ⟨groups.take k, groups.drop (k + zeroRun (groups.drop k)),
        zeroRun (groups.drop k), hlong, ?_, ?_⟩
      · rw [List.append_assoc, ← List.drop_drop, ← eq_replicate_zeroRun, List.take_append_drop]
      · rw [renderGroups, if_neg hshort, hrun]
        simp

theorem mem_joinGroups {c : Char} (h : c ∈ joinGroups groups) :
    (∃ d < 16, c = Nat.digitChar d) ∨ c = ':' := by
  induction groups with
  | nil => rw [joinGroups_nil] at h; cases h
  | cons g rest ih =>
    cases rest with
    | nil => exact .inl (exists_of_mem_toDigits (by decide) (joinGroups_singleton g ▸ h))
    | cons next rest =>
      rw [joinGroups_cons_cons, List.mem_append, List.mem_cons] at h
      rcases h with hdigit | hcolon | hrest
      · exact .inl (exists_of_mem_toDigits (by decide) hdigit)
      · exact .inr hcolon
      · exact ih hrest

/-- An address is printed in digits and colons. -/
theorem mem_renderGroups {c : Char} (h : c ∈ renderGroups groups) :
    (∃ d < 16, c = Nat.digitChar d) ∨ c = ':' := by
  rcases exists_renderGroups groups with hprinted | ⟨pre, post, n, -, -, hprinted⟩
  · exact mem_joinGroups (hprinted ▸ h)
  · rw [hprinted, List.mem_append, List.mem_cons, List.mem_cons] at h
    rcases h with hpre | hcolon | hcolon | hpost
    · exact mem_joinGroups hpre
    · exact .inr hcolon
    · exact .inr hcolon
    · exact mem_joinGroups hpost

/-! ### The whole address -/

/-- The zeros that were left out are put back. -/
theorem fillGroups?_gap {n : Nat} (hn : 0 < n)
    (hlength : (pre ++ List.replicate n 0 ++ post).length = 8) :
    fillGroups? (pre ++ post) (some pre.length) = some (pre ++ List.replicate n 0 ++ post) := by
  simp only [List.length_append, List.length_replicate] at hlength
  have hmissing : 8 - (pre ++ post).length = n := by rw [List.length_append]; omega
  have hshort : (pre ++ post).length < 8 := by rw [List.length_append]; omega
  rw [fillGroups?, if_pos hshort, hmissing, List.take_left, List.drop_left]

theorem ipv6?_lowerHex (hs : s ≠ [])
    (h : readGroups [] none (lowerHex g.toNat ++ s) = some groups) :
    ipv6? (lowerHex g.toNat ++ s) = .ok (.ipv6 groups) := by
  obtain ⟨c, r, hcr, hc⟩ := exists_lowerHex g.toNat
  rw [hcr, List.cons_append] at h ⊢
  cases hrest : r ++ s with
  | nil => exact absurd (List.append_eq_nil_iff.1 hrest).2 hs
  | cons d rest =>
    rw [hrest] at h
    simp [ipv6?, hc, h]

/-- An address that is printed is read as the address it was. -/
theorem ipv6?_renderGroups (h : groups.length = 8) :
    ipv6? (renderGroups groups) = .ok (.ipv6 groups) := by
  rcases exists_renderGroups groups with hprinted | ⟨pre, post, n, hn, rfl, hprinted⟩
  · match groups, h with
    | g :: next :: rest, h =>
      have hread : readGroups [] none (joinGroups (g :: next :: rest)) =
          fillGroups? ([] ++ g :: next :: rest) none := readGroups_joinGroups (by simp [met, h])
      rw [joinGroups_cons_cons, List.nil_append, fillGroups?, if_pos h] at hread
      rw [hprinted, joinGroups_cons_cons]
      exact ipv6?_lowerHex (by simp) hread
  · have hfill := fillGroups?_gap (by omega) h
    have hlength := h
    simp only [List.length_append, List.length_replicate] at hlength
    have hpost : readGroups pre (some pre.length) (joinGroups post) =
        fillGroups? (pre ++ post) (some pre.length) :=
      readGroups_joinGroups (by simp [met]; omega)
    rw [hprinted]
    cases pre with
    | nil =>
      rw [joinGroups_nil, List.nil_append, ipv6?]
      rw [List.length_nil, List.nil_append] at hpost hfill
      rw [hpost, hfill]
    | cons g rest =>
      have hgap : readGroups [] none (joinGroups (g :: rest) ++ ':' :: ':' :: joinGroups post) =
          readGroups ([] ++ g :: rest) (some ([] ++ g :: rest).length) (joinGroups post) :=
        readGroups_joinGroups_gap (List.cons_ne_nil g rest) (by simp at hlength ⊢; omega)
      obtain ⟨s, hs⟩ := exists_joinGroups g rest
      rw [List.nil_append, hpost, hfill, hs, List.append_assoc] at hgap
      rw [hs, List.append_assoc]
      exact ipv6?_lowerHex (by simp) hgap

/-- Of two runs of zeros that are equally long the first is left out. -/
example : renderGroups [0x2001, 0xdb8, 0, 0, 1, 0, 0, 1] = "2001:db8::1:0:0:1".toList := by
  decide +kernel

end ClusterConsole.Host
