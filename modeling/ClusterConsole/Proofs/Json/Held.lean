import ClusterConsole.Proofs.Json.Accepting
import ClusterConsole.Proofs.Json.Canonical

/-! What is known of a value that was read: it has no more levels than allowed, and its integers
fit into 64 bits, with a sign or without one. The canonical form keeps both. -/

namespace ClusterConsole.Json

variable {fuel levels : Nat} {x rest : Text} {v : Json} {n : Number} {negative : Bool}
  {significand : Nat} {exponent : Int}

/-! ### Numbers -/

/-- An integer is one of 64 bits. -/
def Number.Fits : Number → Prop
  | .int value => -(Nat.pow 2 63 : Nat) ≤ value ∧ value ≤ (maxSignificand : Nat)
  | .float _ => True

namespace Number

theorem fits_of_ofParts (h : ofParts negative significand exponent = .ok n) : n.Fits := by
  obtain ⟨y, -, rfl⟩ := map_eq_ok.1 h
  trivial

theorem appendDigits_le (ds : List Nat) (h : significand ≤ maxSignificand) :
    (appendDigits significand ds).1 ≤ maxSignificand := by
  induction ds generalizing significand with
  | nil => exact h
  | cons d ds ih =>
    rw [appendDigits]
    split
    · next hnext => exact ih hnext
    · exact h

theorem fits_ofInteger (h : significand ≤ maxSignificand) :
    (ofInteger negative significand).Fits := by
  unfold ofInteger
  split
  · exact ⟨by omega, by omega⟩
  split
  · next hneg => exact ⟨by omega, by omega⟩
  · trivial

/-- The number of what is read of it and the text after it. -/
theorem fits_of_map {p : Except Error Number} {y : Text} (hp : ∀ {n}, p = .ok n → n.Fits)
    (h : (p.map fun n => (n, y)) = .ok (n, rest)) : n.Fits := by
  obtain ⟨n', hn', heq⟩ := map_eq_ok.1 h
  cases heq
  exact hp hn'

theorem fits_of_readExponent (h : readExponent negative significand exponent x = .ok (n, rest)) :
    n.Fits := by
  unfold readExponent at h
  split at h
  split at h
  · cases h
  · cases h
  · exact fits_of_map fits_of_ofParts h

theorem fits_of_readFraction (h : readFraction negative significand exponent x = .ok (n, rest)) :
    n.Fits := by
  unfold readFraction at h
  split at h
  · cases h
  · cases h
  · split at h
    dsimp only at h
    split at h
    · exact fits_of_readExponent h
    · exact fits_of_readExponent h
    · exact fits_of_map fits_of_ofParts h

theorem fits_of_read (h : read negative x = .ok (n, rest)) : n.Fits := by
  unfold read at h
  split at h
  · cases h
  · cases h
  · cases h
  · next digits _ _ _ _ _ =>
    split at h
    next significand unread hdigits =>
    have hle := appendDigits_le digits (Nat.zero_le maxSignificand)
    rw [hdigits] at hle
    split at h
    · exact fits_of_readFraction h
    · exact fits_of_readExponent h
    · exact fits_of_readExponent h
    · split at h
      · cases h
        exact fits_ofInteger hle
      · exact fits_of_map fits_of_ofParts h

end Number

/-! ### Values -/

/-- A value of so many levels at most that a reader can come to. -/
inductive Held : Nat → Json → Prop
  | null {levels : Nat} : Held levels .null
  | bool {levels : Nat} {b : Bool} : Held levels (.bool b)
  | number {levels : Nat} {n : Number} (h : n.Fits) : Held levels (.number n)
  | string {levels : Nat} {s : String} : Held levels (.string s)
  | array {levels : Nat} {items : List Json} (h : ∀ v ∈ items, Held levels v) :
      Held (levels + 1) (.array items)
  | object {levels : Nat} {members : List (String × Json)} (h : ∀ m ∈ members, Held levels m.2) :
      Held (levels + 1) (.object members)

theorem Held.canonical (h : Held levels v) : Held levels v.canonical := by
  induction h with
  | null => exact .null
  | bool => exact .bool
  | number h => exact .number h
  | string => exact .string
  | array _ ih =>
    rw [Json.canonical, canonicalItems_eq_map]
    refine .array fun v hv => ?_
    obtain ⟨w, hw, rfl⟩ := List.mem_map.1 hv
    exact ih w hw
  | object _ ih =>
    rw [Json.canonical, canonicalMembers_eq_map]
    refine .object fun m hm => ?_
    obtain ⟨m', hm', rfl⟩ := List.mem_map.1 (mem_sortMembers hm)
    exact ih m' hm'

/-- What was read at a text: null only where its name begins. -/
structure ReadAt (x : Text) (levels : Nat) (v : Json) : Prop where
  held : Held levels v
  null : v = .null → ∃ r, skipBlanks x = some 'n' :: r

mutual

theorem readAt_of_readValue : ∀ {fuel levels : Nat} {x rest : Text} {v : Json},
    readValue fuel levels x = .ok (v, rest) → ReadAt x levels v
  | 0, _, _, _, _, h => by cases h
  | fuel + 1, levels, x, rest, v, h => by
    unfold readValue at h
    split at h
    · cases h
    · cases h
    · next c r hx =>
      split at h
      · next hc =>
        obtain ⟨y, -, heq⟩ := map_eq_ok.1 h
        cases heq
        exact ⟨.null, fun _ => ⟨r, hc ▸ hx⟩⟩
      split at h
      · obtain ⟨y, -, heq⟩ := map_eq_ok.1 h
        cases heq
        exact ⟨.bool, nofun⟩
      split at h
      · obtain ⟨y, -, heq⟩ := map_eq_ok.1 h
        cases heq
        exact ⟨.bool, nofun⟩
      split at h
      · obtain ⟨y, hread, heq⟩ := map_eq_ok.1 h
        cases heq
        exact ⟨.number (Number.fits_of_read hread), nofun⟩
      split at h
      · obtain ⟨y, hread, heq⟩ := map_eq_ok.1 h
        cases heq
        exact ⟨.number (Number.fits_of_read hread), nofun⟩
      split at h
      · obtain ⟨y, -, heq⟩ := map_eq_ok.1 h
        cases heq
        exact ⟨.string, nofun⟩
      split at h
      · split at h
        · cases h
        · split at h
          · cases h
            exact ⟨.array nofun, nofun⟩
          · obtain ⟨y, hread, heq⟩ := map_eq_ok.1 h
            cases heq
            exact ⟨.array (held_of_readItems hread), nofun⟩
      split at h
      · split at h
        · cases h
        · split at h
          · cases h
            exact ⟨.object nofun, nofun⟩
          · obtain ⟨y, hread, heq⟩ := map_eq_ok.1 h
            cases heq
            exact ⟨.object (held_of_readMembers hread), nofun⟩
      · cases h

theorem held_of_readItems : ∀ {fuel levels : Nat} {x rest : Text} {items : List Json},
    readItems fuel levels x = .ok (items, rest) → ∀ v ∈ items, Held levels v
  | 0, _, _, _, _, h => by cases h
  | fuel + 1, levels, x, rest, items, h => by
    unfold readItems at h
    split at h
    · cases h
    · next hvalue =>
      have hv := (readAt_of_readValue hvalue).held
      split at h
      · cases h
      · cases h
        exact List.forall_mem_singleton.2 hv
      · obtain ⟨y, hread, heq⟩ := map_eq_ok.1 h
        cases heq
        exact List.forall_mem_cons.2 ⟨hv, held_of_readItems hread⟩
      · cases h

theorem held_of_readMembers : ∀ {fuel levels : Nat} {x rest : Text}
    {members : List (String × Json)}, readMembers fuel levels x = .ok (members, rest) →
      ∀ m ∈ members, Held levels m.2
  | 0, _, _, _, _, h => by cases h
  | fuel + 1, levels, x, rest, members, h => by
    unfold readMembers at h
    split at h
    · cases h
    · split at h
      · cases h
      split at h
      · cases h
      split at h
      · cases h
      · next hvalue =>
        have hv := (readAt_of_readValue hvalue).held
        split at h
        · cases h
        · cases h
          exact List.forall_mem_singleton.2 hv
        · obtain ⟨y, hread, heq⟩ := map_eq_ok.1 h
          cases heq
          exact List.forall_mem_cons.2 ⟨hv, held_of_readMembers hread⟩
        · cases h
    · cases h

end

end ClusterConsole.Json
