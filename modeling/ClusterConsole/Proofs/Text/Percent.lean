import Mathlib.Data.Char
import ClusterConsole.Text.Percent
import ClusterConsole.Url.Host

/-! What percent encoding leaves of a text. An escape holds no character that is escaped itself,
so that an encoded text is left as it is when it is encoded again. Digits are read back in any
base up to sixteen. -/

namespace ClusterConsole

namespace Percent

variable {escaped : Char → Bool} {s : List Char} {c d : Char}

/-- No character of the text has to be escaped. -/
def Clear (escaped : Char → Bool) (s : List Char) : Prop := ∀ c ∈ s, escaped c = false

instance : Decidable (Clear escaped s) := List.decidableBAll (escaped · = false) s

theorem Clear.not_mem (h : Clear escaped s) (hc : escaped c = true) : c ∉ s :=
  fun hmem => Bool.false_ne_true ((h c hmem).symm.trans hc)

/-- A character that escapes are made of. -/
def InEscape (c : Char) : Prop := c = '%' ∨ ∃ n < 16, c = upperHexDigit n

/-- Escapes need not be escaped. -/
def KeepsEscapes (escaped : Char → Bool) : Prop :=
  escaped '%' = false ∧ ∀ n < 16, escaped (upperHexDigit n) = false

instance : Decidable (KeepsEscapes escaped) :=
  inferInstanceAs (Decidable (_ ∧ ∀ n < 16, escaped (upperHexDigit n) = false))

theorem KeepsEscapes.of_inEscape (h : KeepsEscapes escaped) (hc : InEscape c) :
    escaped c = false := by
  rcases hc with rfl | ⟨n, hn, rfl⟩
  · exact h.1
  · exact h.2 n hn

theorem inEscape_of_mem (h : c ∈ escapeChar d) : InEscape c := by
  obtain ⟨b, -, hb⟩ := List.mem_flatMap.1 h
  have hlt : b.toNat < 256 := b.toNat_lt
  simp only [escapeByte, List.mem_cons, List.not_mem_nil, or_false] at hb
  rcases hb with rfl | rfl | rfl
  · exact .inl rfl
  · exact .inr ⟨_, by omega, rfl⟩
  · exact .inr ⟨_, by omega, rfl⟩

theorem mem_encode (h : c ∈ encode escaped s) : InEscape c ∨ c ∈ s ∧ escaped c = false := by
  obtain ⟨d, hd, hc⟩ := List.mem_flatMap.1 h
  split at hc
  · exact .inl (inEscape_of_mem hc)
  · next hno =>
    obtain rfl : c = d := List.mem_singleton.1 hc
    exact .inr ⟨hd, eq_false_of_ne_true hno⟩

theorem clear_encode (h : KeepsEscapes escaped) (s : List Char) :
    Clear escaped (encode escaped s) :=
  fun _ hc => (mem_encode hc).elim h.of_inEscape And.right

theorem encode_of_clear (h : Clear escaped s) : encode escaped s = s := by
  induction s with
  | nil => rfl
  | cons c s ih =>
    obtain ⟨hc, hs⟩ := List.forall_mem_cons.1 h
    rw [encode, List.flatMap_cons, hc]
    exact congrArg (c :: ·) (ih hs)

/-- Blanks are escaped by every part of a URL. -/
theorem inFragment_of_blank (h : c ≤ ' ') : inFragment c = true := by
  rcases lt_or_eq_of_le h with hlt | rfl
  · simp [inFragment, isControl, hlt]
  · rfl

theorem inPath_of_blank (h : c ≤ ' ') : inPath c = true := by
  simp [inPath, inFragment_of_blank h]

theorem inQuery_of_blank (h : c ≤ ' ') : inQuery c = true := by
  rcases lt_or_eq_of_le h with hlt | rfl
  · simp [inQuery, isControl, hlt]
  · rfl

end Percent

/-! ### Digits -/

namespace Host

variable {base n : Nat} {s : List Char}

theorem hexValue?_digitChar : ∀ n < 16, Percent.hexValue? n.digitChar = some n := by decide

theorem digitsValue?_concat (base : Nat) (s : List Char) {c : Char} {d : Nat}
    (hc : Percent.hexValue? c = some d) (hd : d < base) :
    digitsValue? base (s ++ [c]) = (digitsValue? base s).map (base * · + d) := by
  unfold digitsValue?
  rw [List.foldl_append, List.foldl_cons, List.foldl_nil, hc]
  cases List.foldl _ (some 0) s with
  | none => rfl
  | some n => simp [hd]

theorem digitsValue?_toDigits (hbase : 1 < base) (hsixteen : base ≤ 16) (n : Nat) :
    digitsValue? base (Nat.toDigits base n) = some n := by
  induction n using Nat.strongRecOn with
  | ind n ih =>
    by_cases hn : n < base
    · have hc : Percent.hexValue? n.digitChar = some n := hexValue?_digitChar n (by omega)
      rw [Nat.toDigits_of_lt_base hn, ← List.nil_append [n.digitChar],
        digitsValue?_concat base [] hc hn]
      simp [digitsValue?]
    · have hmod : n % base < base := Nat.mod_lt n (by omega)
      have hc : Percent.hexValue? (n % base).digitChar = some (n % base) :=
        hexValue?_digitChar _ (by omega)
      have hdiv : n / base < n := Nat.div_lt_self (by omega) hbase
      rw [Nat.toDigits_of_base_le hbase (by omega), digitsValue?_concat base _ hc hmod,
        ih _ hdiv, Option.map_some, Nat.div_add_mod]

/-- The digits are such, and there is one at least. -/
theorem exists_of_mem_toDigits (hbase : 1 < base) {c : Char} (h : c ∈ Nat.toDigits base n) :
    ∃ d < base, c = d.digitChar := by
  induction n using Nat.strongRecOn with
  | ind n ih =>
    by_cases hn : n < base
    · rw [Nat.toDigits_of_lt_base hn, List.mem_singleton] at h
      exact ⟨n, hn, h⟩
    · rw [Nat.toDigits_of_base_le hbase (by omega), List.mem_append, List.mem_singleton] at h
      rcases h with h | rfl
      · exact ih _ (Nat.div_lt_self (by omega) hbase) h
      · exact ⟨n % base, Nat.mod_lt n (by omega), rfl⟩

end Host

end ClusterConsole
