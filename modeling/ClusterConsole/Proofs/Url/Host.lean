import ClusterConsole.Proofs.Url.Groups
import ClusterConsole.Url.Parse

/-! Hosts as they are printed. Reading a host leaves a name in lower case, four octets, or eight
groups, and each of them is read again as what it is; so is what stands before a port. -/

namespace ClusterConsole.Host

variable {s t : List Char} {c : Char} {host : Host} {groups : List UInt16}

/-! ### Names -/

/-- A name as it is printed: in lower case, and with nothing that is decoded or refused. -/
structure IsPlainName (s : List Char) : Prop where
  ascii : ∀ c ∈ s, c.toNat < 128
  allowed : ∀ c ∈ s, isForbiddenInName c = false
  lower : ∀ c ∈ s, c.toLower = c
  labels : isName (splitDots s) = true
  nonempty : s ≠ []

/-- What holds of each of the 128 characters of ASCII. -/
theorem of_ascii {p : Char → Prop} (h : ∀ n < 128, p (Char.ofNat n)) (hc : c.toNat < 128) : p c :=
  Char.ofNat_toNat c ▸ h c.toNat hc

theorem toLower_ascii (hc : c.toNat < 128) :
    c.toLower.toLower = c.toLower ∧ c.toLower.toNat < 128 ∧
      (isForbiddenInName c = false → isForbiddenInName c.toLower = false) := by
  revert hc
  exact of_ascii (p := fun c => c.toLower.toLower = c.toLower ∧ c.toLower.toNat < 128 ∧
    (isForbiddenInName c = false → isForbiddenInName c.toLower = false)) (by decide +kernel)

theorem hexValue?_lt {n : Nat} (h : Percent.hexValue? c = some n) : n < 16 := by
  have hle {d : Char} (hd : c ≤ d) : c.toNat ≤ d.toNat := hd
  simp only [Percent.hexValue?, Bool.and_eq_true, decide_eq_true_eq] at h
  split at h
  · next hc =>
    have hlt : c.toNat ≤ 57 := hle hc.2
    cases h
    omega
  · split at h
    · next hc =>
      have hlt : c.toNat ≤ 70 := hle hc.2
      cases h
      omega
    · split at h
      · next hc =>
        have hlt : c.toNat ≤ 102 := hle hc.2
        cases h
        omega
      · cases h
theorem toNat_ofNat_ascii : ∀ n < 128, (Char.ofNat n).toNat < 128 := by decide

theorem ascii_of_decodeAscii? (h : Percent.decodeAscii? s = some t) : ∀ c ∈ t, c.toNat < 128 := by
  fun_induction Percent.decodeAscii? s generalizing t with
  | case1 => cases h; nofun
  | case2 a b r x y hb ha hlt ih =>
    obtain ⟨rest, hrest, rfl⟩ := Option.map_eq_some_iff.1 h
    have hy := hexValue?_lt hb
    exact List.forall_mem_cons.2 ⟨toNat_ofNat_ascii _ (by omega), ih hrest⟩
  | case3 => cases h
  | case4 a b r hdigits ih =>
    obtain ⟨rest, hrest, rfl⟩ := Option.map_eq_some_iff.1 h
    exact List.forall_mem_cons.2 ⟨by decide, ih hrest⟩
  | case5 c r hescape hc ih =>
    obtain ⟨rest, hrest, rfl⟩ := Option.map_eq_some_iff.1 h
    exact List.forall_mem_cons.2 ⟨hc, ih hrest⟩
  | case6 => cases h

/-- Without a percent sign there is nothing to decode. -/
theorem decodeAscii?_eq (hascii : ∀ c ∈ s, c.toNat < 128) (hpercent : '%' ∉ s) :
    Percent.decodeAscii? s = some s := by
  induction s with
  | nil => rfl
  | cons c s ih =>
    obtain ⟨hc, hs⟩ := List.forall_mem_cons.1 hascii
    obtain ⟨hne, hrest⟩ := not_or.1 (mt List.mem_cons.2 hpercent)
    rw [Percent.decodeAscii?.eq_def]
    split
    · next h => cases h
    · next h => exact absurd (List.cons.inj h).1.symm hne
    · next h =>
      obtain ⟨rfl, rfl⟩ := List.cons.inj h
      rw [if_pos hc, ih hs hrest, Option.map_some]

theorem isPlainName_lowered (hdecoded : Percent.decodeAscii? s = some t)
    (hallowed : t.any isForbiddenInName = false)
    (hname : isName (splitDots (t.map Char.toLower)) = true)
    (hne : (t.map Char.toLower).isEmpty = false) : IsPlainName (t.map Char.toLower) := by
  have hascii := ascii_of_decodeAscii? hdecoded
  refine ⟨?_, ?_, ?_, hname, by simpa using hne⟩
  all_goals
    intro c hc
    obtain ⟨d, hd, rfl⟩ := List.mem_map.1 hc
    obtain ⟨hidem, hlt, hforbidden⟩ := toLower_ascii (hascii d hd)
  · exact hlt
  · exact hforbidden (by simpa using List.any_eq_false.1 hallowed d hd)
  · exact hidem

/-- A plain name is read as it is, or as the address that it ends in. -/
theorem IsPlainName.parseSpecial (h : IsPlainName s) :
    parseSpecial s = if endsInNumber s then ipv4? s else .ok (.name s) := by
  have hpercent : '%' ∉ s := fun hmem => nomatch h.allowed _ hmem
  have hbracket : bracketed? s = none := by
    unfold bracketed?
    split
    · exact nomatch h.allowed '[' List.mem_cons_self
    · rfl
  have hallowed : s.any isForbiddenInName = false := List.any_eq_false.2 (by simpa using h.allowed)
  have hlower : s.map Char.toLower = s := List.map_congr_left h.lower |>.trans (List.map_id s)
  have hempty : s.isEmpty = false := by simpa using h.nonempty
  rw [Host.parseSpecial, hbracket]
  simp only [decodeAscii?_eq h.ascii hpercent, hallowed, hlower, h.labels, hempty, Bool.not_true,
    Bool.false_eq_true, if_false]

/-! ### Octets -/

/-- A text of decimal digits. -/
def IsDecimal (s : List Char) : Prop := ∀ c ∈ s, ∃ d < 10, c = Nat.digitChar d

theorem isDecimal_decimal (n : Nat) : IsDecimal (decimal n) :=
  fun _ hc => exists_of_mem_toDigits (by decide) hc

theorem IsDecimal.not_mem (h : IsDecimal s) (hc : ∀ d < 10, c ≠ Nat.digitChar d) : c ∉ s := by
  intro hmem
  obtain ⟨d, hd, hdigit⟩ := h c hmem
  exact hc d hd hdigit

theorem not_rightToLeft_digitChar : ∀ d < 10, isRightToLeft (Nat.digitChar d) = false := by
  decide +kernel

/-- Numbers are labels of a name. -/
theorem isName_of_isDecimal {labels : List (List Char)} (h : ∀ label ∈ labels, IsDecimal label) :
    isName labels = true := by
  have hdecode : labels.mapM decodeLabel? = some labels := by
    induction labels with
    | nil => rfl
    | cons label rest ih =>
      obtain ⟨hlabel, hrest⟩ := List.forall_mem_cons.1 h
      have hmark : punycodeMark.isPrefixOf label = false := by
        refine eq_false_of_ne_true fun hprefix => ?_
        exact hlabel.not_mem (c := 'x') (by decide)
          ((List.isPrefixOf_iff_prefix.1 hprefix).subset List.mem_cons_self)
      rw [List.mapM_cons, ih hrest, decodeLabel?, hmark]
      rfl
  have hdirection : labels.any (·.any isRightToLeft) = false := by
    refine List.any_eq_false.2 fun label hlabel => ?_
    rw [List.any_eq_true]
    rintro ⟨c, hc, hright⟩
    obtain ⟨d, hd, rfl⟩ := h label hlabel c hc
    rw [not_rightToLeft_digitChar d hd] at hright
    cases hright
  simp [isName, hdecode, hdirection]

theorem addressPart?_decimal : ∀ n < 256, addressPart? (decimal n) = some n := by decide +kernel

theorem decimal_ne_nil (n : Nat) : decimal n ≠ [] := Nat.toDigits_ne_nil

theorem isNumber_decimal (n : Nat) : endsInNumber.isNumber (decimal n) = true := by
  have hdigits : (decimal n).all Char.isDigit = true :=
    List.all_eq_true.2 fun c hc => Nat.isDigit_of_mem_toDigits (by decide) (by decide) hc
  simp [endsInNumber.isNumber, decimal_ne_nil, hdigits]

/-- The texts of four octets. -/
def octetTexts (a b c d : UInt8) : List (List Char) :=
  [a, b, c, d].map fun octet => decimal octet.toNat

theorem render_ipv4 (a b c d : UInt8) :
    (ipv4 a b c d).render = List.intercalate ['.'] (octetTexts a b c d) := by
  simp [render, octetTexts, List.intercalate]

theorem splitDots_ipv4 (a b c d : UInt8) :
    splitDots (ipv4 a b c d).render = octetTexts a b c d := by
  rw [render_ipv4, splitDots, List.splitOn_intercalate '.' _ (by simp [octetTexts])]
  intro text htext
  obtain ⟨octet, -, rfl⟩ := List.mem_map.1 htext
  exact (isDecimal_decimal _).not_mem (by decide)

theorem mem_render_ipv4 {a b c d : UInt8} {x : Char} (hx : x ∈ (ipv4 a b c d).render) :
    x = '.' ∨ ∃ n < 10, x = Nat.digitChar n := by
  simp only [render, List.mem_append, List.mem_cons] at hx
  have hdigit (octet : UInt8) (h : x ∈ decimal octet.toNat) :
      x = '.' ∨ ∃ n < 10, x = Nat.digitChar n := .inr (isDecimal_decimal _ x h)
  rcases hx with ((hx | hx | hx) | hx | hx) | hx | hx
  · exact hdigit a hx
  · exact .inl hx
  · exact hdigit b hx
  · exact .inl hx
  · exact hdigit c hx
  · exact .inl hx
  · exact hdigit d hx

theorem plain_digitChar : ∀ n < 10, (Nat.digitChar n).toNat < 128 ∧
    isForbiddenInName (Nat.digitChar n) = false ∧ (Nat.digitChar n).toLower = Nat.digitChar n := by
  decide

theorem isPlainName_ipv4 (a b c d : UInt8) : IsPlainName (ipv4 a b c d).render := by
  have heach (x : Char) (hx : x ∈ (ipv4 a b c d).render) :
      x.toNat < 128 ∧ isForbiddenInName x = false ∧ x.toLower = x := by
    rcases mem_render_ipv4 hx with rfl | ⟨n, hn, rfl⟩
    · decide
    · exact plain_digitChar n hn
  have hlabels : isName (splitDots (ipv4 a b c d).render) = true := by
    rw [splitDots_ipv4]
    refine isName_of_isDecimal fun label hlabel => ?_
    obtain ⟨octet, -, rfl⟩ := List.mem_map.1 hlabel
    exact isDecimal_decimal _
  exact ⟨fun x hx => (heach x hx).1, fun x hx => (heach x hx).2.1, fun x hx => (heach x hx).2.2,
    hlabels, by simp [render]⟩

/-- The octets of the number that they make up. -/
theorem ofNat_octets (a b c d : UInt8) :
    let value := a.toNat * 16777216 + b.toNat * 65536 + c.toNat * 256 + d.toNat
    UInt8.ofNat (value / 16777216) = a ∧ UInt8.ofNat (value / 65536) = b ∧
      UInt8.ofNat (value / 256) = c := by
  have ha := a.toNat_lt
  have hb := b.toNat_lt
  have hc := c.toNat_lt
  have hd := d.toNat_lt
  simp only [← UInt8.toNat_inj, UInt8.toNat_ofNat']
  omega

theorem endsInNumber_ipv4 (a b c d : UInt8) : endsInNumber (ipv4 a b c d).render = true := by
  rw [endsInNumber, splitDots_ipv4]
  cases hlast : decimal d.toNat with
  | nil => exact absurd hlast (decimal_ne_nil _)
  | cons x rest => simpa [octetTexts, hlast] using isNumber_decimal d.toNat

theorem ipv4?_render (a b c d : UInt8) : ipv4? (ipv4 a b c d).render = .ok (ipv4 a b c d) := by
  have hparts : nameParts (ipv4 a b c d).render = octetTexts a b c d := by
    simp [nameParts, splitDots_ipv4, octetTexts, decimal_ne_nil]
  have hnumbers : (octetTexts a b c d).mapM addressPart? =
      some [a.toNat, b.toNat, c.toNat, d.toNat] := by
    have hpart (octet : UInt8) : addressPart? (decimal octet.toNat) = some octet.toNat :=
      addressPart?_decimal _ octet.toNat_lt
    simp [octetTexts, hpart]
  have hfit : ¬ ((255 < c.toNat ∨ 255 < b.toNat ∨ 255 < a.toNat) ∨ 256 ≤ d.toNat) := by
    have ha := a.toNat_lt
    have hb := b.toNat_lt
    have hc := c.toNat_lt
    have hd := d.toNat_lt
    omega
  obtain ⟨hfirst, hsecond, hthird⟩ := ofNat_octets a b c d
  rw [ipv4?, hparts, hnumbers]
  simp [hfit, hfirst, hsecond, hthird]

theorem parseSpecial_ipv4 (a b c d : UInt8) :
    parseSpecial (ipv4 a b c d).render = .ok (ipv4 a b c d) := by
  rw [(isPlainName_ipv4 a b c d).parseSpecial, if_pos (endsInNumber_ipv4 a b c d), ipv4?_render]

/-! ### Plain hosts -/

/-- A host as it is printed for a special scheme. -/
inductive Plain : Host → Prop
  | name {text : List Char} (h : IsPlainName text) (hends : endsInNumber text = false) :
    Plain (.name text)
  | ipv4 (a b c d : UInt8) : Plain (.ipv4 a b c d)
  | ipv6 {parts : List UInt16} (h : parts.length = 8) : Plain (.ipv6 parts)

theorem plain_ipv6? (h : ipv6? s = .ok host) : host.Plain := by
  unfold ipv6? at h
  simp only at h
  split at h
  · next hread =>
    cases h
    refine .ipv6 ?_
    split at hread
    · exact length_readGroups hread
    · cases hread
    · cases hread
    · cases hread
    · exact length_readGroups hread
  · cases h

theorem plain_ipv4? (h : ipv4? s = .ok host) : host.Plain := by
  unfold ipv4? at h
  split at h
  · cases h
  · split at h
    · cases h
    · split at h
      · cases h
      · cases h
        exact .ipv4 _ _ _ _

/-- A host that is read is plain. -/
theorem plain_parseSpecial (h : parseSpecial s = .ok host) : host.Plain := by
  unfold parseSpecial at h
  split at h
  · next hbracket =>
    unfold bracketed? at hbracket
    split at hbracket
    · split at hbracket
      · cases hbracket
        exact plain_ipv6? h
      · cases hbracket
        cases h
    · cases hbracket
  · split at h
    · cases h
    · next decoded hdecoded =>
      split at h
      · cases h
      · next hallowed =>
        simp only at h
        split at h
        · cases h
        · next hname =>
          split at h
          · cases h
          · next hne =>
            split at h
            · exact plain_ipv4? h
            · next hends =>
              cases h
              refine .name (isPlainName_lowered hdecoded ?_ ?_ ?_) (eq_false_of_ne_true hends)
              · exact eq_false_of_ne_true hallowed
              · simpa using hname
              · exact eq_false_of_ne_true hne

/-- A plain host that is printed is read as the host it is. -/
theorem Plain.parseSpecial (h : host.Plain) : parseSpecial host.render = .ok host := by
  cases h with
  | name h hends => exact h.parseSpecial.trans (if_neg (by simp [hends]))
  | ipv4 a b c d => exact parseSpecial_ipv4 a b c d
  | @ipv6 parts h =>
    have hbracket : bracketed? (Host.ipv6 parts).render = some (ipv6? (renderGroups parts)) := by
      simp [render, bracketed?]
    rw [Host.parseSpecial, hbracket, ipv6?_renderGroups h]

/-! ### The text of a host -/

theorem not_forbidden_digitChar : ∀ d < 16, isForbiddenInName (Nat.digitChar d) = false := by decide

/-- Only a host in brackets holds something that no name may hold. -/
theorem Plain.mem_render (h : host.Plain) (hc : c ∈ host.render) :
    isForbiddenInName c = false ∨ c = ':' ∨ c = '[' ∨ c = ']' := by
  cases h with
  | name h hends => exact .inl (h.allowed c hc)
  | ipv4 a b c d => exact .inl ((isPlainName_ipv4 a b c d).allowed _ hc)
  | ipv6 h =>
    simp only [render, List.mem_append, List.mem_cons, List.not_mem_nil, or_false] at hc
    rcases hc with (rfl | hc) | rfl
    · simp
    · rcases mem_renderGroups hc with ⟨d, hd, rfl⟩ | rfl
      · exact .inl (not_forbidden_digitChar d hd)
      · simp
    · simp

theorem Plain.render_ne_nil (h : host.Plain) : host.render ≠ [] := by
  cases h with
  | name h hends => exact h.nonempty
  | ipv4 a b c d => exact (isPlainName_ipv4 a b c d).nonempty
  | ipv6 h => simp [render]

theorem ne_of_not_forbidden (h : isForbiddenInName c = false) : c ≠ ':' ∧ c ≠ '[' ∧ c ≠ ']' := by
  refine ⟨?_, ?_, ?_⟩
  all_goals
    rintro rfl
    cases h

theorem cutHost_append (h : ∀ c ∈ s, isForbiddenInName c = false) (t : List Char) :
    Url.cutHost false (s ++ t) = (s ++ (Url.cutHost false t).1, (Url.cutHost false t).2) := by
  induction s with
  | nil => rfl
  | cons c s ih =>
    obtain ⟨hc, hs⟩ := List.forall_mem_cons.1 h
    obtain ⟨hcolon, hopen, hclose⟩ := ne_of_not_forbidden hc
    rw [List.cons_append, Url.cutHost, if_neg (by simp [hcolon])]
    simp only [if_neg hopen, if_neg hclose, ih hs]
    rfl

theorem cutHost_brackets (h : ∀ c ∈ s, c ≠ '[' ∧ c ≠ ']') (t : List Char) :
    Url.cutHost true (s ++ ']' :: t) =
      (s ++ ']' :: (Url.cutHost false t).1, (Url.cutHost false t).2) := by
  induction s with
  | nil => simp [Url.cutHost]
  | cons c s ih =>
    obtain ⟨⟨hopen, hclose⟩, hs⟩ := List.forall_mem_cons.1 h
    rw [List.cons_append, Url.cutHost, if_neg (by simp)]
    simp only [if_neg hopen, if_neg hclose, ih hs]
    rfl

/-- A host is not cut, whatever follows it. -/
theorem Plain.cutHost (h : host.Plain) (t : List Char) :
    Url.cutHost false (host.render ++ t) =
      (host.render ++ (Url.cutHost false t).1, (Url.cutHost false t).2) := by
  cases h with
  | name h hends => exact cutHost_append h.allowed t
  | ipv4 a b c d => exact cutHost_append (isPlainName_ipv4 a b c d).allowed t
  | @ipv6 parts h =>
    have hinside (c : Char) (hc : c ∈ renderGroups parts) : c ≠ '[' ∧ c ≠ ']' := by
      rcases mem_renderGroups hc with ⟨d, hd, rfl⟩ | rfl
      · exact (ne_of_not_forbidden (not_forbidden_digitChar d hd)).2
      · decide
    have hprinted : (Host.ipv6 parts).render ++ t = '[' :: (renderGroups parts ++ ']' :: t) := by
      simp [render]
    rw [hprinted, Url.cutHost, if_neg (by decide)]
    simp [cutHost_brackets hinside, render]

end ClusterConsole.Host
