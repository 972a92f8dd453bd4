import Mathlib.Data.List.TakeDrop
import ClusterConsole.Proofs.Url.Host

/-! Authorities as they are printed. The user info is encoded, the host is plain, and a port is
written only where it is not the scheme's own; each part is found again where the mark after it
stands. -/

namespace ClusterConsole

/-! ### Cutting -/

namespace Url

variable {s : List Char} {mark : Char}

theorem cut_of_not_mem (h : mark ∉ s) : cut mark s = (s, none) := by
  induction s with
  | nil => rfl
  | cons c s ih =>
    obtain ⟨hne, hrest⟩ := not_or.1 (mt List.mem_cons.2 h)
    rw [cut, if_neg (Ne.symm hne), ih hrest]

theorem cut_append (h : mark ∉ s) (t : List Char) : cut mark (s ++ mark :: t) = (s, some t) := by
  induction s with
  | nil => rw [List.nil_append, cut, if_pos rfl]
  | cons c s ih =>
    obtain ⟨hne, hrest⟩ := not_or.1 (mt List.mem_cons.2 h)
    rw [List.cons_append, cut, if_neg (Ne.symm hne), ih hrest]

theorem cutUserInfo_of_not_mem (h : '@' ∉ s) : cutUserInfo s = (none, s) := by
  have hparts : s.splitOn '@' = [s] := by
    refine List.splitOnP_eq_singleton fun c hc => ?_
    exact beq_eq_false_iff_ne.2 fun hat => h (hat ▸ hc)
  simp [cutUserInfo, hparts]

theorem cutUserInfo_append (h : '@' ∉ s) {t : List Char} (ht : '@' ∉ t) :
    cutUserInfo (s ++ '@' :: t) = (some s, t) := by
  have hno {l : List Char} (hl : '@' ∉ l) (c : Char) (hc : c ∈ l) : (c == '@') = false :=
    beq_eq_false_iff_ne.2 fun hat => hl (hat ▸ hc)
  have hparts : (s ++ '@' :: t).splitOn '@' = [s, t] := by
    rw [List.splitOn, List.splitOnP_append_cons_of_forall_mem (hno h) '@' (by rfl),
      List.splitOnP_eq_singleton (hno ht)]
  simp [cutUserInfo, hparts, List.intercalate]

end Url

namespace Authority

open Percent (Clear)

variable {a : Authority} {scheme : List Char} {c : Char}

/-- An authority as it is printed after a special scheme. -/
structure Plain (scheme : List Char) (a : Authority) : Prop where
  username : Clear Percent.inUserInfo a.username
  password : Clear Percent.inUserInfo a.password
  host : a.host.Plain
  port : ∀ p ∈ a.port, p ≤ 65535 ∧ defaultPort? scheme ≠ some p

/-! ### What is read -/

theorem keepsEscapes_inUserInfo : Percent.KeepsEscapes Percent.inUserInfo := by decide

theorem port_of_readPort {s : List Char} {port : Option Nat}
    (h : Url.readPort scheme s = .ok port) :
    ∀ p ∈ port, p ≤ 65535 ∧ defaultPort? scheme ≠ some p := by
  unfold Url.readPort at h
  split at h
  · simp only at h
    split at h
    · cases h
    · next hfit =>
      split at h
      · cases h
        nofun
      · next hown =>
        cases h
        rintro p ⟨⟩
        exact ⟨Nat.le_of_not_lt hfit, by simp at hown; exact hown.2⟩
  · cases h

theorem plain_readHost (hspecial : isSpecialScheme scheme = true) {s : List Char} {host : Host}
    (h : Url.readHost scheme s = .ok host) : host.Plain := by
  rw [Url.readHost, if_pos hspecial] at h
  split at h
  · cases h
  · exact Host.plain_parseSpecial h

/-- An authority that is read is plain. -/
theorem plain_readAuthority (hspecial : isSpecialScheme scheme = true) {last : Bool}
    {s left : List Char} (h : Url.readAuthority scheme last s = .ok (a, left)) :
    a.Plain scheme := by
  unfold Url.readAuthority at h
  simp only [bind, Except.bind, pure, Except.pure, throw, throwThe, MonadExceptOf.throw] at h
  split at h
  · cases h
  · split at h
    · cases h
    · next host hhost =>
      split at h
      · cases h
      · split at h
        · cases h
        · next port hport =>
          split at h
          · cases h
          · cases h
            exact ⟨Percent.clear_encode keepsEscapes_inUserInfo _,
              Percent.clear_encode keepsEscapes_inUserInfo _, plain_readHost hspecial hhost,
              port_of_readPort hport⟩

/-! ### What is printed -/

/-- A character of a host or a port. -/
theorem Plain.mem_server (h : a.Plain scheme) (hc : c ∈ a.host.render ++ a.renderPort) :
    Host.isForbiddenInName c = false ∨ c = ':' ∨ c = '[' ∨ c = ']' := by
  rcases List.mem_append.1 hc with hc | hc
  · exact h.host.mem_render hc
  · unfold renderPort at hc
    split at hc
    · cases hc
    · rcases List.mem_cons.1 hc with rfl | hc
      · simp
      · obtain ⟨d, hd, rfl⟩ := Host.exists_of_mem_toDigits (by decide) hc
        exact .inl (Host.not_forbidden_digitChar d (by omega))

theorem Plain.not_mem_server (h : a.Plain scheme) : '@' ∉ a.host.render ++ a.renderPort := by
  intro hc
  rcases h.mem_server hc with hno | hmark | hmark | hmark
  all_goals cases ‹_›

/-- The user info that is printed. -/
theorem Plain.cutUserInfo (h : a.Plain scheme) :
    ∃ info, Url.cutUserInfo a.render = (info, a.host.render ++ a.renderPort) ∧
      Url.readUserInfo (info.getD []) = (a.username, a.password) := by
  have hname : '@' ∉ a.username := h.username.not_mem rfl
  have hpassword : '@' ∉ a.password := h.password.not_mem rfl
  have hcolon : ':' ∉ a.username := h.username.not_mem rfl
  have hserver := h.not_mem_server
  have hencode := Percent.encode_of_clear h.username
  have hsecret := Percent.encode_of_clear h.password
  unfold Authority.render renderUserInfo
  rw [List.append_assoc]
  split
  · next hnone =>
    obtain ⟨husername, hempty⟩ : a.username = [] ∧ a.password = [] := by simpa using hnone
    exact ⟨none, Url.cutUserInfo_of_not_mem hserver, by rw [husername, hempty]; rfl⟩
  · split
    · next hempty =>
      refine ⟨some a.username, ?_, ?_⟩
      · rw [List.append_assoc]
        exact Url.cutUserInfo_append hname hserver
      · rw [List.isEmpty_iff.1 hempty] at hsecret ⊢
        simp [Url.readUserInfo, Url.cut_of_not_mem hcolon, hencode, hsecret]
    · refine ⟨some (a.username ++ ':' :: a.password), ?_, ?_⟩
      · rw [List.append_assoc]
        exact Url.cutUserInfo_append (by simp [hname, hpassword]) hserver
      · simp [Url.readUserInfo, Url.cut_append hcolon, hencode, hsecret]

/-- The port that is printed. -/
theorem Plain.readPort (h : a.Plain scheme) :
    ∃ port, Url.cutHost false (a.host.render ++ a.renderPort) = (a.host.render, port) ∧
      (∀ c ∈ port.getD [], c ≠ '\\') ∧ Url.readPort scheme (port.getD []) = .ok a.port := by
  rw [h.host.cutHost]
  unfold renderPort
  cases hport : a.port with
  | none => exact ⟨none, by simp [Url.cutHost], by simp, by simp [Url.readPort, Host.digitsValue?]⟩
  | some p =>
    obtain ⟨hfit, hown⟩ := h.port p hport
    have hdigits : (Host.decimal p).all Char.isDigit = true :=
      List.all_eq_true.2 fun c hc => Nat.isDigit_of_mem_toDigits (by decide) (by decide) hc
    have hvalue : Host.digitsValue? 10 (Host.decimal p) = some p :=
      Host.digitsValue?_toDigits (by decide) (by decide) p
    refine ⟨some (Host.decimal p), by simp [Url.cutHost], ?_, ?_⟩
    · intro c hc
      rintro rfl
      exact (Host.isDecimal_decimal p).not_mem (by decide) hc
    · simp [Url.readPort, hdigits, hvalue, Nat.not_lt.2 hfit, hown, Host.decimal_ne_nil]

/-- An authority that is printed is read as the authority it was. -/
theorem Plain.readAuthority (h : a.Plain scheme) (hspecial : isSpecialScheme scheme = true)
    (last : Bool) : Url.readAuthority scheme last a.render = .ok (a, []) := by
  obtain ⟨info, hcut, hinfo⟩ := h.cutUserInfo
  obtain ⟨port, hhost, hslash, hport⟩ := h.readPort
  have hne : a.host.render ++ a.renderPort ≠ [] := by simp [h.host.render_ne_nil]
  have hread : Url.readHost scheme a.host.render = .ok a.host := by
    rw [Url.readHost, if_pos hspecial, if_neg (by simp [h.host.render_ne_nil]), h.host.parseSpecial]
  have hname : a.host ≠ .name [] := by
    intro hempty
    exact h.host.render_ne_nil (by rw [hempty]; rfl)
  have hspan : (port.getD []).span (· != '\\') = (port.getD [], []) := by
    have hall : ∀ c ∈ port.getD [], (c != '\\') = true := fun c hc => bne_iff_ne.2 (hslash c hc)
    rw [List.span_eq_takeWhile_dropWhile, List.takeWhile_eq_self_iff.2 hall,
      List.dropWhile_eq_nil_iff.2 hall]
  unfold Url.readAuthority
  simp only [bind, Except.bind, pure, Except.pure, throw, throwThe, MonadExceptOf.throw, hcut,
    hinfo, hhost, hread, hname, hspan, hport, List.isEmpty_iff, hne, false_and, and_false, if_false]

/-! ### The characters of an authority -/

/-- What stands in no authority. -/
def isOutside (c : Char) : Bool := c ≤ ' ' || c == '/' || c == '\\' || c == '?' || c == '#'

theorem not_outside_of_allowed (h : Host.isForbiddenInName c = false) : isOutside c = false := by
  simp only [Host.isForbiddenInName, Bool.or_eq_false_iff] at h
  simp [isOutside, h]

theorem not_outside_of_userInfo (h : Percent.inUserInfo c = false) : isOutside c = false := by
  have hblank : ¬ c ≤ ' ' := by
    intro hblank
    simp [Percent.inUserInfo, Percent.inPath_of_blank hblank] at h
  simp only [Percent.inUserInfo, Percent.inPath, Bool.or_eq_false_iff] at h
  simp [isOutside, hblank, h]

theorem Plain.mem_userInfo (h : a.Plain scheme) (hc : c ∈ a.renderUserInfo) :
    Percent.inUserInfo c = false ∨ c = ':' ∨ c = '@' := by
  unfold renderUserInfo at hc
  split at hc
  · cases hc
  · split at hc
    · rcases List.mem_append.1 hc with hname | hat
      · exact .inl (h.username c hname)
      · exact .inr (.inr (List.mem_singleton.1 hat))
    · simp only [List.mem_append, List.mem_cons, List.not_mem_nil, or_false] at hc
      rcases hc with (hname | hcolon | hpassword) | hat
      · exact .inl (h.username c hname)
      · exact .inr (.inl hcolon)
      · exact .inl (h.password c hpassword)
      · exact .inr (.inr hat)

/-- An authority ends where it is printed to its end. -/
theorem Plain.clear (h : a.Plain scheme) : Clear isOutside a.render := by
  intro c hc
  rw [Authority.render, List.append_assoc, List.mem_append] at hc
  rcases hc with hc | hc
  · rcases h.mem_userInfo hc with hclear | rfl | rfl
    · exact not_outside_of_userInfo hclear
    · rfl
    · rfl
  · rcases h.mem_server hc with hallowed | rfl | rfl | rfl
    · exact not_outside_of_allowed hallowed
    · rfl
    · rfl
    · rfl

theorem Plain.render_ne_nil (h : a.Plain scheme) : a.render ≠ [] := by
  simp [Authority.render, h.host.render_ne_nil]

end Authority

end ClusterConsole
