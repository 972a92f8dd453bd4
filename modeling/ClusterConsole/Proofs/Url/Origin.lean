import ClusterConsole.Proofs.Url.Join

/-! The server that a URL leads to. A reference keeps it as long as it has no scheme of its own
and does not start with two slashes; a backslash counts as a slash. -/

namespace ClusterConsole

/-- A server, and the scheme in which it is spoken to. -/
structure Origin where
  scheme : List Char
  host : Option Host
  port : Option Nat
  deriving DecidableEq, Repr

namespace Url

variable {base u : Url} {scheme s : List Char} {r : Reference}

def origin (u : Url) : Origin :=
  ⟨u.scheme, u.authority.map Authority.host, u.authority.bind Authority.port⟩

/-- At the start of the text stands a server, after two slashes. -/
def startsWithServer (s : List Char) : Bool := 2 ≤ (s.takeWhile isSlash).length

/-- Whether a reference names its server itself. A special scheme that the base has too says
nothing. -/
def namesServer (base : Url) (s : List Char) : Bool :=
  let main := (Reference.ofText s).main
  match splitScheme main with
  | some (scheme, rest) =>
    !(isSpecialScheme scheme && base.scheme == scheme) || startsWithServer (clean rest)
  | none => startsWithServer (clean main)

/-! ### References to the same server -/

theorem origin_relative (h : relative base s r = .ok u) (hs : startsWithServer s = false) :
    u.origin = base.origin := by
  have hlength : ¬ 2 ≤ (s.takeWhile isSlash).length := of_decide_eq_false hs
  unfold relative at h
  split at h
  · cases h
    rfl
  · split at h
    · split at h
      · next after htext =>
        have hslashes : 2 ≤ (('/' :: '/' :: after).takeWhile isSlash).length := by
          rw [List.takeWhile_cons_of_pos (by decide), List.takeWhile_cons_of_pos (by decide)]
          simp
        exact absurd (htext ▸ hslashes) hlength
      · cases h
        rfl
    · cases h
      rfl

/-! ### Files -/

theorem scheme_fileWithHost (h : fileWithHost s r = .ok u) : u.scheme = "file".toList := by
  unfold fileWithHost at h
  simp only [bind, Except.bind, pure, Except.pure] at h
  split at h
  · cases h
    rfl
  · split at h
    · cases h
    · split at h
      · cases h
        rfl
      · cases h
        rfl

theorem isFileScheme_iff : isFileScheme scheme = true ↔ scheme = "file".toList := beq_iff_eq

/-- What is read as a file is one. -/
theorem scheme_file {base : Option Url} (hb : ∀ b ∈ base, b.scheme = "file".toList)
    (h : file base s r = .ok u) : u.scheme = "file".toList := by
  unfold file at h
  simp only at h
  split at h
  · split at h
    · next b =>
      cases h
      exact hb b rfl
    · cases h
      rfl
  · split at h
    · split at h
      · exact scheme_fileWithHost h
      · cases h
        rfl
    · split at h
      · next b =>
        split at h
        · cases h
          rfl
        · cases h
          rfl
      · cases h
        rfl

/-! ### Any reference -/

theorem origin_reference (h : reference base r = .ok u) (hu : isFileScheme u.scheme = false)
    (hs : startsWithServer (clean r.main) = false) : u.origin = base.origin := by
  unfold reference at h
  split at h
  · split at h
    · cases h
      rfl
    · cases h
  · split at h
    · next hfile =>
      have hscheme := scheme_file (by simpa using isFileScheme_iff.1 hfile) h
      rw [isFileScheme_iff.2 hscheme] at hu
      cases hu
    · exact origin_relative h hs

/-- What a reference without a fragment leads from, unless it leads to a file. -/
theorem base_of_reference (h : reference base r = .ok u) (hu : isFileScheme u.scheme = false)
    (hr : r.fragment = none) :
    (∃ segments, base.path = .rooted segments) ∧ isFileScheme base.scheme = false := by
  unfold reference at h
  split at h
  · rw [hr, Option.isSome_none, Bool.and_false, if_neg Bool.false_ne_true] at h
    cases h
  · next segments hpath =>
    split at h
    · next hfile =>
      have hscheme := scheme_file (by simpa using isFileScheme_iff.1 hfile) h
      rw [isFileScheme_iff.2 hscheme] at hu
      cases hu
    · next hfile => exact ⟨⟨segments, hpath⟩, eq_false_of_ne_true hfile⟩

/-- A reference that does not name a server leads to the server of the base, or to a file. -/
theorem origin_join {text : String} (h : base.join text = .ok u)
    (hu : isFileScheme u.scheme = false) (hs : base.namesServer text.toList = false) :
    u.origin = base.origin := by
  unfold join resolve at h
  unfold namesServer at hs
  simp only at h hs
  split at h
  · next scheme rest hsplit =>
    rw [hsplit] at hs
    obtain ⟨hsame, hrest⟩ := Bool.or_eq_false_iff.1 hs
    rw [Bool.not_eq_false', Bool.and_eq_true, beq_iff_eq] at hsame
    split at h
    · have hscheme : u.scheme = "file".toList := by
        refine scheme_file (fun b hb => ?_) h
        exact isFileScheme_iff.1 (Option.mem_filter_iff.1 hb).2
      rw [isFileScheme_iff.2 hscheme] at hu
      cases hu
    · have hlength : ¬ 2 ≤ ((clean rest).takeWhile isSlash).length := of_decide_eq_false hrest
      unfold absolute at h
      rw [if_pos hsame.1] at h
      simp only [hsame.2, true_and, if_pos (Nat.lt_of_not_le hlength)] at h
      exact origin_relative h hrest
  · next hsplit =>
    rw [hsplit] at hs
    exact origin_reference h hu hs

end Url

end ClusterConsole
