import ClusterConsole.Route
import ClusterConsole.Url.Parse

/-! Where a reference leads. A URL with a special scheme has a rooted path, and so has every
URL that a reference leads to from it; from there a route leads to its page on the same
host. -/

namespace ClusterConsole.Url

variable {base u : Url} {scheme s : List Char} {r : Reference} {segments : List (List Char)}

/-! ### Rooted paths -/

/-- With a special scheme the path is rooted. -/
def Rooted (u : Url) : Prop :=
  isSpecialScheme u.scheme = true → ∃ segments, u.path = .rooted segments

theorem rooted_build {authority : Option Authority} :
    (build scheme authority (.rooted segments) r).Rooted := fun _ => ⟨segments, rfl⟩

theorem Rooted.keepPath (h : base.Rooted) (r : Reference) : (keepPath base r).Rooted := h

theorem rooted_withAuthority (h : withAuthority scheme s r = .ok u) : u.Rooted := by
  unfold withAuthority at h
  simp only [bind, Except.bind] at h
  split at h
  · cases h
  · cases h
    exact rooted_build

theorem Rooted.relative (hb : base.Rooted) (h : relative base s r = .ok u) : u.Rooted := by
  unfold Url.relative at h
  split at h
  · cases h
    exact hb.keepPath r
  · split at h
    · split at h
      · exact rooted_withAuthority h
      · split at h
        · exact rooted_withAuthority h
        · cases h
          exact rooted_build
    · cases h
      exact rooted_build

theorem rooted_fileWithHost (h : fileWithHost s r = .ok u) : u.Rooted := by
  unfold fileWithHost at h
  simp only [bind, Except.bind, pure, Except.pure] at h
  split at h
  · cases h
    exact rooted_build
  · split at h
    · cases h
    · split at h
      · cases h
        exact rooted_build
      · cases h
        exact rooted_build

theorem rooted_file {base : Option Url} (hb : ∀ b ∈ base, b.Rooted) (h : file base s r = .ok u) :
    u.Rooted := by
  unfold file at h
  simp only at h
  split at h
  · split at h
    · next b =>
      cases h
      exact (hb b rfl).keepPath r
    · cases h
      exact rooted_build
  · split at h
    · split at h
      · exact rooted_fileWithHost h
      · cases h
        exact rooted_build
    · split at h
      · split at h <;> cases h <;> exact rooted_build
      · cases h
        exact rooted_build

theorem rooted_absolute {base : Option Url} (hb : ∀ b ∈ base, b.Rooted)
    (h : absolute base scheme s r = .ok u) : u.Rooted := by
  unfold absolute at h
  split at h
  · split at h
    · next b =>
      split at h
      · exact (hb b rfl).relative h
      · exact rooted_withAuthority h
    · exact rooted_withAuthority h
  · next hs =>
    split at h
    · exact rooted_withAuthority h
    · cases h
      exact rooted_build
    · cases h
      exact fun hs' => absurd hs' hs

theorem Rooted.reference (hb : base.Rooted) (h : reference base r = .ok u) : u.Rooted := by
  unfold Url.reference at h
  split at h
  · split at h
    · cases h
      exact hb.keepPath r
    · cases h
  · split at h
    · exact rooted_file (by simpa using hb) h
    · exact hb.relative h

theorem rooted_resolve {base : Option Url} {s : List Char} (hb : ∀ b ∈ base, b.Rooted)
    (h : resolve base s = .ok u) : u.Rooted := by
  unfold resolve at h
  simp only at h
  split at h
  · split at h
    · exact rooted_file (fun b hmem => hb b ((Option.mem_filter_iff.1 hmem).1)) h
    · exact rooted_absolute hb h
  · split at h
    · next b => exact (hb b rfl).reference h
    · cases h

theorem rooted_parse {s : String} (h : parse s = .ok u) : u.Rooted :=
  rooted_resolve (by simp) h

theorem Rooted.join (hb : base.Rooted) {s : String} (h : base.join s = .ok u) : u.Rooted :=
  rooted_resolve (by simpa using hb) h

/-! ### Routes -/

/-- The page with a name of one segment on the same host. -/
def pageNamed (u : Url) (name : List Char) : Url :=
  { u with path := .rooted [name], query := none, fragment := none }

theorem relative_route {text : List Char} (hf : isFileScheme base.scheme = false)
    (hslash : text.head?.any isSlash = false)
    (hroute : ∀ special, Segments.append false [] (Segments.split special text) = segments) :
    relative base ('/' :: text) ⟨'/' :: text, none, none⟩ =
      .ok { base with path := .rooted segments, query := none, fragment := none } := by
  have hone : ¬ 2 ≤ (('/' :: text).takeWhile isSlash).length := by
    cases text with
    | nil => decide
    | cons c rest =>
      rw [List.head?_cons, Option.any_some] at hslash
      rw [List.takeWhile_cons_of_pos (by decide), List.takeWhile_cons_of_neg (by simp [hslash])]
      decide
  have hresolve : Segments.resolve base.scheme [] text = segments := by
    simp only [Segments.resolve, hf, hroute, Bool.false_eq_true, if_false]
  unfold Url.relative
  simp only [show isSlash '/' = true by decide, if_true]
  split
  · next h =>
    rw [(List.cons.inj h).2] at hslash
    cases hslash
  · rw [if_neg hone, hresolve]
    rfl

/-- A slash and a path lead to the page with the path. -/
theorem join_route {s : String} {text : List Char} {old : List (List Char)}
    (hbase : base.path = .rooted old) (hf : isFileScheme base.scheme = false)
    (hs : Reference.ofText s.toList = ⟨'/' :: text, none, none⟩)
    (hscheme : splitScheme ('/' :: text) = none) (hclean : clean ('/' :: text) = '/' :: text)
    (hslash : text.head?.any isSlash = false)
    (hroute : ∀ special, Segments.append false [] (Segments.split special text) = segments) :
    base.join s = .ok { base with path := .rooted segments, query := none, fragment := none } := by
  simp only [join, resolve, hs, hscheme, Url.reference, hbase, hf, hclean, Bool.false_eq_true,
    if_false]
  exact relative_route hf hslash hroute

theorem join_unauthorized (h : base.path = .rooted segments)
    (hf : isFileScheme base.scheme = false) :
    base.join Route.unauthorized = .ok (base.pageNamed "unauthorized".toList) :=
  join_route h hf rfl (by decide) (by decide) (by decide) (by decide)

theorem join_home (h : base.path = .rooted segments) (hf : isFileScheme base.scheme = false) :
    base.join Route.home = .ok (base.pageNamed []) :=
  join_route h hf rfl (by decide) (by decide) (by decide) (by decide)

theorem join_entitlement (h : base.path = .rooted segments)
    (hf : isFileScheme base.scheme = false) :
    base.join Route.entitlement = .ok { base with
      path := .rooted ["api".toList, "v1".toList, "isEntitled".toList]
      query := none
      fragment := none } :=
  join_route h hf rfl (by decide) (by decide) (by decide) (by decide)

/-! ### From any URL -/

/-- Whether the path has segments. Without them the URL is no base for a path. -/
def hasPath (u : Url) : Bool :=
  match u.path with
  | .rooted _ => true
  | .rootless _ => false

theorem hasPath_iff : base.hasPath = true ↔ ∃ segments, base.path = .rooted segments := by
  cases hpath : base.path <;> simp [hasPath, hpath]

/-- The fragment for auto-reload takes the place of the one before, whatever the URL. -/
theorem join_autoReload (base : Url) :
    base.join ("#" ++ autoReloadFragment) =
      .ok { base with fragment := some autoReloadFragment.toList } := by
  have hkeep : keepPath base ⟨[], none, some autoReloadFragment.toList⟩ =
      { base with fragment := some autoReloadFragment.toList } := by
    rw [keepPath, build]
    rfl
  have hreference : reference base ⟨[], none, some autoReloadFragment.toList⟩ =
      .ok (keepPath base ⟨[], none, some autoReloadFragment.toList⟩) := by
    unfold reference
    split
    · rfl
    · split
      · rfl
      · rfl
  exact hreference.trans (congrArg Except.ok hkeep)

/-- The home page of a URL with a path has a path, and no fragment. -/
theorem exists_join_home (h : base.hasPath = true) :
    ∃ u, base.join Route.home = .ok u ∧ u.hasPath = true ∧ u.fragment = none := by
  obtain ⟨segments, hpath⟩ := hasPath_iff.1 h
  cases hf : isFileScheme base.scheme with
  | false => exact ⟨_, join_home hpath hf, rfl, rfl⟩
  | true =>
    have hjoin : base.join Route.home = reference base ⟨['/'], none, none⟩ := rfl
    have hfile : reference base ⟨['/'], none, none⟩ = file (some base) ['/'] ⟨['/'], none, none⟩ := by
      simp only [reference, hpath, hf, if_true]
    exact ⟨_, hjoin.trans hfile, rfl, rfl⟩

theorem join_home_rootless (h : base.hasPath = false) :
    base.join Route.home = .error .baseWithoutPath := by
  have hjoin : base.join Route.home = reference base ⟨['/'], none, none⟩ := rfl
  unfold hasPath at h
  split at h
  · cases h
  · next text hpath =>
    rw [hjoin, reference, hpath]
    rfl

end ClusterConsole.Url
