import ClusterConsole.Proofs.Cli.Program
import ClusterConsole.Proofs.Settings.Sources

/-! How the program is configured. A base URL among the arguments goes before the settings, for
the client and for the page alike, and changes nothing else that is read. -/

namespace ClusterConsole.Cli

/-! ### A base URL before other arguments -/

namespace Given

variable {g g' : Given} {o : Opt} {value name u : String}

/-- With a value that was read before all others. -/
def push (g : Given) (name value : String) : Given := { g with values := (name, value) :: g.values }

/-- There is no value for a name, and none is on its way. -/
def Lacks (g : Given) (name : String) : Prop :=
  g.values.lookup name = none ∧ ∀ o value, g.pending = some (o, value) → o.name ≠ name

theorem lookup_push {k : String} (h : k ≠ name) :
    (g.push name u).values.lookup k = g.values.lookup k := by
  rw [push, List.lookup_cons, beq_false_of_ne h]

theorem lacks_of_supply (h : (g.supply value).Lacks name) : g.Lacks name :=
  ⟨h.1, fun o _ hpending => h.2 o (some value) (by rw [supply, hpending, Option.map_some])⟩

/-- What an option adds that is not the one before it. -/
theorem add_inv (h : g.add o value = .ok g') (hlacks : g'.values.lookup name = none) :
    g.values.lookup name = none ∧ o.name ≠ name ∧ g'.pending = g.pending ∧
      (g.push name u).add o value = .ok (g'.push name u) := by
  unfold add at h
  split at h
  · cases h
  split at h
  · cases h
  · next hhas hempty =>
    cases h
    rw [List.lookup_append, Option.or_eq_none_iff] at hlacks
    have hne : o.name ≠ name := by
      rintro rfl
      simp at hlacks
    have hpush : (g.push name u).has o = g.has o := by rw [has, lookup_push hne, has]
    refine ⟨hlacks.1, hne, rfl, ?_⟩
    unfold add
    rw [hpush, if_neg hhas, if_neg hempty]
    rfl

theorem settle_inv (h : g.settle = .ok g') (hlacks : g'.values.lookup name = none) :
    g.Lacks name ∧ g'.pending = none ∧ (g.push name u).settle = .ok (g'.push name u) := by
  have hpush : (g.push name u).pending = g.pending := rfl
  unfold settle at h ⊢
  rw [hpush]
  cases hpending : g.pending with
  | none =>
    rw [hpending] at h
    cases h
    refine ⟨⟨hlacks, ?_⟩, hpending, rfl⟩
    simp [hpending]
  | some found =>
    obtain ⟨o, value⟩ := found
    rw [hpending] at h
    cases value with
    | none => cases h
    | some value =>
      obtain ⟨hlookup, hne, hsettled, hadd⟩ := add_inv (u := u) h hlacks
      refine ⟨⟨hlookup, ?_⟩, hsettled, hadd⟩
      intro o' value' h'
      cases hpending.symm.trans h'
      exact hne

end Given

namespace Grammar

variable {g : Grammar} {given given' : Given} {name u : String} {arguments : List String}
  {command : Option (String × List String)}

theorem long_push {option : String} {value : Option String}
    (h : g.long given option value = .ok given') (hlacks : given'.Lacks name) :
    given.Lacks name ∧ g.long (given.push name u) option value = .ok (given'.push name u) := by
  unfold long at h ⊢
  cases hsettle : given.settle with
  | error e =>
    rw [hsettle] at h
    split at h
    · split at h <;> cases h
    · cases h
    · split at h <;> cases h
  | ok settled =>
    rw [hsettle] at h
    split at h
    · next o value hfind =>
      split at h
      · next hvalue =>
        obtain ⟨hlookup, -, -, hadd⟩ := Given.add_inv (u := u) h hlacks.1
        obtain ⟨hgiven, -, hpush⟩ := Given.settle_inv (u := u) hsettle hlookup
        rw [if_pos hvalue, hpush]
        exact ⟨hgiven, hadd⟩
      · cases h
    · next o hfind =>
      dsimp only [bind, Except.bind] at h
      split at h
      · next hvalue =>
        cases h
        obtain ⟨hgiven, -, hpush⟩ := Given.settle_inv (u := u) hsettle hlacks.1
        refine ⟨hgiven, ?_⟩
        rw [hpush]
        dsimp only [bind, Except.bind]
        rw [if_pos hvalue]
        rfl
      · next hvalue =>
        obtain ⟨hlookup, -, -, hadd⟩ := Given.add_inv (u := u) h hlacks.1
        obtain ⟨hgiven, -, hpush⟩ := Given.settle_inv (u := u) hsettle hlookup
        refine ⟨hgiven, ?_⟩
        rw [hpush]
        dsimp only [bind, Except.bind]
        rw [if_neg hvalue]
        exact hadd
    · split at h <;> cases h

theorem read_push {afterDashes : Bool}
    (h : g.read afterDashes given arguments = .ok (given', command)) (hlacks : given'.Lacks name) :
    given.Lacks name ∧
      g.read afterDashes (given.push name u) arguments = .ok (given'.push name u, command) := by
  induction arguments generalizing afterDashes given with
  | nil =>
    cases h
    exact ⟨hlacks, rfl⟩
  | cons argument rest ih =>
    have hwants : (given.push name u).wantsValue = given.wantsValue := rfl
    unfold read at h ⊢
    rw [hwants]
    split at h
    · cases h
    · next hdashes =>
      rw [if_neg hdashes]
      split at h
      · next hcommand =>
        rw [if_pos hcommand]
        split at h
        · cases h
        · next hhelp =>
          cases h
          rw [if_neg hhelp]
          exact ⟨hlacks, rfl⟩
      · next hcommand =>
        rw [if_neg hcommand]
        split at h
        · next hend =>
          rw [if_pos hend]
          exact ih h
        · next hend =>
          rw [if_neg hend]
          split at h
          · next option value hparts =>
            split at h
            · cases h
            · next given₁ hlong =>
              obtain ⟨hgiven₁, hread⟩ := ih h
              obtain ⟨hgiven, hpush⟩ := long_push (u := u) hlong hgiven₁
              rw [hpush]
              exact ⟨hgiven, hread⟩
          · split at h
            · cases h
            · split at h
              · next hyes =>
                obtain ⟨hsupplied, hread⟩ := ih h
                rw [if_pos hyes]
                exact ⟨Given.lacks_of_supply hsupplied, hread⟩
              · cases h

end Grammar

namespace Arguments

variable {arguments : List String} {a : Arguments}

theorem longParts?_baseUrl (base : String) :
    Grammar.longParts? ("--base-url=" ++ base) = some ("base-url", some base) := by
  have hlist : ("--base-url=" ++ base).toList =
      ['-', '-', 'b', 'a', 's', 'e', '-', 'u', 'r', 'l', '='] ++ base.toList :=
    String.toList_append
  unfold Grammar.longParts?
  rw [hlist]
  simp

theorem grammar_read_baseUrl (base : String) (arguments : List String) :
    grammar.read false {} (("--base-url=" ++ base) :: arguments) =
      grammar.read false (({} : Given).push "base-url" base) arguments := by
  have hlist : ("--base-url=" ++ base).toList =
      ['-', '-', 'b', 'a', 's', 'e', '-', 'u', 'r', 'l', '='] ++ base.toList :=
    String.toList_append
  have hne : ∀ s : String, s.toList[2]? ≠ some 'b' → "--base-url=" ++ base ≠ s := by
    rintro s hs rfl
    exact hs (by rw [hlist]; rfl)
  have hcommand : grammar.commands.contains ("--base-url=" ++ base) = false := by
    have hall : ∀ s ∈ grammar.commands, s.toList[2]? ≠ some 'b' := by decide
    rw [← Bool.not_eq_true, List.contains_iff_mem]
    exact fun hmem => hne _ (hall _ hmem) rfl
  have hlong : grammar.long {} "base-url" (some base) =
      .ok (({} : Given).push "base-url" base) := by
    have hfind : grammar.options.find? (·.name == "base-url") = some baseUrlOption := by decide
    unfold Grammar.long
    rw [hfind]
    dsimp only [bind, Except.bind, Given.settle]
    rw [if_pos (by rfl), Given.add, if_neg (by decide)]
    simp [baseUrlOption, Given.push]
  rw [Grammar.read, if_neg (by decide), hcommand, Bool.and_false, if_neg (by decide),
    if_neg (hne "--" (by decide)), longParts?_baseUrl]
  dsimp only
  rw [hlong]

/-- A base URL in front of arguments without one is all that it adds to them. -/
theorem read_baseUrl (h : read arguments = .ok a) (ha : a.baseUrl = none) (base : String) :
    read (("--base-url=" ++ base) :: arguments) = .ok { a with baseUrl := some base } := by
  unfold read at h ⊢
  rw [grammar_read_baseUrl]
  cases hread : grammar.read false {} arguments with
  | error e =>
    rw [hread] at h
    cases h
  | ok found =>
    obtain ⟨given, command⟩ := found
    rw [hread] at h
    cases command with
    | none =>
      dsimp only [bind, Except.bind] at h
      split at h
      · cases h
      · split at h <;> cases h
    | some command =>
      obtain ⟨name, rest⟩ := command
      dsimp only [bind, Except.bind] at h
      split at h
      · cases h
      · next action haction =>
        split at h
        · cases h
        · next settled hsettle =>
          cases h
          obtain ⟨hlacks, -, hpush⟩ := Given.settle_inv (u := base) hsettle ha
          obtain ⟨-, hpushed⟩ := Grammar.read_push (u := base) hread hlacks
          rw [show baseUrlOption.name = "base-url" from rfl] at hpush hpushed
          rw [hpushed]
          dsimp only [bind, Except.bind]
          rw [haction]
          dsimp only
          rw [hpush]
          dsimp only [pure, Except.pure]
          rw [Given.lookup_push (by decide)]
          rfl

end Arguments

/-! ### The law -/

/-- A path leads to the entries of a file. Nothing at all counts as a file without entries. -/
inductive Holds (fs : FileSystem) (path : String) : Toml.Entries → Prop
  | nothing (h : fs.readText path = .error .notFound) : Holds fs path []
  | entries {text : String} {file : Toml.Entries} (h : fs.readText path = .ok text)
      (hfile : Toml.read text = some file) : Holds fs path file

/-- With a base URL, and with settings otherwise, the program talks to the server there, on a page
that it opens there. A base URL that is none is refused. -/
structure Opens (base : String) (s : Settings) (action : Action)
    (planned : Except ProgramError Plan) : Prop where
  plan : ∀ u, Url.parse base = .ok u → planned =
    .ok { client := ⟨u, ⟨s.accessToken, s.userId⟩⟩, page := .at u, settings := s, action }
  refusal : ∀ e, Url.parse base = .error e → planned = .error (.console (.invalidUrl base e))

/-- How a file, an environment and arguments configure the program. -/
structure Configured (fs : FileSystem) (env : Environment) (arguments : List String)
    (a : Arguments) (file : Toml.Entries) (s : Settings) : Prop where
  loads : Settings.load fs a.config env = .ok s
  /-- Each setting comes from its own sources. -/
  sources : Settings.From file env s
  /-- No other settings do. -/
  only : ∀ s', Settings.From file env s' → s' = s
  /-- A source of which nothing can be made might as well not be there. -/
  useless : ∀ src, ¬ Settings.Usable file env src →
    Settings.ofSources (src.dropFile file) (src.dropEnv env) = s
  /-- An integer might as well be the text that it is printed as. -/
  integer : ∀ pre name k post, file = pre ++ (name, .integer k) :: post →
    Settings.ofSources (pre ++ (name, .string (toString k)) :: post) env = s
  /-- As a number it counts if it is not negative and has at most 64 bits. -/
  number : ∀ name k n, file.get? name = some (.integer k) →
    (Settings.Counts file env (.entry name) n ↔ k = n ∧ n < Nat.pow 2 64)
  /-- The base URL of the arguments goes before that of the settings. -/
  opens : Opens (a.baseUrl.getD s.baseUrl) s a.action (plan arguments fs.readText env)
  /-- So it does if it is put before arguments without one. -/
  flag : a.baseUrl = none → ∀ base,
    Opens base s a.action (plan (("--base-url=" ++ base) :: arguments) fs.readText env)

theorem opens_plan {fs : FileSystem} {env : Environment} {arguments : List String} {a : Arguments}
    {s : Settings} (h : Arguments.read arguments = .ok a)
    (hs : Settings.load fs a.config env = .ok s) :
    Opens (a.baseUrl.getD s.baseUrl) s a.action (plan arguments fs.readText env) := by
  have hplanned := planned_plan arguments fs.readText env
  generalize plan arguments fs.readText env = planned at hplanned ⊢
  cases hplanned with
  | arguments h' => cases h.symm.trans h'
  | settings h' hs' =>
    cases h.symm.trans h'
    cases hs.symm.trans hs'
  | url h' hs' hu =>
    cases h.symm.trans h'
    cases hs.symm.trans hs'
    constructor
    · intro u hu'
      cases hu.symm.trans hu'
    · intro e hu'
      cases hu.symm.trans hu'
      rfl
  | plan h' hs' hu =>
    cases h.symm.trans h'
    cases hs.symm.trans hs'
    constructor
    · intro u hu'
      cases hu.symm.trans hu'
      rfl
    · intro e hu'
      cases hu.symm.trans hu'

theorem load_of_holds {fs : FileSystem} {path : String} {file : Toml.Entries}
    (h : Holds fs path file) (env : Environment) :
    Settings.load fs path env = .ok (.ofSources file env) := by
  cases h with
  | nothing h =>
    rw [Settings.load, h]
    rfl
  | entries h hfile =>
    rw [Settings.load, h]
    simp only [Settings.ofFile, hfile]

/-- Arguments that are read configure the program with every file that is one, and with every
environment. -/
theorem configured_of_holds {fs : FileSystem} {arguments : List String} {a : Arguments}
    {file : Toml.Entries} (h : Arguments.read arguments = .ok a) (hfile : Holds fs a.config file)
    (env : Environment) : ∃ s, Configured fs env arguments a file s := by
  have hload := load_of_holds hfile env
  refine ⟨.ofSources file env, hload, Settings.from_ofSources file env, ?_, ?_, ?_, ?_,
    opens_plan h hload, ?_⟩
  · intro s' hs'
    exact hs'.unique (Settings.from_ofSources file env)
  · intro src hno
    exact Settings.ofSources_drop hno
  · rintro pre name k post rfl
    exact Settings.ofSources_integer pre post name k env
  · intro name k n hget
    exact Settings.counts_integer hget
  · intro ha base
    exact opens_plan (a := { a with baseUrl := some base }) (Arguments.read_baseUrl h ha base) hload

/-- Some entries of no use: a number below zero, and a name that is neither text nor number. -/
def mixedEntries : String :=
  "base_url = 7\nreload_interval_ms = -5\nredirect_delay_ms = \"+250\"\nuser_id = true\n"

/-- A variable that is no text, one that is text, and one that is no number. -/
def mixedEnvironment : Environment where
  bindings := [("APP__BASE_URL", [0xFF]), ("CONSOLE_USER_ID", Utf8.encode ['m', 'e']),
    ("APP__REDIRECT_DELAY_MS", Utf8.encode ['-', '1'])]

theorem configured_of_holds_mixed :
    let fs : FileSystem := { root := .folder [("c", .file (Utf8.encode mixedEntries.toList))] }
    let a : Arguments := { config := "c", baseUrl := none, action := .watch true }
    Arguments.read ["--config", "c", "watch", "--enable"] = .ok a ∧
      ∃ file, Holds fs a.config file ∧
        Configured fs mixedEnvironment ["--config", "c", "watch", "--enable"] a file
          { baseUrl := "7", userId := some "me", redirectDelay := 250 } := by
  intro fs a
  have hread : Arguments.read ["--config", "c", "watch", "--enable"] = .ok a := by decide +kernel
  obtain ⟨file, hfile⟩ : ∃ file, Toml.read mixedEntries = some file :=
    Option.isSome_iff_exists.1 (by decide +kernel)
  have hfound : fs.find a.config = .ok (.file (Utf8.encode mixedEntries.toList)) := by
    have hsplit : "c".splitOn "/" = ["c"] := by
      rw [String.splitOn, if_neg (by decide), String.splitOnAux, if_neg (by decide +kernel),
        if_neg (by decide +kernel), String.splitOnAux, if_pos (by decide +kernel)]
      decide +kernel
    have hparts : fs.parts a.config = ["c"] := by
      rw [FileSystem.parts, hsplit]
      rfl
    rw [FileSystem.find, hparts, if_neg (by decide), if_neg (by simp [a]; decide)]
    rfl
  have htext : fs.readText a.config = .ok mixedEntries := by
    have hdecode : Utf8.text? (Utf8.encode mixedEntries.toList) = some mixedEntries :=
      Utf8.text?_eq_some_iff.2 rfl
    rw [FileSystem.readText, hfound]
    simp only [hdecode]
  have hload : Settings.ofFile a.config (.ok mixedEntries) mixedEnvironment =
      .ok { baseUrl := "7", userId := some "me", redirectDelay := 250 } := by decide +kernel
  obtain ⟨s, hs⟩ := configured_of_holds hread (.entries htext hfile) mixedEnvironment
  have hloads := hs.loads
  rw [Settings.load, htext, hload] at hloads
  obtain rfl := Except.ok.inj hloads
  exact ⟨hread, file, .entries htext hfile, hs⟩

end ClusterConsole.Cli
