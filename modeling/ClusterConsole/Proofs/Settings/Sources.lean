import ClusterConsole.Proofs.Text.Utf8
import ClusterConsole.Settings.Basic
import Mathlib.Logic.Basic

/-! Where the settings come from. The sources of a setting are gone through in order up to the
first of which something can be made. One of which nothing can be made might as well not be
there, and an integer might as well be the text that it is printed as. -/

namespace ClusterConsole.Settings

/-! ### What a source says -/

inductive Source where
  /-- A variable of the environment. -/
  | binding (name : String)
  /-- An entry of the file. -/
  | entry (name : String)
  deriving DecidableEq

/-- A variable says the text that its bytes are, and an entry of the file the string or the
integer that it is. -/
inductive Says (file : Toml.Entries) (env : Environment) : Source → String → Prop
  | binding {name text : String}
      (h : env.bindings.lookup name = some (Utf8.encode text.toList)) :
      Says file env (.binding name) text
  | string {name text : String} (h : file.get? name = some (.string text)) :
      Says file env (.entry name) text
  | integer {name : String} {n : Int} (h : file.get? name = some (.integer n)) :
      Says file env (.entry name) (toString n)

/-- A text as a number: decimal digits, perhaps after a plus, for at most 64 bits. -/
def Numeral (text : String) (n : Nat) : Prop :=
  n < Nat.pow 2 64 ∧ ∃ digits : List Char, (text.toList = digits ∨ text.toList = '+' :: digits) ∧
    digits ≠ [] ∧ (∀ c ∈ digits, c.isDigit) ∧ Nat.ofDigitChars 10 digits 0 = n

/-- A source counts as a number. -/
def Counts (file : Toml.Entries) (env : Environment) (src : Source) (n : Nat) : Prop :=
  ∃ text, Says file env src text ∧ Numeral text n

variable {file file' : Toml.Entries} {env env' : Environment} {src : Source} {srcs : List Source}
  {text name : String} {n : Nat}

/-- The text that is read from a source. -/
def Source.text? (file : Toml.Entries) (env : Environment) : Source → Option String
  | binding name => env.text? name
  | entry name => fileText? file name

theorem text?_eq_some_iff : src.text? file env = some text ↔ Says file env src text := by
  cases src with
  | binding name =>
    rw [Source.text?, Environment.text?, Option.bind_eq_some_iff]
    constructor
    · rintro ⟨bytes, hlookup, htext⟩
      rw [Utf8.text?_eq_some_iff.1 htext] at hlookup
      exact .binding hlookup
    · rintro ⟨hlookup⟩
      exact ⟨_, hlookup, Utf8.text?_eq_some_iff.2 rfl⟩
  | entry name =>
    rw [Source.text?, fileText?, Option.bind_eq_some_iff]
    constructor
    · rintro ⟨value, hget, htext⟩
      cases value with
      | string text' =>
        cases htext
        exact .string hget
      | integer n =>
        cases htext
        exact .integer hget
      | _ => cases htext
    · intro hsaid
      cases hsaid with
      | string hget => exact ⟨_, hget, rfl⟩
      | integer hget => exact ⟨_, hget, rfl⟩

theorem number?_eq {digits : List Char}
    (h : (∀ r, digits ≠ '+' :: r) ∧ text.toList = digits ∨ text.toList = '+' :: digits) :
    number? text = if digits.isEmpty || !digits.all Char.isDigit then none
      else if Nat.ofDigitChars 10 digits 0 < Nat.pow 2 64 then some (Nat.ofDigitChars 10 digits 0)
      else none := by
  unfold number?
  rcases h with ⟨hplus, htext⟩ | htext
  · rw [htext]
    dsimp only
    split
    · exact absurd rfl (hplus _)
    · rfl
  · rw [htext]
    rfl

theorem number?_eq_some_iff : number? text = some n ↔ Numeral text n := by
  constructor
  · intro h
    obtain ⟨digits, hsign⟩ : ∃ digits : List Char,
        (∀ r, digits ≠ '+' :: r) ∧ text.toList = digits ∨ text.toList = '+' :: digits := by
      by_cases hplus : ∃ r, text.toList = '+' :: r
      · exact ⟨_, .inr hplus.choose_spec⟩
      · exact ⟨_, .inl ⟨fun r hr => hplus ⟨r, hr⟩, rfl⟩⟩
    rw [number?_eq hsign] at h
    split at h
    · cases h
    · next hdigits =>
      simp only [Bool.or_eq_true, List.isEmpty_iff, Bool.not_eq_true', not_or,
        Bool.not_eq_false, List.all_eq_true] at hdigits
      split at h
      · next hlt =>
        cases h
        exact ⟨hlt, digits, hsign.imp_left And.right, hdigits.1, hdigits.2, rfl⟩
      · cases h
  · rintro ⟨hlt, digits, hsign, hne, hdigits, rfl⟩
    have hplus : ∀ r, digits ≠ '+' :: r := by
      rintro r rfl
      exact absurd (hdigits '+' List.mem_cons_self) (by decide)
    have hall : digits.all Char.isDigit = true := List.all_eq_true.2 hdigits
    have hsome : digits.isEmpty = false := List.isEmpty_eq_false_iff.2 hne
    rw [number?_eq (hsign.imp_left fun htext => ⟨hplus, htext⟩), hall, hsome, if_neg (by decide),
      if_pos hlt]

/-- An integer counts as itself if it is not negative and has at most 64 bits. -/
theorem numeral_toString {k : Int} : Numeral (toString k) n ↔ k = n ∧ n < Nat.pow 2 64 := by
  cases k with
  | ofNat m =>
    have htext : (toString (Int.ofNat m)).toList = Nat.toDigits 10 m := Nat.toList_repr
    have hdigits : ∀ c ∈ Nat.toDigits 10 m, c.isDigit := fun c hc =>
      Nat.isDigit_of_mem_toDigits (by decide) (by decide) hc
    rw [Numeral, htext, Int.ofNat_eq_natCast, Int.natCast_inj]
    constructor
    · rintro ⟨hlt, digits, rfl | hplus, -, -, rfl⟩
      · exact ⟨Nat.ofDigitChars_ten_toDigits.symm, hlt⟩
      · have hsign : '+' ∈ Nat.toDigits 10 m := by simp [hplus]
        exact absurd (hdigits '+' hsign) (by decide)
    · rintro ⟨rfl, hlt⟩
      exact ⟨hlt, _, .inl rfl, Nat.toDigits_ne_nil, hdigits, Nat.ofDigitChars_ten_toDigits⟩
  | negSucc m =>
    have htext : (toString (Int.negSucc m)).toList = '-' :: (m + 1).repr.toList :=
      String.toList_append
    refine iff_of_false ?_ (fun h => nomatch h.1)
    rintro ⟨-, digits, hsign, -, hdigits, -⟩
    rw [htext] at hsign
    rcases hsign with rfl | hsign
    · exact absurd (hdigits '-' List.mem_cons_self) (by decide)
    · exact absurd (List.cons.inj hsign).1 (by decide)

theorem counts_integer {k : Int} (h : file.get? name = some (.integer k)) :
    Counts file env (.entry name) n ↔ k = n ∧ n < Nat.pow 2 64 := by
  rw [← numeral_toString]
  constructor
  · rintro ⟨text, hsaid, hnumeral⟩
    cases hsaid with
    | string h' => cases h.symm.trans h'
    | integer h' =>
      cases h.symm.trans h'
      exact hnumeral
  · exact fun hnumeral => ⟨_, .integer h, hnumeral⟩

theorem counts_iff : Counts file env src n ↔ (src.text? file env).bind number? = some n := by
  simp only [Counts, Option.bind_eq_some_iff, number?_eq_some_iff, text?_eq_some_iff]

/-! ### The first source -/

/-- The value of a setting: what the first source that gives any gives, or else the default. -/
inductive Settles {α : Type} (gives : Source → α → Prop) (default : α) : List Source → α → Prop
  | default : Settles gives default [] default
  | first {src : Source} {srcs : List Source} {a : α} (h : gives src a) :
      Settles gives default (src :: srcs) a
  | next {src : Source} {srcs : List Source} {a : α} (hno : ∀ b, ¬ gives src b)
      (h : Settles gives default srcs a) : Settles gives default (src :: srcs) a

section
variable {α : Type} {gives : Source → α → Prop} {default a b : α} {read : Source → Option α}

theorem Settles.unique (hgives : ∀ src a b, gives src a → gives src b → a = b)
    (h : Settles gives default srcs a) (h' : Settles gives default srcs b) : a = b := by
  induction h with
  | default =>
    cases h'
    rfl
  | first ha =>
    cases h' with
    | first hb => exact hgives _ _ _ ha hb
    | next hno => exact absurd ha (hno _)
  | next hno h ih =>
    cases h' with
    | first hb => exact absurd hb (hno _)
    | next hno' h' => exact ih h'

theorem settles_getD (hread : ∀ src a, read src = some a ↔ gives src a) (srcs : List Source) :
    Settles gives default srcs ((srcs.findSome? read).getD default) := by
  induction srcs with
  | nil => exact .default
  | cons src srcs ih =>
    rw [List.findSome?_cons]
    cases h : read src with
    | some a => exact .first ((hread src a).1 h)
    | none =>
      refine .next (fun b hb => ?_) ih
      rw [(hread src b).2 hb] at h
      cases h

end

/-! ### The settings -/

/-- A source gives a text that need not be there. -/
def Grants (file : Toml.Entries) (env : Environment) (src : Source) (o : Option String) : Prop :=
  ∃ text, o = some text ∧ Says file env src text

/-- The settings that a file and an environment make, each from sources of its own. -/
structure From (file : Toml.Entries) (env : Environment) (s : Settings) : Prop where
  baseUrl : Settles (Says file env) "http://127.0.0.1:8080"
    [.binding "APP__BASE_URL", .binding "CONSOLE_BASE_URL", .entry "base_url"] s.baseUrl
  accessToken : Settles (Grants file env) none
    [.binding "CONSOLE_ACCESS_TOKEN", .entry "access_token"] s.accessToken
  userId : Settles (Grants file env) none
    [.binding "CONSOLE_USER_ID", .entry "user_id"] s.userId
  reloadInterval : Settles (Counts file env) 30000
    [.binding "APP__RELOAD_INTERVAL_MS", .entry "reload_interval_ms"] s.reloadInterval
  redirectDelay : Settles (Counts file env) 1000
    [.binding "APP__REDIRECT_DELAY_MS", .entry "redirect_delay_ms"] s.redirectDelay

/-- The text that the first of some sources says. -/
def firstText? (file : Toml.Entries) (env : Environment) (srcs : List Source) : Option String :=
  srcs.findSome? (Source.text? file env)

/-- The number that the first of some sources counts as. -/
def firstNumber? (file : Toml.Entries) (env : Environment) (srcs : List Source) : Option Nat :=
  srcs.findSome? fun src => (src.text? file env).bind number?

theorem findSome?_cons_cons {α β : Type} (f : α → Option β) (a b : α) (l : List α) :
    (a :: b :: l).findSome? f = (f a <|> (b :: l).findSome? f) := by
  rw [List.findSome?_cons]
  cases f a <;> rfl

theorem ofSources_eq (file : Toml.Entries) (env : Environment) : ofSources file env =
    { baseUrl := (firstText? file env
        [.binding "APP__BASE_URL", .binding "CONSOLE_BASE_URL", .entry "base_url"]).getD
          "http://127.0.0.1:8080"
      accessToken := firstText? file env
        [.binding "CONSOLE_ACCESS_TOKEN", .entry "access_token"]
      userId := firstText? file env [.binding "CONSOLE_USER_ID", .entry "user_id"]
      reloadInterval := (firstNumber? file env
        [.binding "APP__RELOAD_INTERVAL_MS", .entry "reload_interval_ms"]).getD 30000
      redirectDelay := (firstNumber? file env
        [.binding "APP__REDIRECT_DELAY_MS", .entry "redirect_delay_ms"]).getD 1000 } := by
  simp only [firstText?, firstNumber?, findSome?_cons_cons, List.findSome?_singleton]
  rfl

theorem settles_firstText? (srcs : List Source) :
    Settles (Grants file env) none srcs (firstText? file env srcs) := by
  have hgrants : ∀ src o, (src.text? file env).map some = some o ↔ Grants file env src o := by
    intro src o
    simp only [Option.map_eq_some_iff, text?_eq_some_iff, Grants]
    exact exists_congr fun text => by rw [and_comm, eq_comm]
  have hfirst : Settles (Grants file env) none srcs
      ((srcs.findSome? fun src => (src.text? file env).map some).getD none) :=
    settles_getD hgrants srcs
  have hmap : srcs.findSome? (fun src => (src.text? file env).map some) =
      (firstText? file env srcs).map some := List.map_findSome?.symm
  rw [hmap] at hfirst
  cases h : firstText? file env srcs with
  | none => rwa [h] at hfirst
  | some text => rwa [h] at hfirst

theorem from_ofSources (file : Toml.Entries) (env : Environment) :
    From file env (ofSources file env) := by
  have hsaid : ∀ src text, src.text? file env = some text ↔ Says file env src text :=
    fun src text => text?_eq_some_iff
  have hcounts : ∀ src n, (src.text? file env).bind number? = some n ↔ Counts file env src n :=
    fun src n => counts_iff.symm
  rw [ofSources_eq]
  exact ⟨settles_getD hsaid _, settles_firstText? _, settles_firstText? _,
    settles_getD hcounts _, settles_getD hcounts _⟩

theorem Says.unique {text' : String} (h : Says file env src text) (h' : Says file env src text') :
    text = text' :=
  Option.some.inj ((text?_eq_some_iff.2 h).symm.trans (text?_eq_some_iff.2 h'))

theorem Counts.unique {n' : Nat} (h : Counts file env src n) (h' : Counts file env src n') :
    n = n' :=
  Option.some.inj ((counts_iff.1 h).symm.trans (counts_iff.1 h'))

theorem From.unique {s s' : Settings} (h : From file env s) (h' : From file env s') : s = s' := by
  have hsaid : ∀ src a b, Says file env src a → Says file env src b → a = b :=
    fun _ _ _ => Says.unique
  have hcounts : ∀ src a b, Counts file env src a → Counts file env src b → a = b :=
    fun _ _ _ => Counts.unique
  have hgrants : ∀ src a b, Grants file env src a → Grants file env src b → a = b := by
    rintro src a b ⟨text, rfl, ha⟩ ⟨text', rfl, hb⟩
    rw [ha.unique hb]
  obtain ⟨hbase, htoken, huser, hinterval, hdelay⟩ := h
  obtain ⟨hbase', htoken', huser', hinterval', hdelay'⟩ := h'
  have hb := hbase.unique hsaid hbase'
  have ht := htoken.unique hgrants htoken'
  have hu := huser.unique hgrants huser'
  have hi := hinterval.unique hcounts hinterval'
  have hd := hdelay.unique hcounts hdelay'
  cases s
  cases s'
  simp_all

/-! ### Sources of no use -/

/-- The sources of the settings that are numbers. -/
def timings : List Source :=
  [.binding "APP__RELOAD_INTERVAL_MS", .entry "reload_interval_ms",
    .binding "APP__REDIRECT_DELAY_MS", .entry "redirect_delay_ms"]

/-- Something can be made of what a source says. -/
def Usable (file : Toml.Entries) (env : Environment) (src : Source) : Prop :=
  if src ∈ timings then ∃ n, Counts file env src n else ∃ text, Says file env src text

/-- The file without a source. -/
def Source.dropFile : Source → Toml.Entries → Toml.Entries
  | binding _, file => file
  | entry name, file => file.filter (·.1 != name)

/-- The environment without a source. -/
def Source.dropEnv : Source → Environment → Environment
  | binding name, env => ⟨env.bindings.filter (·.1 != name)⟩
  | entry _, env => env

theorem lookup_filter_ne {β : Type} (l : List (String × β)) (name k : String) :
    (l.filter (·.1 != name)).lookup k = if k = name then none else l.lookup k := by
  induction l with
  | nil => simp
  | cons a l ih =>
    obtain ⟨a, b⟩ := a
    by_cases ha : a = name
    · subst ha
      rw [List.filter_cons_of_neg (by simp), ih, List.lookup_cons]
      by_cases hk : k = a
      · rw [if_pos hk, if_pos hk]
      · rw [if_neg hk, if_neg hk, beq_false_of_ne hk]
    · rw [List.filter_cons_of_pos (by simpa using ha), List.lookup_cons, List.lookup_cons]
      by_cases hk : k = a
      · subst hk
        rw [beq_self_eq_true, if_neg ha]
      · rw [beq_false_of_ne hk]
        exact ih

theorem text?_drop (src src' : Source) :
    src'.text? (src.dropFile file) (src.dropEnv env) =
      if src' = src then none else src'.text? file env := by
  cases src with
  | binding name =>
    cases src' with
    | binding k =>
      simp only [Source.text?, Source.dropEnv, Environment.text?, lookup_filter_ne,
        Source.binding.injEq]
      split <;> rfl
    | entry k => rfl
  | entry name =>
    cases src' with
    | binding k => rfl
    | entry k =>
      simp only [Source.text?, Source.dropFile, fileText?, Toml.Entries.get?, lookup_filter_ne,
        Source.entry.injEq]
      split <;> rfl

theorem findSome?_congr {α β : Type} {f g : α → Option β} {l : List α}
    (h : ∀ a ∈ l, f a = g a) : l.findSome? f = l.findSome? g := by
  induction l with
  | nil => rfl
  | cons a l ih =>
    rw [List.findSome?_cons, List.findSome?_cons, h a List.mem_cons_self,
      ih fun b hb => h b (List.mem_cons_of_mem a hb)]

/-- The settings depend only on what can be made of the sources. -/
theorem ofSources_congr
    (hsaid : ∀ src ∉ timings, src.text? file' env' = src.text? file env)
    (hcounts : ∀ src ∈ timings,
      (src.text? file' env').bind number? = (src.text? file env).bind number?) :
    ofSources file' env' = ofSources file env := by
  have htexts : ∀ srcs : List Source, (∀ src ∈ srcs, src ∉ timings) →
      firstText? file' env' srcs = firstText? file env srcs := by
    intro srcs hsrcs
    exact findSome?_congr fun src hsrc => hsaid src (hsrcs src hsrc)
  have hnumbers : ∀ srcs : List Source, srcs ⊆ timings →
      firstNumber? file' env' srcs = firstNumber? file env srcs := by
    intro srcs hsrcs
    exact findSome?_congr fun src hsrc => hcounts src (hsrcs hsrc)
  rw [ofSources_eq, ofSources_eq, htexts _ (by decide), htexts _ (by decide),
    htexts _ (by decide), hnumbers _ (by decide), hnumbers _ (by decide)]

/-- A source of which nothing can be made might as well not be there. -/
theorem ofSources_drop (h : ¬ Usable file env src) :
    ofSources (src.dropFile file) (src.dropEnv env) = ofSources file env := by
  apply ofSources_congr
  · intro src' hsrc'
    rw [text?_drop]
    split
    · next heq =>
      subst heq
      rw [Usable, if_neg hsrc'] at h
      refine (Option.eq_none_iff_forall_ne_some.2 fun text htext => h ⟨text, ?_⟩).symm
      exact text?_eq_some_iff.1 htext
    · rfl
  · intro src' hsrc'
    rw [text?_drop]
    split
    · next heq =>
      subst heq
      rw [Usable, if_pos hsrc'] at h
      refine (Option.eq_none_iff_forall_ne_some.2 fun n hn => h ⟨n, ?_⟩).symm
      exact counts_iff.2 hn
    · rfl

theorem text?_integer (pre post : Toml.Entries) (name : String) (k : Int) (src : Source) :
    src.text? (pre ++ (name, .string (toString k)) :: post) env =
      src.text? (pre ++ (name, .integer k) :: post) env := by
  cases src with
  | binding name' => rfl
  | entry name' =>
    simp only [Source.text?, fileText?, Toml.Entries.get?, List.lookup_append, List.lookup_cons]
    cases pre.lookup name' with
    | some value => rfl
    | none =>
      cases name' == name with
      | true => rfl
      | false => rfl

/-- An integer might as well be the text that it is printed as. -/
theorem ofSources_integer (pre post : Toml.Entries) (name : String) (k : Int) (env : Environment) :
    ofSources (pre ++ (name, .string (toString k)) :: post) env =
      ofSources (pre ++ (name, .integer k) :: post) env :=
  ofSources_congr (fun src _ => text?_integer pre post name k src)
    fun src _ => by rw [text?_integer]

end ClusterConsole.Settings
