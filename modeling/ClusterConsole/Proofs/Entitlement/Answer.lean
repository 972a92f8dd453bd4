import ClusterConsole.Entitlement.Response
import ClusterConsole.Proofs.Json.Record
import Mathlib.Tactic.MkIffOfInductiveProp

/-! Which documents are answers to the question whether a session may act, and which of
these answers grant access. Both are judged by the tree of a document alone: by the members
named `is_entitled` and `error`, or by the first two items. -/

namespace ClusterConsole.EntitlementResponse

open Json (Tree Piece Written Blank Ends text?)

variable {x rest : Json.Text} {t : Tree} {s b b' : List Char} {ps : List Piece} {name : String}
  {met met' : Members} {m : List Piece × Tree} {ms : List (List Piece × Tree)}

/-! ### Judging trees -/

/-- The tree is the string `true`. -/
def IsTrue (t : Tree) : Prop := ∃ ps, t = .string ps ∧ text? ps = some "true"

/-- The tree may be the error of an answer: it is a string or null. -/
def IsMessage : Tree → Prop
  | .null => True
  | .string _ => True
  | _ => False

/-- The values of the members that have a name. -/
def valuesOf (name : String) (members : List (List Piece × Tree)) : List Tree :=
  (members.filter fun m => text? m.1 = some name).map Prod.snd

/-- The tree is an answer: an object that repeats neither flag nor error, or an array of at
most two items. -/
def Accepted : Tree → Prop
  | .object members =>
    (valuesOf flagName members).length ≤ 1 ∧ (valuesOf errorName members).length ≤ 1 ∧
      ∀ e ∈ valuesOf errorName members, IsMessage e
  | .array items => items.length ≤ 2 ∧ ∀ e ∈ items[1]?, IsMessage e
  | _ => False

/-- The tree is an answer that grants access. -/
def Grants : Tree → Prop
  | .object members =>
    (∃ v, valuesOf flagName members = [v] ∧ IsTrue v) ∧
      (valuesOf errorName members).length ≤ 1 ∧ ∀ e ∈ valuesOf errorName members, IsMessage e
  | .array [v] => IsTrue v
  | .array [v, e] => IsTrue v ∧ IsMessage e
  | _ => False

theorem Grants.accepted {t : Tree} (h : Grants t) : Accepted t := by
  match t with
  | .object members =>
    obtain ⟨⟨v, hv, -⟩, herror⟩ := h
    exact ⟨by rw [hv]; exact Nat.le_refl 1, herror⟩
  | .array [v] => simp [Accepted]
  | .array [v, e] => exact ⟨Nat.le_refl 2, fun e' he => Option.some.inj he ▸ h.2⟩

/-- The flag can be held, one level inside of the answer. -/
def IsHeld (t : Tree) : Prop := t.value?.isSome ∧ t.levels ≤ Json.maxLevels - 1

/-- The error is text, if it is a string. -/
def IsText (t : Tree) : Prop := ∀ ps, t = .string ps → (text? ps).isSome

/-- What is kept of the tree can be kept: the names of its members, the first flag and the
first error. -/
def Kept : Tree → Prop
  | .object members =>
    (∀ m ∈ members, (text? m.1).isSome) ∧ (∀ v ∈ (valuesOf flagName members).head?, IsHeld v) ∧
      ∀ e ∈ (valuesOf errorName members).head?, IsText e
  | .array items => (∀ v ∈ items[0]?, IsHeld v) ∧ ∀ e ∈ items[1]?, IsText e
  | _ => True

theorem valuesOf_cons_pos (h : text? ps = some name) :
    valuesOf name ((ps, t) :: ms) = t :: valuesOf name ms := by
  simp [valuesOf, h]

theorem valuesOf_cons_neg (h : text? ps ≠ some name) :
    valuesOf name ((ps, t) :: ms) = valuesOf name ms := by
  simp [valuesOf, h]

/-- What an answer knows of a tree: members of other names are left out. -/
def known : Tree → Tree
  | .object members =>
    .object (members.filter fun m => text? m.1 = some flagName ∨ text? m.1 = some errorName)
  | t => t

theorem valuesOf_known (h : name = flagName ∨ name = errorName) :
    valuesOf name (ms.filter fun m => text? m.1 = some flagName ∨ text? m.1 = some errorName) =
      valuesOf name ms := by
  rw [valuesOf, valuesOf, List.filter_filter]
  congr 2
  funext m
  rw [Bool.and_eq_left_iff_imp]
  intro hm
  rcases h with rfl | rfl <;> simp [of_decide_eq_true hm]

theorem accepted_known : Accepted (known t) ↔ Accepted t := by
  cases t with
  | object ms =>
    simp only [known, Accepted, valuesOf_known (.inl rfl), valuesOf_known (.inr rfl)]
  | _ => rfl

theorem grants_known : Grants (known t) ↔ Grants t := by
  cases t with
  | object ms => simp only [known, Grants, valuesOf_known (.inl rfl), valuesOf_known (.inr rfl)]
  | _ => rfl

/-! ### Flag and error -/

theorem isEntitled_canonical (v : Json) (e : Option String) :
    isEntitled ⟨some v.canonical, e⟩ ↔ v = .string "true" := by
  cases v <;> simp [isEntitled, Json.canonical]

theorem value?_eq_true : t.value? = some (.string "true") ↔ IsTrue t := by
  cases t <;> simp [Json.Tree.value?, IsTrue]

theorem readFlag_written (h : Written t s) (ht : IsHeld t) (hends : Ends rest)
    (hx : Json.skipBlanks x = s.map some ++ rest) :
    ∃ flag, readFlag x = .ok (flag, rest) ∧ ∀ e, isEntitled ⟨flag, e⟩ ↔ IsTrue t := by
  by_cases hnull : t = .null
  · subst hnull
    refine ⟨none, ?_, fun e => ?_⟩
    · rw [readFlag, Json.readOptional_null h hx]
      rfl
    · simp [isEntitled, IsTrue]
  · obtain ⟨v, hv⟩ := Option.isSome_iff_exists.1 ht.1
    refine ⟨some v.canonical, ?_, fun e => ?_⟩
    · rw [readFlag, Json.readOptional_value h hnull hx,
        Json.read_written h hv ht.2 hends hx]
      rfl
    · rw [isEntitled_canonical, ← value?_eq_true, hv, Option.some.injEq]

theorem readError_written (h : Written t s) (hm : IsMessage t) (ht : IsText t)
    (hx : Json.skipBlanks x = s.map some ++ rest) : ∃ e, readError x = .ok (e, rest) := by
  match t with
  | .null => exact ⟨none, Json.readOptional_null h hx⟩
  | .string ps =>
    obtain ⟨text, htext⟩ := Option.isSome_iff_exists.1 (ht ps rfl)
    refine ⟨some text, ?_⟩
    rw [readError, Json.readOptional_value h nofun hx, Json.readText_string h htext hx]
    rfl

theorem readError_other (h : Written t s) (hm : ¬ IsMessage t)
    (hx : Json.skipBlanks x = s.map some ++ rest) : ∃ e, readError x = .error e := by
  have hnull : t ≠ .null := by
    rintro rfl
    exact hm trivial
  have hstring : ∀ ps, t ≠ .string ps := by
    rintro ps rfl
    exact hm trivial
  refine ⟨Json.mismatchAt x, ?_⟩
  rw [readError, Json.readOptional_value h hnull hx, Json.readText_other h hstring hx]
  rfl

/-! ### One member -/

/-- The members to come fit to those met before: flag and error are not repeated, and the
error is a string or null. -/
@[mk_iff]
structure Fits (met : Members) (ms : List (List Piece × Tree)) : Prop where
  flag : met.flag.toList.length + (valuesOf flagName ms).length ≤ 1
  error : met.error.toList.length + (valuesOf errorName ms).length ≤ 1
  message : ∀ e ∈ valuesOf errorName ms, IsMessage e

/-- What is still to be kept of the members to come can be kept. -/
structure Readable (met : Members) (ms : List (List Piece × Tree)) : Prop where
  names : ∀ m ∈ ms, (text? m.1).isSome
  flag : met.flag = none → ∀ v ∈ (valuesOf flagName ms).head?, IsHeld v
  error : met.error = none → ∀ e ∈ (valuesOf errorName ms).head?, IsText e

/-- Access is granted by a member met before or by one to come. -/
def Entitled (met : Members) (ms : List (List Piece × Tree)) : Prop :=
  (ofMembers met).isEntitled ∨ ∃ v ∈ valuesOf flagName ms, IsTrue v

/-- A member is met: whatever comes after it is judged as before. -/
structure Meets (met met' : Members) (m : List Piece × Tree) : Prop where
  fits : ∀ {ms}, Fits met (m :: ms) ↔ Fits met' ms
  readable : ∀ {ms}, Readable met (m :: ms) → Readable met' ms
  entitled : ∀ {ms}, Entitled met (m :: ms) ↔ Entitled met' ms

theorem meets_flag (hname : text? ps = some flagName) (hmet : met.flag = none)
    {flag : Option Json} (hflag : ∀ e, isEntitled ⟨flag, e⟩ ↔ IsTrue t) :
    Meets met { met with flag := some flag } (ps, t) := by
  have herror : text? ps ≠ some errorName := by
    rw [hname]
    decide
  constructor
  case fits =>
    intro ms
    rw [fits_iff, fits_iff, valuesOf_cons_pos hname, valuesOf_cons_neg herror, hmet]
    simp [Nat.add_comm]
  case readable =>
    intro ms h
    have htext := h.error
    rw [valuesOf_cons_neg herror] at htext
    exact ⟨fun m hm => h.names m (List.mem_cons_of_mem _ hm), nofun, htext⟩
  case entitled =>
    intro ms
    have hbefore : (ofMembers met).isEntitled = false := by simp [ofMembers, hmet, isEntitled]
    have hafter : (ofMembers { met with flag := some flag }).isEntitled ↔ IsTrue t := hflag _
    rw [Entitled, Entitled, valuesOf_cons_pos hname, hbefore, hafter]
    simp

theorem meets_error (hname : text? ps = some errorName) (hmet : met.error = none)
    (hmessage : IsMessage t) (error : Option String) :
    Meets met { met with error := some error } (ps, t) := by
  have hflag : text? ps ≠ some flagName := by
    rw [hname]
    decide
  constructor
  case fits =>
    intro ms
    rw [fits_iff, fits_iff, valuesOf_cons_pos hname, valuesOf_cons_neg hflag, hmet]
    simp [Nat.add_comm, hmessage]
  case readable =>
    intro ms h
    have hheld := h.flag
    rw [valuesOf_cons_neg hflag] at hheld
    exact ⟨fun m hm => h.names m (List.mem_cons_of_mem _ hm), hheld, nofun⟩
  case entitled =>
    intro ms
    rw [Entitled, Entitled, valuesOf_cons_neg hflag]
    rfl

theorem meets_other (hflag : text? ps ≠ some flagName) (herror : text? ps ≠ some errorName) :
    Meets met met (ps, t) := by
  constructor
  case fits =>
    intro ms
    rw [fits_iff, fits_iff, valuesOf_cons_neg hflag, valuesOf_cons_neg herror]
  case readable =>
    intro ms h
    obtain ⟨hnames, hheld, htext⟩ := h
    rw [valuesOf_cons_neg hflag] at hheld
    rw [valuesOf_cons_neg herror] at htext
    exact ⟨fun m hm => hnames m (List.mem_cons_of_mem _ hm), hheld, htext⟩
  case entitled =>
    intro ms
    rw [Entitled, Entitled, valuesOf_cons_neg hflag]

/-- A member is taken or refused, and it is refused only where it does not fit. -/
def Judged (met : Members) (m : List Piece × Tree) (rest : Json.Text) (read : Json.Read Members) :
    Prop :=
  (∃ met', read = .ok (met', rest) ∧ Meets met met' m) ∨
    (∃ e, read = .error e) ∧ ∀ ms, ¬ Fits met (m :: ms)

theorem judged_flag (hname : text? ps = some flagName) (h : Written t s) (hb : Blank b)
    (hb' : Blank b') (hends : Ends rest) (hread : Readable met ((ps, t) :: ms)) :
    Judged met (ps, t) rest (readMember flagName met
      (b.map some ++ some ':' :: (b'.map some ++ (s.map some ++ rest)))) := by
  rw [readMember, if_pos rfl, Json.readMember_blank readFlag hb]
  cases hmet : met.flag with
  | some flag =>
    refine .inr ⟨⟨.mismatch, rfl⟩, fun ms hfits => ?_⟩
    have := hfits.flag
    rw [valuesOf_cons_pos hname, hmet] at this
    simp only [Option.toList_some, List.length_cons, List.length_nil] at this
    omega
  | none =>
    have hheld := hread.flag hmet
    rw [valuesOf_cons_pos hname] at hheld
    obtain ⟨flag, hflag, htrue⟩ :=
      readFlag_written h (hheld t rfl) hends (h.skipBlanks_blank hb')
    refine .inl ⟨_, ?_, meets_flag hname hmet htrue⟩
    rw [if_neg (by simp), hflag]
    rfl

theorem judged_error (hname : text? ps = some errorName) (h : Written t s) (hb : Blank b)
    (hb' : Blank b') (hread : Readable met ((ps, t) :: ms)) :
    Judged met (ps, t) rest (readMember errorName met
      (b.map some ++ some ':' :: (b'.map some ++ (s.map some ++ rest)))) := by
  have hx : Json.skipBlanks (b'.map some ++ (s.map some ++ rest)) = s.map some ++ rest :=
    h.skipBlanks_blank hb'
  rw [readMember, if_neg (by decide), if_pos rfl, Json.readMember_blank readError hb]
  cases hmet : met.error with
  | some error =>
    refine .inr ⟨⟨.mismatch, rfl⟩, fun ms hfits => ?_⟩
    have := hfits.error
    rw [valuesOf_cons_pos hname, hmet] at this
    simp only [Option.toList_some, List.length_cons, List.length_nil] at this
    omega
  | none =>
    have htext := hread.error hmet
    rw [valuesOf_cons_pos hname] at htext
    rw [if_neg (by simp)]
    by_cases hmessage : IsMessage t
    · obtain ⟨error, herror⟩ := readError_written h hmessage (htext t rfl) hx
      refine .inl ⟨_, ?_, meets_error hname hmet hmessage error⟩
      rw [herror]
      rfl
    · obtain ⟨e, herror⟩ := readError_other h hmessage hx
      refine .inr ⟨⟨e, ?_⟩, fun ms hfits => hmessage (hfits.message t ?_)⟩
      · rw [herror]
        rfl
      · rw [valuesOf_cons_pos hname]
        exact List.mem_cons_self

theorem judged_other (hname : text? ps = some name) (hflag : name ≠ flagName)
    (herror : name ≠ errorName) (h : Written t s) (hb : Blank b) (hb' : Blank b')
    (hends : Ends rest) :
    Judged met (ps, t) rest (readMember name met
      (b.map some ++ some ':' :: (b'.map some ++ (s.map some ++ rest)))) := by
  refine .inl ⟨met, ?_, meets_other ?_ ?_⟩
  · rw [readMember, if_neg hflag, if_neg herror, Json.skipMember, Json.readColon_blank hb]
    simp only [Json.skipValue_written h hends (h.skipBlanks_blank hb')]
    rfl
  · rwa [hname, ne_eq, Option.some.injEq]
  · rwa [hname, ne_eq, Option.some.injEq]

theorem judged_member (hname : text? ps = some name) (h : Written t s) (hb : Blank b)
    (hb' : Blank b') (hends : Ends rest) (hread : Readable met ((ps, t) :: ms)) :
    Judged met (ps, t) rest (readMember name met
      (b.map some ++ some ':' :: (b'.map some ++ (s.map some ++ rest)))) := by
  by_cases hflag : name = flagName
  · subst hflag
    exact judged_flag hname h hb hb' hends hread
  by_cases herror : name = errorName
  · subst herror
    exact judged_error hname h hb hb' hread
  exact judged_other hname hflag herror h hb hb' hends

/-! ### All members -/

theorem fits_nil (met : Members) : Fits met [] := by
  obtain ⟨_ | _, _ | _⟩ := met <;> simp [fits_iff, valuesOf]

theorem entitled_nil (met : Members) : Entitled met [] ↔ (ofMembers met).isEntitled := by
  simp [Entitled, valuesOf]

/-- The members of an object are taken if they fit, and refused otherwise. -/
structure JudgedAll (met : Members) (ms : List (List Piece × Tree)) (rest : Json.Text)
    (read : Json.Read Members) : Prop where
  taken : Fits met ms →
    ∃ met', read = .ok (met', rest) ∧ ((ofMembers met').isEntitled ↔ Entitled met ms)
  refused : ¬ Fits met ms → ∃ e, read = .error e

theorem judgedAll_error {e : Json.Error} (h : ¬ Fits met ms) :
    JudgedAll met ms rest (.error e) where
  taken hfits := absurd hfits h
  refused _ := ⟨e, rfl⟩

theorem judgedAll_nil (met : Members) (rest : Json.Text) :
    JudgedAll met [] rest (.ok (met, rest)) where
  taken _ := ⟨met, rfl, (entitled_nil met).symm⟩
  refused hfits := absurd (fits_nil met) hfits

theorem Meets.judgedAll {read : Json.Read Members} (h : Meets met met' m)
    (hread : JudgedAll met' ms rest read) : JudgedAll met (m :: ms) rest read where
  taken hfits := by
    obtain ⟨met'', hok, hentitled⟩ := hread.taken (h.fits.1 hfits)
    exact ⟨met'', hok, hentitled.trans h.entitled.symm⟩
  refused hfits := hread.refused fun hfits' => hfits (h.fits.2 hfits')

theorem judgedAll_members {ms : List (List Piece × Tree)} {s : List Char} :
    Json.MembersWritten ms s →
    ∀ {fuel : Nat} {met : Members} {x rest : Json.Text}, Readable met ms →
      (Json.skipBlanks x).length ≤ fuel →
      Json.skipBlanks x = Json.skipBlanks (s.map some ++ some '\x7d' :: rest) →
      JudgedAll met ms rest (Json.readMembersWith readMember fuel met x)
  | .last (.mk hb hn hb' hb'' h) hb₃, fuel, met, x, rest, hread, hfuel, hx => by
    simp only [List.map_append, List.map_cons, List.append_assoc, List.cons_append] at hx
    rw [Json.skipBlanks_to hb (by decide)] at hx
    rw [hx, List.length_cons] at hfuel
    obtain ⟨fuel, rfl⟩ := Nat.exists_eq_add_of_le' (Nat.le_trans (Nat.le_add_left 1 _) hfuel)
    obtain ⟨name, hname⟩ := Option.isSome_iff_exists.1 (hread.names _ List.mem_cons_self)
    rcases judged_member hname h hb' hb'' (Json.ends_close (c := '\x7d') hb₃ (by decide)) hread
      with ⟨met', hok, hmeets⟩ | ⟨⟨e, herror⟩, hfits⟩
    · rw [Json.readMembersWith_last hx (Json.readString_spelled hn hname) hok
        (Json.skipBlanks_to hb₃ (by decide))]
      exact hmeets.judgedAll (judgedAll_nil met' rest)
    · rw [Json.readMembersWith_error hx (Json.readString_spelled hn hname) herror]
      exact judgedAll_error (hfits [])
  | .cons (.mk hb hn hb' hb'' h) hb₃ hs, fuel, met, x, rest, hread, hfuel, hx => by
    simp only [List.map_append, List.map_cons, List.append_assoc, List.cons_append] at hx
    rw [Json.skipBlanks_to hb (by decide)] at hx
    rw [hx, List.length_cons] at hfuel
    obtain ⟨fuel, rfl⟩ := Nat.exists_eq_add_of_le' (Nat.le_trans (Nat.le_add_left 1 _) hfuel)
    obtain ⟨name, hname⟩ := Option.isSome_iff_exists.1 (hread.names _ List.mem_cons_self)
    rcases judged_member hname h hb' hb'' (Json.ends_close (c := ',') hb₃ (by decide)) hread
      with ⟨met', hok, hmeets⟩ | ⟨⟨e, herror⟩, hfits⟩
    · rw [Json.readMembersWith_cons hx (Json.readString_spelled hn hname) hok
        (Json.skipBlanks_to hb₃ (by decide))]
      refine hmeets.judgedAll (judgedAll_members hs (hmeets.readable hread) ?_ rfl)
      refine Nat.le_trans (Json.length_skipBlanks_le _) ?_
      simp only [List.length_append, List.length_cons, List.length_map] at hfuel ⊢
      omega
    · rw [Json.readMembersWith_error hx (Json.readString_spelled hn hname) herror]
      exact judgedAll_error (hfits _)

/-! ### Answers -/

/-- A tree that is an answer is read as one, and others are refused. -/
structure Answers (t : Tree) (rest : Json.Text) (read : Json.Read EntitlementResponse) : Prop where
  taken : Accepted t → ∃ r, read = .ok (r, rest) ∧ (r.isEntitled ↔ Grants t)
  refused : ¬ Accepted t → ∃ e, read = .error e

theorem fits_empty : Fits {} ms ↔ Accepted (.object ms) := by
  simp [fits_iff, Accepted]

theorem entitled_empty (h : Accepted (.object ms)) : Entitled {} ms ↔ Grants (.object ms) := by
  have hempty : (ofMembers {}).isEntitled = false := rfl
  obtain ⟨hlength, herror⟩ := h
  rw [Entitled, hempty, Grants, and_iff_left herror]
  match hvalues : valuesOf flagName ms with
  | [] => simp
  | [v] => simp
  | v :: v' :: vs => simp [hvalues] at hlength

theorem judgedAll_record (h : Written (.object ms) s) (hread : Readable {} ms)
    (hx : Json.skipBlanks x = s.map some ++ rest) :
    ∃ r, Json.skipBlanks x = some '\x7b' :: r ∧
      JudgedAll {} ms rest (Json.readRecord readMember {} r) := by
  cases h with
  | noMembers hb =>
    rw [Json.map_enclosed] at hx
    refine ⟨_, hx, ?_⟩
    rw [Json.readRecord_noMembers (Json.skipBlanks_to hb (by decide))]
    exact judgedAll_nil {} rest
  | object h =>
    rw [Json.map_enclosed] at hx
    refine ⟨_, hx, ?_⟩
    rw [Json.readRecord_members h.head?_skipBlanks]
    refine judgedAll_members h hread ?_ (Json.skipBlanks_skipBlanks _)
    rw [Json.skipBlanks_skipBlanks]
    exact Nat.le_succ _

theorem answers_object (h : Written (.object ms) s) (hkept : Kept (.object ms))
    (hx : Json.skipBlanks x = s.map some ++ rest) : Answers (.object ms) rest (readResponse x) := by
  obtain ⟨r, hr, hread⟩ := judgedAll_record h ⟨hkept.1, fun _ => hkept.2.1, fun _ => hkept.2.2⟩ hx
  simp only [readResponse, hr]
  refine ⟨fun haccepted => ?_, fun haccepted => ?_⟩
  · obtain ⟨met, hok, hentitled⟩ := hread.taken (fits_empty.2 haccepted)
    rw [hok]
    exact ⟨_, rfl, hentitled.trans (entitled_empty haccepted)⟩
  · obtain ⟨e, herror⟩ := hread.refused fun h => haccepted (fits_empty.1 h)
    rw [herror]
    exact ⟨e, rfl⟩

theorem readItems_close (hx : Json.skipBlanks x = some ']' :: rest) :
    readItems x = .ok ({}, rest) := by
  rw [readItems, Json.readItem_close hx]
  simp only [bind, Except.bind, Json.closeItems_close hx]
  rfl

/-- The rest of an array, from after its first item. -/
def readRest (flag : Option Json) (x : Json.Text) :
    Except Json.Error (EntitlementResponse × Json.Text) := do
  let (error, r) ← Json.readItem false readError x
  return (⟨flag, error.join⟩, ← Json.closeItems r)

theorem readItems_first (h : Written t s) (ht : IsHeld t) (hends : Ends rest)
    (hx : Json.skipBlanks x = s.map some ++ rest) :
    ∃ flag, readItems x = readRest flag rest ∧ ∀ e, isEntitled ⟨flag, e⟩ ↔ IsTrue t := by
  obtain ⟨flag, hflag, htrue⟩ := readFlag_written h ht hends h.skipBlanks
  refine ⟨flag, ?_, htrue⟩
  rw [readItems, Json.readItem_first h hx, hflag]
  rfl

theorem readRest_close {flag : Option Json} (hx : Json.skipBlanks x = some ']' :: rest) :
    readRest flag x = .ok (⟨flag, none⟩, rest) := by
  rw [readRest, Json.readItem_close hx]
  simp only [bind, Except.bind, Json.closeItems_close hx]
  rfl

theorem readRest_message (flag : Option Json) {y : Json.Text}
    (hx : Json.skipBlanks x = some ',' :: y) (h : Written t s) (hm : IsMessage t) (ht : IsText t)
    (hy : Json.skipBlanks y = s.map some ++ rest) :
    ∃ e, readRest flag x = (Json.closeItems rest).map fun r => (⟨flag, e⟩, r) := by
  obtain ⟨e, herror⟩ := readError_written h hm ht h.skipBlanks
  refine ⟨e, ?_⟩
  rw [readRest, Json.readItem_comma hx h hy, herror]
  cases hclose : Json.closeItems rest with
  | error e => simp [bind, Except.bind, Except.map, hclose]
  | ok r => simp [bind, Except.bind, Except.map, hclose, pure, Except.pure]

theorem readRest_other {flag : Option Json} {y : Json.Text}
    (hx : Json.skipBlanks x = some ',' :: y) (h : Written t s) (hm : ¬ IsMessage t)
    (hy : Json.skipBlanks y = s.map some ++ rest) : ∃ e, readRest flag x = .error e := by
  obtain ⟨e, herror⟩ := readError_other h hm h.skipBlanks
  refine ⟨e, ?_⟩
  rw [readRest, Json.readItem_comma hx h hy, herror]
  rfl

/-- After the first item, one more is taken if it is an error, and a third never. -/
theorem readRest_items (flag : Option Json) {ts : List Tree} (h : Json.ItemsWritten ts s)
    (htext : ∀ e ∈ ts[0]?, IsText e)
    (hx : Json.skipBlanks x = some ',' :: (s.map some ++ some ']' :: rest)) :
    (ts.length ≤ 1 → (∀ e ∈ ts[0]?, IsMessage e) → ∃ e, readRest flag x = .ok (⟨flag, e⟩, rest)) ∧
      (¬ (ts.length ≤ 1 ∧ ∀ e ∈ ts[0]?, IsMessage e) → ∃ e, readRest flag x = .error e) := by
  cases h with
  | @last t b s b' hb h hb' =>
    simp only [List.map_append, List.append_assoc] at hx
    by_cases hm : IsMessage t
    · obtain ⟨e, he⟩ := readRest_message flag hx h hm (htext t rfl) (h.skipBlanks_blank hb)
      rw [he, Json.closeItems_close (Json.skipBlanks_to hb' (by decide))]
      refine ⟨fun _ _ => ⟨e, rfl⟩, fun hrefused => absurd ?_ hrefused⟩
      simp [hm]
    · refine ⟨fun _ hmessage => absurd (hmessage t rfl) hm, fun _ => ?_⟩
      exact readRest_other hx h hm (h.skipBlanks_blank hb)
  | @cons t ts b s b' s' hb h hb' hs =>
    have hlong : ¬ (t :: ts).length ≤ 1 := by
      have := hs.length_pos
      rw [List.length_cons]
      omega
    simp only [List.map_append, List.append_assoc, List.map_cons, List.cons_append] at hx
    refine ⟨fun hlength => absurd hlength hlong, fun _ => ?_⟩
    by_cases hm : IsMessage t
    · obtain ⟨e, he⟩ := readRest_message flag hx h hm (htext t rfl) (h.skipBlanks_blank hb)
      rw [he, Json.closeItems_comma (Json.skipBlanks_to hb' (by decide))]
      exact ⟨_, rfl⟩
    · exact readRest_other hx h hm (h.skipBlanks_blank hb)

theorem answers_items {ts : List Tree} (h : Json.ItemsWritten ts s) (hkept : Kept (.array ts)) :
    Answers (.array ts) rest (readItems (s.map some ++ some ']' :: rest)) := by
  cases h with
  | last hb h hb' =>
    simp only [List.map_append, List.append_assoc]
    obtain ⟨flag, hread, htrue⟩ := readItems_first h (hkept.1 _ rfl)
      (Json.ends_close (c := ']') hb' (by decide)) (h.skipBlanks_blank hb)
    rw [hread, readRest_close (Json.skipBlanks_to hb' (by decide))]
    refine ⟨fun _ => ⟨_, rfl, htrue none⟩, fun h => absurd ?_ h⟩
    simp [Accepted]
  | @cons t ts b s b' s' hb h hb' hs =>
    simp only [List.map_append, List.append_assoc, List.map_cons, List.cons_append]
    obtain ⟨flag, hread, htrue⟩ := readItems_first h (hkept.1 _ rfl)
      (Json.ends_close (c := ',') hb' (by decide)) (h.skipBlanks_blank hb)
    have hcomma : Json.skipBlanks (b'.map some ++ some ',' :: (s'.map some ++ some ']' :: rest)) =
        some ',' :: (s'.map some ++ some ']' :: rest) := Json.skipBlanks_to hb' (by decide)
    obtain ⟨htaken, hrefused⟩ := readRest_items flag hs hkept.2 hcomma
    have haccepted : Accepted (.array (t :: ts)) ↔
        ts.length ≤ 1 ∧ ∀ e ∈ ts[0]?, IsMessage e := by
      simp [Accepted]
    rw [hread]
    refine ⟨fun h => ?_, fun h => hrefused (mt haccepted.2 h)⟩
    obtain ⟨hlength, hmessage⟩ := haccepted.1 h
    obtain ⟨e, he⟩ := htaken hlength hmessage
    refine ⟨_, he, (htrue e).trans ?_⟩
    obtain ⟨t', rfl⟩ := List.length_eq_one_iff.1 (Nat.le_antisymm hlength hs.length_pos)
    exact (and_iff_left (hmessage t' rfl)).symm

theorem answers_array {ts : List Tree} (h : Written (.array ts) s) (hkept : Kept (.array ts))
    (hx : Json.skipBlanks x = s.map some ++ rest) : Answers (.array ts) rest (readResponse x) := by
  cases h with
  | noItems hb =>
    rw [Json.map_enclosed] at hx
    simp only [readResponse, hx]
    rw [readItems_close (Json.skipBlanks_to hb (by decide))]
    refine ⟨fun _ => ⟨{}, rfl, ?_⟩, fun h => absurd ?_ h⟩
    · simp [isEntitled, Grants]
    · simp [Accepted]
  | array h =>
    rw [Json.map_enclosed] at hx
    simp only [readResponse, hx]
    exact answers_items h hkept

/-- Every other tree is refused. -/
theorem answers_scalar (h : Written t s) (hobject : ∀ ms, t ≠ .object ms)
    (harray : ∀ ts, t ≠ .array ts) (hx : Json.skipBlanks x = s.map some ++ rest) :
    Answers t rest (readResponse x) := by
  have hrefused : ¬ Accepted t := by
    cases t with
    | object ms => exact absurd rfl (hobject ms)
    | array ts => exact absurd rfl (harray ts)
    | _ => exact id
  obtain ⟨c, r, rfl, hc⟩ := h.begins
  refine ⟨fun h => absurd h hrefused, fun _ => ⟨Json.mismatchAt x, ?_⟩⟩
  rw [readResponse]
  split
  · next hbrace =>
    rw [hx] at hbrace
    cases hbrace
    cases hc with
    | digit h => cases h
    | object => exact absurd rfl (hobject _)
  · next hbracket =>
    rw [hx] at hbracket
    cases hbracket
    cases hc with
    | digit h => cases h
    | array => exact absurd rfl (harray _)
  · rfl

theorem answers_written (h : Written t s) (hkept : Kept t)
    (hx : Json.skipBlanks x = s.map some ++ rest) : Answers t rest (readResponse x) := by
  match t with
  | .object ms => exact answers_object h hkept hx
  | .array ts => exact answers_array h hkept hx
  | .null | .bool _ | .number _ | .string _ => exact answers_scalar h nofun nofun hx

/-- A document is read as an answer exactly if its tree is one, and then it grants access as
the tree does. -/
theorem read_document {text : List Char} (h : Json.Document t text) (hkept : Kept t) :
    (Accepted t → ∃ r, read (text.map some) = .ok r ∧ (r.isEntitled ↔ Grants t)) ∧
      (¬ Accepted t → ∃ e, read (text.map some) = .error e) := by
  cases h with
  | @mk b s b' hb h hb' =>
    have hx : Json.skipBlanks (b.map some ++ (s.map some ++ b'.map some)) =
        s.map some ++ b'.map some := h.skipBlanks_blank hb
    have hread := answers_written h hkept hx
    simp only [List.map_append]
    refine ⟨fun haccepted => ?_, fun haccepted => ?_⟩
    · obtain ⟨r, hr, hgrants⟩ := hread.taken haccepted
      refine ⟨r, ?_, hgrants⟩
      rw [read, hr, Json.finish, ← List.append_nil (b'.map some), Json.skipBlanks_blank hb']
      rfl
    · obtain ⟨e, he⟩ := hread.refused haccepted
      refine ⟨e, ?_⟩
      rw [read, he, Json.finish]

end ClusterConsole.EntitlementResponse
