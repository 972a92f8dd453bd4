import Mathlib.Data.List.Infix
import ClusterConsole.Credentials

/-! What the header of the cookies tells of the credentials. The values stand in it as they are, so
that an access token may go on with what reads as the end of a cookie and the beginning of the
user id. Apart from that no two credentials have one header. -/

namespace ClusterConsole

/-! ### Words in a text -/

section Cut

variable {α : Type} {x : α} {word rest a a' b b' l : List α}

/-- A word whose first letter does not come again in it cannot overlap itself: of two texts that
start with it, one of which goes on, the other has it again after the first. -/
theorem eq_or_exists_of_word (hword : word = x :: rest) (hx : x ∉ rest)
    (h : word ++ b = l ++ (word ++ b')) :
    l = [] ∧ b = b' ∨ ∃ m, l = word ++ m ∧ b = m ++ word ++ b' := by
  rcases List.append_eq_append_iff.1 h with ⟨m, hl, hb⟩ | ⟨m, hsplit, hb⟩
  · exact .inr ⟨m, hl, by rw [hb, List.append_assoc]⟩
  · cases l with
    | nil =>
      obtain rfl : word = m := hsplit
      exact .inl ⟨rfl, (List.append_cancel_left hb).symm⟩
    | cons y l =>
      cases m with
      | nil =>
        refine .inr ⟨[], by simpa using hsplit.symm, ?_⟩
        simpa using hb.symm
      | cons z m =>
        -- The word would start again within itself.
        rw [hword] at hsplit hb
        obtain ⟨-, hrest⟩ := List.cons.inj hsplit
        obtain ⟨rfl, -⟩ := List.cons.inj hb
        exact absurd (by rw [hrest]; simp) hx

/-- A text that is cut at such a word in two ways has it twice. -/
theorem cut_cases (hword : word = x :: rest) (hx : x ∉ rest)
    (h : a ++ word ++ b = a' ++ word ++ b') :
    a = a' ∧ b = b' ∨ (∃ m, a' = a ++ word ++ m ∧ b = m ++ word ++ b') ∨
      ∃ m, a = a' ++ word ++ m ∧ b' = m ++ word ++ b := by
  rw [List.append_assoc, List.append_assoc] at h
  rcases List.append_eq_append_iff.1 h with ⟨l, rfl, htail⟩ | ⟨l, rfl, htail⟩
  · rcases eq_or_exists_of_word hword hx htail with ⟨rfl, rfl⟩ | ⟨m, rfl, rfl⟩
    · exact .inl ⟨(List.append_nil a).symm, rfl⟩
    · exact .inr (.inl ⟨m, (List.append_assoc ..).symm, rfl⟩)
  · rcases eq_or_exists_of_word hword hx htail with ⟨rfl, rfl⟩ | ⟨m, rfl, rfl⟩
    · exact .inl ⟨List.append_nil a', rfl⟩
    · exact .inr (.inr ⟨m, (List.append_assoc ..).symm, rfl⟩)

end Cut

namespace Credentials

/-- What stands in a header between the access token and the user id. -/
def handover : String := "; " ++ Cookie.userId ++ "="

theorem handover_cases {a a' b b' : String} (h : a ++ handover ++ b = a' ++ handover ++ b') :
    a = a' ∧ b = b' ∨ (∃ m, a' = a ++ handover ++ m ∧ b = m ++ handover ++ b') ∨
      ∃ m, a = a' ++ handover ++ m ∧ b' = m ++ handover ++ b := by
  have hlist := congrArg String.toList h
  simp only [String.toList_append] at hlist
  have hword : handover.toList = ';' :: " user_id=".toList := by decide
  rcases cut_cases hword (by decide) hlist with ⟨ha, hb⟩ | ⟨m, ha, hb⟩ | ⟨m, ha, hb⟩
  · exact .inl ⟨String.toList_inj.1 ha, String.toList_inj.1 hb⟩
  · refine .inr (.inl ⟨String.ofList m, String.toList_inj.1 ?_, String.toList_inj.1 ?_⟩)
    · simpa using ha
    · simpa using hb
  · refine .inr (.inr ⟨String.ofList m, String.toList_inj.1 ?_, String.toList_inj.1 ?_⟩)
    · simpa using ha
    · simpa using hb

/-! ### Headers -/

variable {c c' : Credentials} {token token' : String} {user user' : Option String}

/-- What a header has after the name of the access token. -/
def afterToken (token : String) (user : Option String) : String :=
  user.elim token (token ++ handover ++ ·)

theorem cookie_of_token (token : String) (user : Option String) :
    (⟨some token, user⟩ : Credentials).cookie? =
      some (Cookie.accessToken ++ "=" ++ afterToken token user) := by
  cases user with
  | none => rfl
  | some user =>
    have hpairs : (⟨some token, some user⟩ : Credentials).cookie? =
        some (Cookie.accessToken ++ "=" ++ token ++ "; " ++ (Cookie.userId ++ "=" ++ user)) := rfl
    rw [hpairs, afterToken, Option.elim_some, handover]
    simp only [String.append_assoc]

theorem cookie_of_user (user : Option String) :
    (⟨none, user⟩ : Credentials).cookie? = user.map (Cookie.userId ++ "=" ++ ·) := by
  cases user <;> rfl

/-- No header begins with both names. -/
theorem token_ne_user (text user : String) :
    Cookie.accessToken ++ "=" ++ text ≠ Cookie.userId ++ "=" ++ user := by
  intro h
  have hhead := congrArg (fun s => s.toList.head?) h
  simp [Cookie.accessToken, Cookie.userId] at hhead

/-- The access token goes on with what reads as a user id. In the other credentials that is the
user id, with the first one's at its end. -/
inductive Forges : Credentials → Credentials → Prop
  | absent (token user : String) :
      Forges ⟨some (token ++ handover ++ user), none⟩ ⟨some token, some user⟩
  | present (token between user : String) :
      Forges ⟨some (token ++ handover ++ between), some user⟩
        ⟨some token, some (between ++ handover ++ user)⟩

theorem Forges.cookie_eq (h : c.Forges c') : c.cookie? = c'.cookie? := by
  cases h with
  | absent token user => rw [cookie_of_token, cookie_of_token]; rfl
  | present token between user =>
    rw [cookie_of_token, cookie_of_token]
    simp only [afterToken, Option.elim_some, String.append_assoc]

theorem forges_of_afterToken (h : afterToken token user = afterToken token' user') :
    token = token' ∧ user = user' ∨ Forges ⟨some token, user⟩ ⟨some token', user'⟩ ∨
      Forges ⟨some token', user'⟩ ⟨some token, user⟩ := by
  match user, user', h with
  | none, none, h => exact .inl ⟨h, rfl⟩
  | none, some user', h =>
    replace h : token = token' ++ handover ++ user' := h
    exact .inr (.inl (h ▸ .absent token' user'))
  | some user, none, h =>
    replace h : token ++ handover ++ user = token' := h
    exact .inr (.inr (h ▸ .absent token user))
  | some user, some user', h =>
    rcases handover_cases h with ⟨rfl, rfl⟩ | ⟨m, rfl, rfl⟩ | ⟨m, rfl, rfl⟩
    · exact .inl ⟨rfl, rfl⟩
    · exact .inr (.inr (.present token m user'))
    · exact .inr (.inl (.present token' m user))

theorem eq_or_forges (h : c.cookie? = c'.cookie?) : c = c' ∨ c.Forges c' ∨ c'.Forges c := by
  obtain ⟨token, user⟩ := c
  obtain ⟨token', user'⟩ := c'
  match token, token', h with
  | none, none, h =>
    rw [cookie_of_user, cookie_of_user] at h
    have hinj : Function.Injective (Cookie.userId ++ "=" ++ · : String → String) :=
      fun _ _ => (String.append_right_inj _).1
    exact .inl (congrArg _ (Option.map_injective hinj h))
  | some token, none, h =>
    rw [cookie_of_token, cookie_of_user] at h
    obtain ⟨user, -, huser⟩ := Option.map_eq_some_iff.1 h.symm
    exact absurd huser.symm (token_ne_user _ user)
  | none, some token', h =>
    rw [cookie_of_token, cookie_of_user] at h
    obtain ⟨user, -, huser⟩ := Option.map_eq_some_iff.1 h
    exact absurd huser.symm (token_ne_user _ user)
  | some token, some token', h =>
    rw [cookie_of_token, cookie_of_token] at h
    have htext := (String.append_right_inj _).1 (Option.some.inj h)
    rcases forges_of_afterToken htext with ⟨rfl, rfl⟩ | hforges
    · exact .inl rfl
    · exact .inr hforges

/-! ### The law -/

/-- The handover stands in the access token. -/
def HandsOver (c : Credentials) : Prop :=
  ∃ token rest, c.accessToken = some (token ++ handover ++ rest)

theorem handsOver_iff : c.HandsOver ↔ ∃ c', c.Forges c' := by
  constructor
  · rintro ⟨token, rest, htoken⟩
    obtain ⟨_, user⟩ := c
    obtain rfl : _ = some (token ++ handover ++ rest) := htoken
    cases user with
    | none => exact ⟨_, .absent token rest⟩
    | some user => exact ⟨_, .present token rest user⟩
  · rintro ⟨c', h⟩
    cases h with
    | absent token user => exact ⟨token, user, rfl⟩
    | present token between user => exact ⟨token, between, rfl⟩

theorem handover_ne (a b : String) : a ++ handover ++ b ≠ a ∧ a ++ handover ++ b ≠ b := by
  have hlonger : a.length < (a ++ handover ++ b).length ∧
      b.length < (a ++ handover ++ b).length := by
    have hhandover : handover.length = 10 := by decide
    simp only [String.length_append, hhandover]
    omega
  exact ⟨fun h => absurd (congrArg String.length h).symm (Nat.ne_of_lt hlonger.1),
    fun h => absurd (congrArg String.length h).symm (Nat.ne_of_lt hlonger.2)⟩

theorem Forges.ne (h : c.Forges c') : c.accessToken ≠ c'.accessToken ∧ c.userId ≠ c'.userId := by
  cases h with
  | absent token user => exact ⟨fun he => (handover_ne token user).1 (Option.some.inj he), nofun⟩
  | present token between user =>
    exact ⟨fun he => (handover_ne token between).1 (Option.some.inj he),
      fun he => (handover_ne between user).2 (Option.some.inj he).symm⟩

/-- What the header of credentials tells of them. -/
structure Told (c : Credentials) : Prop where
  /-- Others have it exactly if one of the two forges the other. -/
  same_iff : ∀ c', c.cookie? = c'.cookie? ↔ c = c' ∨ c.Forges c' ∨ c'.Forges c
  /-- What is forged differs in both values. -/
  differs : ∀ c', c.Forges c' → c.accessToken ≠ c'.accessToken ∧ c.userId ≠ c'.userId
  /-- An access token forges exactly if the handover stands in it. No user id does. -/
  handsOver : c.HandsOver ↔ ∃ c', c.Forges c'
  /-- Credentials of which none does so have headers of their own. -/
  own : ¬ c.HandsOver → ∀ c', ¬ c'.HandsOver → c.cookie? = c'.cookie? → c = c'

/-- The header tells the credentials, unless an access token makes up a user id. -/
theorem told_cookie (c : Credentials) : c.Told := by
  have hsame : ∀ c', c.cookie? = c'.cookie? ↔ c = c' ∨ c.Forges c' ∨ c'.Forges c := by
    refine fun c' => ⟨eq_or_forges, ?_⟩
    rintro (rfl | hforges | hforges)
    · rfl
    · exact hforges.cookie_eq
    · exact hforges.cookie_eq.symm
  constructor
  case same_iff => exact hsame
  case differs => exact fun c' => Forges.ne
  case handsOver => exact handsOver_iff
  case own =>
    intro hc c' hc' h
    rcases (hsame c').1 h with heq | hforges | hforges
    · exact heq
    · exact absurd (handsOver_iff.2 ⟨c', hforges⟩) hc
    · exact absurd (handsOver_iff.2 ⟨c, hforges⟩) hc'

/-- A session without a user id may look like one that has it. -/
example : (⟨some "a; user_id=b", none⟩ : Credentials).cookie? =
    (⟨some "a", some "b"⟩ : Credentials).cookie? := by
  decide +kernel

end Credentials

end ClusterConsole
