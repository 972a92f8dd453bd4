import ClusterConsole.Console.Run
import ClusterConsole.Proofs.Console.Location
import ClusterConsole.Proofs.Http.CookieText
import ClusterConsole.Proofs.Http.Requests

/-! What the calls send, and where to. Each call makes one request to a web address. A check and a
command go to the origin of the base, whatever else stands in it, and a command goes to the page
that the redirect leads home to. All of them carry the cookies of the session; if these cannot
stand in a header, nothing is sent at all. -/

namespace ClusterConsole

/-! ### Cookies -/

namespace Credentials

variable {c : Credentials} {token user : Option String}

/-- The cookies of an access token and a user id, each of which may be absent. -/
def header : Option String → Option String → Option String
  | none, none => none
  | some token, none => some ("access_token=" ++ token)
  | none, some user => some ("user_id=" ++ user)
  | some token, some user => some ("access_token=" ++ token ++ "; user_id=" ++ user)

theorem cookie_eq_header (c : Credentials) : c.cookie? = header c.accessToken c.userId := by
  have htoken : Cookie.accessToken ++ "=" = "access_token=" := by decide
  have huser : Cookie.userId ++ "=" = "user_id=" := by decide
  have hhandover : handover = "; user_id=" := by decide
  obtain ⟨token, user⟩ := c
  cases token with
  | none => cases user <;> simp [cookie_of_user, header, huser]
  | some token =>
    cases user <;>
      simp [cookie_of_token, afterToken, header, htoken, hhandover, String.append_assoc]

/-- A character that no header may hold: a control character, but not the tab. -/
def IsForbidden (a : Char) : Prop := a ≠ '\t' ∧ (a < ' ' ∨ a = '\x7f')

/-- The text can stand in a header. -/
def Fits (s : String) : Prop := ∀ a ∈ s.toList, ¬ IsForbidden a

theorem fits_append {s t : String} : Fits (s ++ t) ↔ Fits s ∧ Fits t := by
  simp only [Fits, String.toList_append, List.forall_mem_append]

theorem isHeaderChar_iff {a : Char} : Http.isHeaderChar a = true ↔ ¬ IsForbidden a := by
  have hspace : ' ' ≤ a ↔ ¬ a < ' ' := Char.not_lt.symm
  simp only [Http.isHeaderChar, IsForbidden, Bool.or_eq_true, Bool.and_eq_true, beq_iff_eq,
    bne_iff_ne, decide_eq_true_eq, hspace]
  tauto

theorem fits_iff {s : String} : Fits s ↔ s.toList.all Http.isHeaderChar = true := by
  simp only [Fits, List.all_eq_true, isHeaderChar_iff]

/-- A value that is set cannot stand in a header. -/
def Unfit (c : Credentials) : Prop :=
  ∃ value, (c.accessToken = some value ∨ c.userId = some value) ∧ ¬ Fits value

/-- The names of the cookies can always stand in a header, so that the values decide. -/
theorem fits_cookie_iff : Fits (c.cookie?.getD "") ↔ ¬ c.Unfit := by
  have hnone : Fits "" := by simp [Fits]
  have htoken : Fits "access_token=" := fits_iff.2 (by decide)
  have huser : Fits "user_id=" := fits_iff.2 (by decide)
  have hboth : Fits "; user_id=" := fits_iff.2 (by decide)
  rw [cookie_eq_header]
  obtain ⟨token, user⟩ := c
  cases token <;> cases user <;>
    simp [header, Unfit, fits_append, hnone, htoken, huser, hboth]

end Credentials

/-! ### Places -/

/-- A place at an origin: the segments of its path and nothing else. -/
def Origin.url (o : Origin) (segments : List (List Char)) : Url :=
  { scheme := o.scheme
    authority := o.host.map fun host => { host, port := o.port }
    path := .rooted segments }

namespace Http

namespace Client

variable {c : Client} {r : Request} {u : Url} {call : Call} {network : Network} {calls : List Call}
  {path : String}

/-! ### Requests -/

theorem cookiesFit_iff : c.CookiesFit ↔ ¬ c.credentials.Unfit :=
  Credentials.fits_iff.symm.trans Credentials.fits_cookie_iff

/-- The request of a call whose path leads to a place. -/
theorem request_iff (hjoin : c.base.join (Client.path call) = .ok u) : c.requestOf? call = some r ↔
    u.IsWeb ∧ ¬ c.credentials.Unfit ∧ r = c.requestTo (method call) u (body call) := by
  rw [requestOf_of_join hjoin, request_eq_some, cookiesFit_iff]

/-- A base with all the parts that a URL may have. -/
def fullBase : Client where
  base := {
    scheme := "http".toList
    authority := some {
      username := "u".toList, password := "p".toList, host := .name "console.test".toList
      port := some 8080 }
    path := .rooted ["a".toList, "b".toList]
    query := some "x".toList
    fragment := some "y".toList }
  credentials := { accessToken := some "t", userId := some "7" }

end Client

end Http

end ClusterConsole
