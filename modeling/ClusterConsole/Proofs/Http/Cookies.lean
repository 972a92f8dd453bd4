import ClusterConsole.Proofs.Entitlement.Check
import ClusterConsole.Proofs.Url.Origin

/-! Where the cookies of a session go. They are put on every request, whatever server it goes to.
Checks and commands go to the server of the base; a view goes where its path leads, which is
another server only if the path names one. -/

namespace ClusterConsole.Http.Client

variable {c : Client} {network : Network} {calls : List Call} {call : Call} {r : Request}
  {cookie : String} {u : Url}

/-! ### Requests -/

/-- The cookies can stand in a header. -/
def CookiesFit (c : Client) : Prop :=
  (c.credentials.cookie?.getD "").toList.all isHeaderChar = true

theorem origin_sentUrl (u : Url) : (sentUrl u).origin = u.origin := by
  unfold sentUrl Url.origin
  cases u.authority <;> rfl

theorem request_eq_some {method : Method} {body : Option String} :
    c.request? method u body = some r ↔
      u.IsWeb ∧ c.CookiesFit ∧ r = c.requestTo method u body := by
  unfold request? CookiesFit
  split
  · next h => simp only [h.1, h.2, true_and, Option.some.injEq, eq_comm]
  · next h => exact iff_of_false nofun fun hr => h ⟨hr.1, hr.2.1⟩

theorem requestOf_of_join (hjoin : c.base.join (path call) = .ok u) :
    c.requestOf? call = c.request? (method call) u (body call) := by
  unfold requestOf? endpoint
  rw [hjoin]

/-- A call makes a request exactly if its path leads to a web address and the cookies fit, and the
request goes to that address. -/
theorem requestOf_eq_some : c.requestOf? call = some r ↔ ∃ u, c.base.join (path call) = .ok u ∧
    u.IsWeb ∧ c.CookiesFit ∧ r = c.requestTo (method call) u (body call) := by
  constructor
  · intro h
    cases hjoin : c.base.join (path call) with
    | error e =>
      unfold requestOf? endpoint at h
      rw [hjoin] at h
      cases h
    | ok u => exact ⟨u, rfl, request_eq_some.1 (requestOf_of_join hjoin ▸ h)⟩
  · rintro ⟨u, hjoin, h⟩
    exact (requestOf_of_join hjoin).trans (request_eq_some.2 h)

/-- A request has the cookies, and goes where the path of its call leads. -/
theorem request_elim (h : c.requestOf? call = some r) : ∃ u, c.base.join (path call) = .ok u ∧
    u.IsWeb ∧ c.CookiesFit ∧ r.cookie = c.credentials.cookie? ∧ r.url.origin = u.origin := by
  obtain ⟨u, hjoin, hweb, hfit, rfl⟩ := requestOf_eq_some.1 h
  exact ⟨u, hjoin, hweb, hfit, rfl, origin_sentUrl u⟩

/-! ### Servers -/

/-- A request goes to the server of the base unless its path names one. -/
theorem origin_request (h : c.requestOf? call = some r)
    (hpath : c.base.namesServer (path call).toList = false) : r.url.origin = c.base.origin := by
  obtain ⟨u, hjoin, hweb, -, -, horigin⟩ := request_elim h
  rw [horigin]
  exact Url.origin_join hjoin hweb.special.2 hpath

theorem namesServer_route (base : Url) :
    base.namesServer Route.entitlement.toList = false ∧
      base.namesServer Route.command.toList = false := ⟨rfl, rfl⟩

/-! ### What is received -/

/-- A call adds its request to what is received, if the network delivers it. -/
theorem received_concat (hrequest : c.requestOf? call = some r) :
    c.received network (calls ++ [call]) =
      if (network (c.received network calls) r).1.isReceived then c.received network calls ++ [r]
      else c.received network calls := by
  unfold received
  rw [List.foldl_append, List.foldl_cons, List.foldl_nil, hrequest]

theorem received_concat_none (hrequest : c.requestOf? call = none) :
    c.received network (calls ++ [call]) = c.received network calls := by
  unfold received
  rw [List.foldl_append, List.foldl_cons, List.foldl_nil, hrequest]

/-- What the server receives are requests of the calls, in their order. -/
theorem received_sublist (c : Client) (network : Network) (calls : List Call) :
    (c.received network calls).Sublist (calls.filterMap c.requestOf?) := by
  induction calls using List.reverseRecOn with
  | nil => exact .slnil
  | append_singleton calls call ih =>
    rw [List.filterMap_append]
    cases hrequest : c.requestOf? call with
    | none =>
      rw [received_concat_none hrequest]
      exact ih.trans (List.sublist_append_left _ _)
    | some r =>
      rw [received_concat hrequest, List.filterMap_cons_some hrequest]
      split
      · exact ih.append (.refl _)
      · exact ih.trans (List.sublist_append_left _ _)

theorem exists_call (h : r ∈ c.received network calls) :
    ∃ call ∈ calls, c.requestOf? call = some r :=
  List.mem_filterMap.1 ((received_sublist c network calls).subset h)

/-! ### The trail of the cookies -/

/-- Where the requests of a session go that has cookies. -/
structure CookieTrail (c : Client) (network : Network) (calls : List Call) (cookie : String) :
    Prop where
  /-- What is received has the cookies, whatever server it was sent to. -/
  carried : ∀ r ∈ c.received network calls,
    r.cookie = some cookie ∧ ∃ call ∈ calls, c.requestOf? call = some r
  /-- A check and a command go to the server of the base. -/
  own : ∀ call r, (∀ path, call ≠ .view path) → c.requestOf? call = some r →
    r.url.origin = c.base.origin
  /-- A view goes to another server only if its path names one. -/
  named : ∀ path r, c.requestOf? (.view path) = some r → r.url.origin ≠ c.base.origin →
    c.base.namesServer path.toList = true
  /-- It does so exactly if its path leads to a web address there. -/
  strays_iff : ∀ path,
    (∃ r, c.requestOf? (.view path) = some r ∧ r.cookie = some cookie ∧
        r.url.origin ≠ c.base.origin) ↔
      c.CookiesFit ∧ ∃ u, c.base.join path = .ok u ∧ u.IsWeb ∧ u.origin ≠ c.base.origin

/-- The cookies go with every request, so that a view whose path names another server takes them
there. -/
theorem cookieTrail_received (hcookie : c.credentials.cookie? = some cookie) (network : Network)
    (calls : List Call) : CookieTrail c network calls cookie := by
  constructor
  case carried =>
    intro r hr
    obtain ⟨call, hcall, hrequest⟩ := exists_call hr
    obtain ⟨-, -, -, -, hcarried, -⟩ := request_elim hrequest
    exact ⟨hcarried.trans hcookie, call, hcall, hrequest⟩
  case own =>
    intro call r hview hrequest
    obtain ⟨hentitlement, hcommand⟩ := namesServer_route c.base
    apply origin_request hrequest
    cases call with
    | entitlement => exact hentitlement
    | submit request => exact hcommand
    | view path => exact absurd rfl (hview path)
  case named =>
    intro path r hrequest hstrays
    by_contra hno
    exact hstrays (origin_request hrequest (eq_false_of_ne_true hno))
  case strays_iff =>
    intro path
    constructor
    · rintro ⟨r, hrequest, -, hstrays⟩
      obtain ⟨u, hjoin, hweb, hfit, -, horigin⟩ := request_elim hrequest
      exact ⟨hfit, u, hjoin, hweb, horigin ▸ hstrays⟩
    · rintro ⟨hfit, u, hjoin, hweb, hstrays⟩
      refine ⟨_, requestOf_eq_some.2 ⟨u, hjoin, hweb, hfit, rfl⟩, hcookie, ?_⟩
      exact (origin_sentUrl u).symm ▸ hstrays

/-- A session with a token. -/
def tokenClient : Client := { consoleClient with credentials := { accessToken := some "secret" } }

theorem cookieTrail_received_elsewhere :
    let calls : List Call := [.entitlement, .view "//other.test/view", .view "https://other.test/"]
    (tokenClient.received (replying 200 []) calls).map (fun r => (r.url.text, r.cookie)) =
        [("http://console.test/api/v1/isEntitled", some "access_token=secret"),
          ("http://other.test/view", some "access_token=secret"),
          ("https://other.test/", some "access_token=secret")] ∧
      CookieTrail tokenClient (replying 200 []) calls "access_token=secret" :=
  ⟨by decide +kernel, cookieTrail_received (by decide +kernel) _ _⟩

end ClusterConsole.Http.Client
