import ClusterConsole.Proofs.Console.Denial
import ClusterConsole.Proofs.Http.Targets
import ClusterConsole.Proofs.Url.Printing

/-! The view of a place. A page that was opened and then led on is at a URL that is printed as it
is read, so that the path of its view leads to that place and to no other, whatever the base of
the server is. -/

namespace ClusterConsole

/-! ### Where a page may be -/

theorem Url.IsWeb.server {u : Url} (h : u.IsWeb) : Url.isServerScheme u.scheme = true := by
  rcases h with h | h
  all_goals
    rw [h]
    rfl

namespace Page

variable {p : Page}

/-- The page was opened, and then acted on. -/
def Reached (p : Page) : Prop :=
  ∃ text start actions, Page.open text = .ok start ∧ p = start.acts actions

theorem reached_open {text : String} (h : Page.open text = .ok p) : p.Reached :=
  ⟨text, p, [], h, rfl⟩

theorem Reached.acts (h : p.Reached) (actions : List PageAction) : (p.acts actions).Reached := by
  obtain ⟨text, start, before, hopen, rfl⟩ := h
  exact ⟨text, start, before ++ actions, hopen, List.foldl_append.symm⟩

theorem settled_act (h : p.location.Settled) (action : PageAction) :
    (p.act action).location.Settled := by
  cases action with
  | navigate target =>
    show (p.navigate target).location.Settled
    unfold navigate
    split
    · exact h
    · next hjoin => exact h.join hjoin
  | replace target =>
    show (p.replace target).location.Settled
    unfold replace
    split
    · exact h
    · next hjoin => exact h.join hjoin
  | reload => exact h
  | setChecked checked => exact h

theorem settled_acts (h : p.location.Settled) (actions : List PageAction) :
    (p.acts actions).location.Settled := by
  induction actions generalizing p with
  | nil => exact h
  | cons action actions ih => exact ih (settled_act h action)

theorem settled_open {text : String} (h : Page.open text = .ok p) : p.location.Settled := by
  unfold Page.open at h
  split at h
  · next hparse =>
    cases h
    exact Url.settled_parse hparse
  · cases h

/-- At a web address the page is at a plain URL. -/
theorem Reached.plain (h : p.Reached) (hweb : p.location.IsWeb) : p.location.Plain := by
  obtain ⟨text, start, actions, hopen, rfl⟩ := h
  exact settled_acts (settled_open hopen) actions hweb.server

end Page

theorem World.reached_run {s : Server} {w : World} (h : w.console.page.Reached) (ms : List Move) :
    (w.run s ms).console.page.Reached := by
  induction ms generalizing w with
  | nil => exact h
  | cons m ms ih =>
    obtain ⟨actions, hpage⟩ := move_acts s w m
    exact ih (hpage ▸ h.acts actions)

/-! ### What a view is asked for with -/

namespace Http.Client

variable {c : Client} {u : Url} {path : String} {reply : Option Reply} {view : View}

/-- The request for a path that leads to a place is answered, and the reply is the view. -/
def Shows (c : Client) (network : Network) (before : List Request) (path : String) (u : Url)
    (view : View) : Prop :=
  ∃ r reply time bytes, c.requestOf? (.view path) = some r ∧ r.url = sentUrl u ∧
    network before r = (.answered reply, time) ∧ reply.bytes? = some bytes ∧
      view = ⟨reply.status, bytes.length⟩

/-- What comes of asking for the view at a path that leads to a place. -/
structure Views (c : Client) (path : String) (u : Url) : Prop where
  leads : c.base.join path = .ok u
  /-- The request goes to the place, without the user info and the fragment. -/
  request : ∀ r, c.requestOf? (.view path) = some r → r.method = .get ∧ r.url = sentUrl u ∧
    r.authorization = u.authority.bind authorization? ∧ r.body = ""
  /-- There is one for a web address, if the cookies can stand in a header, and otherwise none. -/
  made : (∃ r, c.requestOf? (.view path) = some r) ↔ u.IsWeb ∧ ¬ c.credentials.Unfit
  /-- It is sent once. -/
  once : ∀ (network : Network) (calls : List Call) (r : Request),
    c.requestOf? (.view path) = some r → c.received network (calls ++ [.view path]) =
      if (network (c.received network calls) r).1.isReceived then c.received network calls ++ [r]
      else c.received network calls
  /-- A view is what the reply to that request is read as. -/
  shown : ∀ (network : Network) (calls : List CallRecord) (view : View),
    ((c.server network).view calls path).result = .ok view ↔
      c.Shows network (c.received network (calls.map CallRecord.call)) path u view
  /-- If no view comes, the failure names the place, or there was a reply that broke off. -/
  failed : ∀ (network : Network) (calls : List CallRecord) (message : String),
    ((c.server network).view calls path).result = .error message →
      message = (CallError.unloaded u).message ∨ message = CallError.brokenBody.message

theorem readView_eq_ok : readView u reply = .ok view ↔
    ∃ r bytes, reply = some r ∧ r.bytes? = some bytes ∧ view = ⟨r.status, bytes.length⟩ := by
  unfold readView
  cases reply with
  | none => simp
  | some r => cases hbytes : r.bytes? <;> simp [hbytes, eq_comm]

theorem readView_error {e : CallError} (h : readView u reply = .error e) :
    e = .unloaded u ∨ e = .brokenBody := by
  unfold readView at h
  split at h
  · cases h
    exact .inl rfl
  · split at h
    · cases h
    · cases h
      exact .inr rfl

theorem exists_request_of_reply {network : Network} {before : List Request} {call : Call}
    {r : Reply} (h : (c.exchange network before call).1 = some r) : ∃ request time,
      c.requestOf? call = some request ∧ network before request = (.answered r, time) := by
  cases hexchange : c.exchange network before call with
  | mk answer time =>
    rw [hexchange] at h
    subst h
    obtain ⟨request, hrequest, hanswer⟩ := exchange_eq_some hexchange
    exact ⟨request, time, hrequest, hanswer⟩

theorem result_view (hjoin : c.base.join path = .ok u) (network : Network)
    (calls : List CallRecord) : ((c.server network).view calls path).result =
      (readView u (c.exchange network (c.received network (calls.map CallRecord.call))
        (.view path)).1).mapError CallError.message := by
  have hurl : c.endpoint (Client.path (.view path)) = .ok u := by
    show c.endpoint path = .ok u
    rw [endpoint, hjoin]
  unfold server
  dsimp only
  exact result_answer network _ readView hurl

/-- A path is asked for where it leads. -/
theorem views_of_join (hjoin : c.base.join path = .ok u) : c.Views path u := by
  have hview : c.base.join (Client.path (.view path)) = .ok u := hjoin
  have hrequest (r : Request) (hr : c.requestOf? (.view path) = some r) : r.method = .get ∧
      r.url = sentUrl u ∧ r.authorization = u.authority.bind authorization? ∧ r.body = "" := by
    obtain ⟨-, -, rfl⟩ := (request_iff hview).1 hr
    exact ⟨rfl, rfl, rfl, rfl⟩
  constructor
  case leads => exact hjoin
  case request => exact hrequest
  case made =>
    constructor
    · rintro ⟨r, hr⟩
      obtain ⟨hweb, hfit, -⟩ := (request_iff hview).1 hr
      exact ⟨hweb, hfit⟩
    · rintro ⟨hweb, hfit⟩
      exact ⟨_, (request_iff hview).2 ⟨hweb, hfit, rfl⟩⟩
  case once => exact fun network calls r => received_concat
  case shown =>
    intro network calls view
    rw [result_view hjoin, mapError_eq_ok, readView_eq_ok]
    constructor
    · rintro ⟨reply, bytes, hreply, hbytes, rfl⟩
      obtain ⟨r, time, hr, hanswer⟩ := exists_request_of_reply hreply
      exact ⟨r, reply, time, bytes, hr, (hrequest r hr).2.1, hanswer, hbytes, rfl⟩
    · rintro ⟨r, reply, time, bytes, hr, -, hanswer, hbytes, rfl⟩
      exact ⟨reply, bytes, congrArg Prod.fst (exchange_answered hr hanswer), hbytes, rfl⟩
  case failed =>
    intro network calls message hfailed
    rw [result_view hjoin] at hfailed
    cases hread : readView u
        (c.exchange network (c.received network (calls.map CallRecord.call)) (.view path)).1 with
    | error e =>
      rw [hread] at hfailed
      obtain rfl : e.message = message := Except.error.inj hfailed
      rcases readView_error hread with rfl | rfl
      · exact .inl rfl
      · exact .inr rfl
    | ok view =>
      rw [hread] at hfailed
      cases hfailed

end Http.Client

end ClusterConsole
