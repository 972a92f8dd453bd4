import ClusterConsole.Console.Dispatch
import ClusterConsole.Http.Client
import ClusterConsole.Proofs.Entitlement.Answer
import ClusterConsole.Proofs.Text.Utf8
import ClusterConsole.Session.Basic

/-! What a check over HTTP decides. The body of the reply is read as a document, and its tree
decides: neither the status of the reply nor members of other names have a say. -/

namespace ClusterConsole.Http.Client

open EntitlementResponse

variable {client client' : Client} {network network' : Network} {console console' : Console}
  {status status' : Nat} {tree tree' : Json.Tree}

/-- What a check comes to. -/
def decision (client : Client) (network : Network) (console : Console) :
    Except ConsoleError Decision :=
  Decision.ofAnswer (Console.ask (client.server network) console).1.result

/-- It is what a session is told by its check. -/
theorem step_check (session : Session) :
    (session.step (client.server network) .check).1 =
      .decision (decision client network session.console) := rfl

/-- The next check is answered with a status, and with a body that is a text of a tree. The
status may be any that comes with a body. -/
inductive Answered (client : Client) (network : Network) (console : Console) :
    Nat → Json.Tree → Prop
  | mk {request : Request} {reply : Reply} {time : Nat} {text : List Char} {tree : Json.Tree}
      (hrequest : client.requestOf? .entitlement = some request)
      (hreply : network (client.received network (console.calls.map CallRecord.call)) request =
        (.answered reply, time))
      (hbody : reply.bytes? = some (Utf8.encode text)) (htext : Json.Document tree text) :
      Answered client network console reply.status tree

theorem exists_endpoint {request : Request} {call : Call}
    (h : client.requestOf? call = some request) : ∃ url, client.endpoint (path call) = .ok url := by
  unfold requestOf? at h
  split at h
  · cases h
  · next url hurl => exact ⟨url, hurl⟩

theorem result_answer {α : Type} {call : Call} {url : Url} (network : Network)
    (before : List Request) (read : Url → Option Reply → Except CallError α)
    (hurl : client.endpoint (path call) = .ok url) :
    (client.answer network before call read).result =
      (read url (client.exchange network before call).1).mapError CallError.message := by
  unfold answer
  rw [hurl]

theorem exchange_answered {before : List Request} {call : Call} {request : Request}
    {reply : Reply} {time : Nat} (hrequest : client.requestOf? call = some request)
    (hreply : network before request = (.answered reply, time)) :
    client.exchange network before call = (some reply, time) := by
  unfold exchange
  rw [hrequest]
  dsimp only
  rw [hreply]

/-- The answer that the body is, or the text of what is wrong with it. -/
theorem Answered.exists_result (h : Answered client network console status tree) :
    ∃ (text : List Char) (url : Url), Json.Document tree text ∧
      (Console.ask (client.server network) console).1.result =
        match EntitlementResponse.read (text.map some) with
        | .ok response => .ok response
        | .error _ => .error (CallError.unreadable url status).message := by
  obtain @⟨request, reply, time, text, tree, hrequest, hreply, hbody, htext⟩ := h
  obtain ⟨url, hurl⟩ := exists_endpoint hrequest
  refine ⟨text, url, htext, ?_⟩
  have hread : readEntitlement url (some reply) =
      match EntitlementResponse.read (text.map some) with
      | .ok response => .ok response
      | .error _ => .error (.unreadable url reply.status) := by
    simp only [readEntitlement, hbody, Option.map_some, Json.Text.ofBytes, Utf8.decode_encode]
    cases EntitlementResponse.read (text.map some) <;> rfl
  have hresult := result_answer network
    (client.received network (console.calls.map CallRecord.call)) readEntitlement hurl
  rw [exchange_answered hrequest hreply, hread] at hresult
  refine hresult.trans ?_
  cases EntitlementResponse.read (text.map some) <;> rfl

/-- The three ways in which a check can end. -/
inductive Verdict (tree : Json.Tree) : Except ConsoleError Decision → Prop
  | authorized (h : Accepted tree) (h' : Grants tree) : Verdict tree (.ok .authorized)
  | denied (h : Accepted tree) (h' : ¬ Grants tree) : Verdict tree (.ok .denied)
  | refused (h : ¬ Accepted tree) (source : String) :
      Verdict tree (.error (.entitlementCheck source))

theorem verdict_decision (h : Answered client network console status tree) (hkept : Kept tree) :
    Verdict tree (decision client network console) := by
  obtain ⟨text, url, htext, hresult⟩ := h.exists_result
  obtain ⟨htaken, hrefused⟩ := read_document htext hkept
  rw [decision, hresult]
  by_cases haccepted : Accepted tree
  · obtain ⟨r, hr, hgrants⟩ := htaken haccepted
    rw [hr]
    by_cases h : r.isEntitled
    · simpa only [Decision.ofAnswer, if_pos h] using .authorized haccepted (hgrants.1 h)
    · simpa only [Decision.ofAnswer, if_neg h] using .denied haccepted (mt hgrants.2 h)
  · obtain ⟨e, he⟩ := hrefused haccepted
    rw [he]
    exact .refused haccepted _

namespace Verdict

variable {result result' : Except ConsoleError Decision}

theorem authorized_iff (h : Verdict tree result) : result = .ok .authorized ↔ Grants tree := by
  cases h with
  | authorized h h' => exact iff_of_true rfl h'
  | denied h h' => exact iff_of_false nofun h'
  | refused h source => exact iff_of_false nofun fun h' => h h'.accepted

theorem refused_iff (h : Verdict tree result) :
    (∃ source, result = .error (.entitlementCheck source)) ↔ ¬ Accepted tree := by
  cases h with
  | authorized h h' => exact iff_of_false (fun ⟨_, he⟩ => nomatch he) (not_not_intro h)
  | denied h h' => exact iff_of_false (fun ⟨_, he⟩ => nomatch he) (not_not_intro h)
  | refused h source => exact iff_of_true ⟨source, rfl⟩ h

theorem denied_iff (h : Verdict tree result) :
    result = .ok .denied ↔ Accepted tree ∧ ¬ Grants tree := by
  cases h with
  | authorized h h' => exact iff_of_false nofun fun hn => hn.2 h'
  | denied h h' => exact iff_of_true rfl ⟨h, h'⟩
  | refused h source => exact iff_of_false nofun fun hn => h hn.1

theorem toOption_eq (h : Verdict tree result) (h' : Verdict tree' result')
    (hknown : known tree' = known tree) : result'.toOption = result.toOption := by
  have haccepted : Accepted tree' ↔ Accepted tree := by
    rw [← accepted_known, hknown, accepted_known]
  have hgrants : Grants tree' ↔ Grants tree := by rw [← grants_known, hknown, grants_known]
  cases h with
  | authorized h hg =>
    rw [h'.authorized_iff.2 (hgrants.2 hg)]
  | denied h hg =>
    rw [h'.denied_iff.2 ⟨haccepted.2 h, mt hgrants.1 hg⟩]
  | refused h source =>
    obtain ⟨source', hrefused⟩ := h'.refused_iff.2 (mt haccepted.1 h)
    rw [hrefused]
    rfl

end Verdict

/-- The check of a session passes exactly if the tree grants access, fails exactly if the tree is
no answer, and is denied otherwise. Another reply, of any status, with the same known members
leads to the same end. -/
theorem decision_answered (h : Answered client network console status tree) (hkept : Kept tree) :
    (∀ session : Session, session.console = console →
        (session.step (client.server network) .check).1 =
          .decision (decision client network console)) ∧
      (decision client network console = .ok .authorized ↔ Grants tree) ∧
      ((∃ source, decision client network console = .error (.entitlementCheck source)) ↔
        ¬ Accepted tree) ∧
      (decision client network console = .ok .denied ↔ Accepted tree ∧ ¬ Grants tree) ∧
      ∀ {client' network' console' status' tree'},
        Answered client' network' console' status' tree' → Kept tree' → known tree' = known tree →
          (decision client' network' console').toOption =
            (decision client network console).toOption := by
  have hverdict := verdict_decision h hkept
  refine ⟨?_, hverdict.authorized_iff, hverdict.refused_iff, hverdict.denied_iff, ?_⟩
  · rintro session rfl
    exact step_check session
  intro client' network' console' status' tree' h' hkept' hknown
  exact hverdict.toOption_eq (verdict_decision h' hkept') hknown

/-! ### An odd grant -/

/-- A network that gives the same reply to every request. -/
def replying (status : Nat) (text : List Char) : Network :=
  fun _ _ => (.answered { status, body := Utf8.encode text }, 0)

theorem answered_replying {request : Request} {text : List Char}
    (hrequest : client.requestOf? .entitlement = some request) (hstatus : isBodiless status = false)
    (htext : Json.Document tree text) :
    Answered client (replying status text) console status tree := by
  have hreply (before : List Request) :
      replying status text before request = (.answered { status, body := Utf8.encode text }, 0) :=
    rfl
  refine .mk hrequest (hreply _) ?_ htext
  rw [Reply.bytes?, hstatus]
  rfl

def consoleClient : Client :=
  ⟨{ scheme := "http".toList, authority := some { host := .name "console.test".toList },
     path := .rooted [[]] }, {}⟩

/-- The same server behind an encrypted connection. -/
def secureClient : Client :=
  { consoleClient with base := { consoleClient.base with scheme := "https".toList } }

/-- A number that is out of range, `1e400`. -/
def huge : Json.Numeral where
  negative := false
  whole := ⟨[1], by decide⟩
  fraction := none
  exponent := some ⟨false, none, ⟨[4, 0, 0], by decide⟩⟩
  leading := by decide

def flagMember : List Json.Piece × Json.Tree :=
  (flagName.toList.map .char, .string ("true".toList.map .char))

/-- A member that could not be kept. -/
def oddMember : List Json.Piece × Json.Tree :=
  ("x".toList.map .char, .array [.string [.half 0xD800], .number huge])

def plainText : List Char := "\x7b\"is_entitled\":\"true\"\x7d".toList

def oddText : List Char :=
  "\x7b\"is_entitled\":\"\\u0074rue\",\"x\":[\"\\uD800\",1e400]\x7d".toList

theorem document_plain : Json.Document (.object [flagMember]) plainText :=
  .mk Json.blank_nil (.object (.last (.mk Json.blank_nil (Json.spelled_plain (by decide))
    Json.blank_nil Json.blank_nil (.string (Json.spelled_plain (by decide)))) Json.blank_nil))
    Json.blank_nil

theorem document_odd : Json.Document (.object [flagMember, oddMember]) oddText := by
  have ht : Json.Hex 0x74 "0074".toList := @Json.Hex.mk _ _ _ _ 0 0 7 4 rfl rfl rfl rfl
  have htrue : Json.Spelled ("true".toList.map .char) "\\u0074rue".toList :=
    .cons (.code ht (by decide)) (Json.spelled_plain (by decide))
  have hhalf : Json.Spelled [.half 0xD800] "\\uD800".toList :=
    .cons (.half (@Json.Hex.mk _ _ _ _ 13 8 0 0 rfl rfl rfl rfl) (by decide)) .nil
  have hitems : Json.ItemsWritten [.string [.half 0xD800], .number huge]
      "\"\\uD800\",1e400".toList :=
    .cons Json.blank_nil (.string hhalf) Json.blank_nil
      (.last Json.blank_nil (.number huge) Json.blank_nil)
  exact .mk Json.blank_nil (.object (.cons (.mk Json.blank_nil (Json.spelled_plain (by decide))
    Json.blank_nil Json.blank_nil (.string htrue)) Json.blank_nil
    (.last (.mk Json.blank_nil (Json.spelled_plain (by decide)) Json.blank_nil Json.blank_nil
      (.array hitems)) Json.blank_nil))) Json.blank_nil

theorem decision_answered_odd :
    ((default : Session).step (secureClient.server (replying 401 oddText)) .check).1 =
        .decision (.ok .authorized) ∧
      (decision consoleClient (replying 200 plainText) default).toOption = some .authorized := by
  obtain ⟨request, hrequest⟩ : ∃ request, consoleClient.requestOf? .entitlement = some request :=
    Option.isSome_iff_exists.1 (by decide +kernel)
  obtain ⟨request', hrequest'⟩ : ∃ request, secureClient.requestOf? .entitlement = some request :=
    Option.isSome_iff_exists.1 (by decide +kernel)
  have hname : Json.text? flagMember.1 = some flagName := Json.text?_map_char flagName
  have hx : Json.text? oddMember.1 = some "x" := Json.text?_map_char "x"
  have htrue : IsTrue flagMember.2 := ⟨_, rfl, Json.text?_map_char "true"⟩
  have hheld : IsHeld flagMember.2 := by
    refine ⟨?_, Nat.zero_le _⟩
    rw [value?_eq_true.2 htrue]
    rfl
  have hplain : Kept (.object [flagMember]) := by
    simp [Kept, valuesOf, hname, hheld, flagName, errorName]
  have hodd : Kept (.object [flagMember, oddMember]) := by
    simp [Kept, valuesOf, hname, hx, hheld, flagName, errorName]
  have hgrants : Grants (.object [flagMember, oddMember]) := by
    simp [Grants, valuesOf, hname, hx, htrue, flagName, errorName]
  have hknown : known (.object [flagMember]) = known (.object [flagMember, oddMember]) := by
    simp [known, hname, hx, flagName, errorName]
  have hstatus : isBodiless 401 = false := by decide
  have hstatus' : isBodiless 200 = false := by decide
  have hanswered : Answered secureClient (replying 401 oddText) default 401
      (.object [flagMember, oddMember]) := answered_replying hrequest' hstatus document_odd
  obtain ⟨htold, hauthorized, -, -, hsame⟩ := decision_answered hanswered hodd
  have hgranted := hauthorized.2 hgrants
  refine ⟨(htold default rfl).trans (congrArg SessionResult.decision hgranted), ?_⟩
  rw [hsame (answered_replying hrequest hstatus' document_plain) hplain hknown, hgranted]
  rfl

end ClusterConsole.Http.Client
