import ClusterConsole.Http.Wire
import ClusterConsole.Proofs.Http.Cookies
import ClusterConsole.Proofs.Json.Printing

/-! The requests of the three calls: a check and a command go to their routes on the server of the
base, a view goes where its path leads. A command is written as an object with two members. A
check comes to an answer exactly if the reply to its request is read as one. -/

namespace ClusterConsole

theorem mapError_eq_ok {α ε ε' : Type} {x : Except ε α} {f : ε → ε'} {a : α} :
    x.mapError f = .ok a ↔ x = .ok a := by
  cases x <;> simp [Except.mapError]

namespace EntitlementResponse

variable {r : EntitlementResponse}

theorem isEntitled_iff : r.isEntitled = true ↔ r.flag = some (.string "true") := by
  unfold isEntitled
  split
  · next s hflag => rw [hflag, beq_iff_eq, Option.some.injEq, Json.string.injEq]
  · next hno =>
    constructor
    · intro h
      cases h
    · intro hflag
      exact absurd hflag (hno "true")

end EntitlementResponse

namespace CommandRequest

/-- A command as a document: its cluster and its text, and nothing else. -/
def tree (r : CommandRequest) : Json.Tree :=
  .object [(Json.pieces targetName, .string (Json.pieces r.target.text)),
    (Json.pieces commandName, .string (Json.pieces r.command))]

theorem document_print (r : CommandRequest) : Json.Document r.tree r.print.toList := by
  have hmembers : List.Forall₂ Json.Printed
      [(targetName, .string r.target.text), (commandName, .string r.command)]
      [(Json.pieces targetName, .string (Json.pieces r.target.text)),
        (Json.pieces commandName, .string (Json.pieces r.command))] :=
    .cons ⟨rfl, Json.written_printString r.target.text⟩
      (.cons ⟨rfl, Json.written_printString r.command⟩ .nil)
  rw [print, String.toList_ofList]
  exact Json.document_print (Json.written_print_object hmembers)

end CommandRequest

namespace Http.Client

variable {c : Client} {r : Request} {u url : Url} {path : String} {request : CommandRequest}
  {network : Network} {response : EntitlementResponse} {reply : Option Reply}
  {before : List Request} {call : Call}

/-! ### The request of a call -/

/-- A request of a check. -/
structure IsCheck (c : Client) (r : Request) : Prop where
  method : r.method = .get
  target : target r.url = "/api/v1/isEntitled"
  origin : r.url.origin = c.base.origin
  body : r.body = ""

/-- A request that carries a command. -/
structure IsSubmission (c : Client) (request : CommandRequest) (r : Request) : Prop where
  method : r.method = .post
  target : target r.url = "/"
  origin : r.url.origin = c.base.origin
  body : Json.Document request.tree r.body.toList

/-- A request for the view of a place. -/
structure IsView (c : Client) (path : String) (r : Request) : Prop where
  method : r.method = .get
  url : ∃ u, c.base.join path = .ok u ∧ r.url = sentUrl u
  body : r.body = ""

theorem isCheck_of_request (h : c.requestOf? .entitlement = some r) : c.IsCheck r := by
  have horigin := origin_request h (namesServer_route c.base).1
  obtain ⟨u, hjoin, hweb, -, rfl⟩ := requestOf_eq_some.1 h
  have hreference : Url.reference c.base ⟨Route.entitlement.toList, none, none⟩ = .ok u := hjoin
  obtain ⟨⟨segments, hpath⟩, hfile⟩ := Url.base_of_reference hreference hweb.special.2 rfl
  cases (Url.join_entitlement hpath hfile).symm.trans hjoin
  exact ⟨rfl, rfl, horigin, rfl⟩

theorem isSubmission_of_request (h : c.requestOf? (.submit request) = some r) :
    c.IsSubmission request r := by
  have horigin := origin_request h (namesServer_route c.base).2
  obtain ⟨u, hjoin, hweb, -, rfl⟩ := requestOf_eq_some.1 h
  have hroute : c.base.join Route.command = Url.reference c.base ⟨['/'], none, none⟩ := rfl
  replace hjoin : c.base.join Route.command = .ok u := hjoin
  obtain ⟨⟨segments, hpath⟩, hfile⟩ :=
    Url.base_of_reference (hroute.symm.trans hjoin) hweb.special.2 rfl
  have hhome : c.base.join Route.command = .ok (c.base.pageNamed []) := Url.join_home hpath hfile
  obtain rfl : c.base.pageNamed [] = u := Except.ok.inj (hhome.symm.trans hjoin)
  exact {
    method := rfl
    target := rfl
    origin := horigin
    body := request.document_print }

theorem isView_of_request (h : c.requestOf? (.view path) = some r) : c.IsView path r := by
  obtain ⟨u, hjoin, -, -, rfl⟩ := requestOf_eq_some.1 h
  exact ⟨rfl, ⟨u, hjoin, rfl⟩, rfl⟩

/-- What the request of a call has to be. -/
def IsRequest (c : Client) : Call → Request → Prop
  | .entitlement, r => c.IsCheck r
  | .submit request, r => c.IsSubmission request r
  | .view path, r => c.IsView path r

theorem isRequest_of_request (h : c.requestOf? call = some r) :
    c.IsRequest call r := by
  cases call with
  | entitlement => exact isCheck_of_request h
  | submit request => exact isSubmission_of_request h
  | view path => exact isView_of_request h

/-! ### The answer to a check -/

/-- The first check is answered, and its body is read as this. -/
def Receives (c : Client) (network : Network) (response : EntitlementResponse) : Prop :=
  ∃ request reply time bytes, c.requestOf? .entitlement = some request ∧
    network [] request = (.answered reply, time) ∧ reply.bytes? = some bytes ∧
      EntitlementResponse.read (.ofBytes bytes) = .ok response

theorem readEntitlement_eq_ok : readEntitlement url reply = .ok response ↔
    ∃ r bytes, reply = some r ∧ r.bytes? = some bytes ∧
      EntitlementResponse.read (.ofBytes bytes) = .ok response := by
  constructor
  · intro h
    unfold readEntitlement at h
    split at h
    · cases h
    · next r =>
      split at h
      · next response' hread =>
        cases h
        obtain ⟨bytes, hbytes, hread⟩ := Option.map_eq_some_iff.1 hread
        exact ⟨r, bytes, rfl, hbytes, hread⟩
      · cases h
  · rintro ⟨r, bytes, rfl, hbytes, hread⟩
    unfold readEntitlement
    dsimp only
    rw [hbytes, Option.map_some, hread]

theorem exchange_eq_some {r : Reply} {time : Nat}
    (h : c.exchange network before call = (some r, time)) :
    ∃ request, c.requestOf? call = some request ∧
      network before request = (.answered r, time) := by
  unfold exchange at h
  split at h
  · cases h
  · next request hrequest =>
    split at h
    · next r' time' hanswer =>
      cases h
      exact ⟨request, hrequest, hanswer⟩
    · cases h

/-- A check comes to an answer exactly if the server's reply is read as it. -/
theorem receives_iff :
    c.Receives network response ↔ ((c.server network).entitlement []).result = .ok response := by
  have hanswer : (c.server network).entitlement [] =
    c.answer network [] .entitlement readEntitlement := rfl
  rw [hanswer]
  constructor
  · rintro ⟨request, reply, time, bytes, hrequest, hreply, hbytes, hread⟩
    obtain ⟨url, hurl⟩ := exists_endpoint hrequest
    rw [result_answer network [] readEntitlement hurl, exchange_answered hrequest hreply,
      mapError_eq_ok]
    exact readEntitlement_eq_ok.2 ⟨reply, bytes, rfl, hbytes, hread⟩
  · intro h
    cases hurl : c.endpoint (path .entitlement) with
    | error e =>
      unfold answer at h
      rw [hurl] at h
      cases h
    | ok url =>
      rw [result_answer network [] readEntitlement hurl, mapError_eq_ok] at h
      obtain ⟨r, bytes, hreply, hbytes, hread⟩ := readEntitlement_eq_ok.1 h
      obtain ⟨request, hrequest, hdelivery⟩ := exchange_eq_some (Prod.ext hreply rfl)
      exact ⟨request, r, _, bytes, hrequest, hdelivery, hbytes, hread⟩

end Http.Client

end ClusterConsole
