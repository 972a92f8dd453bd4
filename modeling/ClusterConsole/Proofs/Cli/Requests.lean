import ClusterConsole.Proofs.Cli.Statuses
import ClusterConsole.Proofs.Http.Requests

/-! What the program sends. Whatever it refuses, it refuses before anything is sent. To ask is one
request; a command is submitted only after an answer that grants access; a watch asks for views
and nothing else. -/

namespace ClusterConsole.Cli

variable {arguments : List String} {readText : String → Except FileError String}
  {env : Environment} {network : Http.Network} {p : Plan} {es : List Event} {c : Console}
  {e : Option Ending} {calls : List Call}

namespace Plan

/-- The calls that a plan allows. -/
inductive May (p : Plan) (network : Http.Network) : List Call → Prop
  | nothing : p.May network []
  | check (h : p.Checks) : p.May network [.entitlement]
  | submit {cluster command : String} (haction : p.action = .send cluster command)
      (h : (p.send cluster command).Valid) {response : EntitlementResponse}
      (hreceives : p.client.Receives network response)
      (hflag : response.flag = some (.string "true")) :
      p.May network [.entitlement, .submit (.ofTexts cluster command)]
  | views {enable : Bool} (haction : p.action = .watch enable) {calls : List Call}
      (h : ∀ call ∈ calls, ∃ path, call = .view path) : p.May network calls

theorem may_passed {cluster command : String} (haction : p.action = .send cluster command)
    (h : (p.send cluster command).Passed (p.client.server network) c) : p.May network c.made := by
  obtain ⟨response, hreceives, hflag⟩ := exists_receives h.entitled
  rcases h.pays with ⟨hmade, -⟩ | hsettled
  · rw [hmade]
    exact .check (.inr ⟨cluster, command, haction, h.valid⟩)
  · rw [hsettled.made]
    exact .submit haction h.valid hreceives hflag

theorem may_send {cluster command : String} (haction : p.action = .send cluster command)
    {stage : SendStage}
    (h : (p.send cluster command).Course (p.client.server network) c stage) :
    p.May network c.made := by
  have hnothing (hsettled : c.Settled []) : p.May network c.made := by
    rw [hsettled.made]
    exact .nothing
  have hcheck (hvalid : (p.send cluster command).Valid) (hsettled : c.Settled [.entitlement]) :
      p.May network c.made := by
    rw [hsettled.made]
    exact .check (.inr ⟨cluster, command, haction, hvalid⟩)
  cases stage with
  | start => exact hnothing h
  | asking due result dispatcher position => exact hcheck (Send.Asks.valid h) (Send.Asks.settled h)
  | leaving position => exact may_passed haction h
  | ended ending =>
    replace h : (p.send cluster command).Ends (p.client.server network) c ending := h
    cases h with
    | invalid _ hsettled => exact hnothing hsettled
    | failed hvalid _ hsettled => exact hcheck hvalid hsettled
    | denied hvalid _ _ hsettled => exact hcheck hvalid hsettled
    | done hpassed => exact may_passed haction hpassed
    | closed hpassed => exact may_passed haction hpassed

theorem may_entitled (haction : p.action = .entitled) {stage : EntitledStage}
    (h : Entitled.Course (p.client.server network) c stage) : p.May network c.made := by
  cases stage with
  | start =>
    rw [Console.Settled.made h]
    exact .nothing
  | _ =>
    rw [h.2.made]
    exact .check (.inl haction)

theorem Goes.may (h : p.Goes network es c e) : p.May network c.made := by
  cases haction : p.action with
  | send cluster command =>
    obtain ⟨stage, hcourse, -⟩ := h.send_course haction
    exact may_send haction hcourse
  | entitled =>
    obtain ⟨stage, hcourse, -⟩ := h.entitled_course haction
    exact may_entitled haction hcourse
  | watch enable =>
    refine .views haction fun call hcall => ?_
    obtain ⟨before, after, hmade⟩ := List.append_of_mem hcall
    have hprefix : before ++ [call] <+: c.made := ⟨after, by simp [hmade]⟩
    obtain ⟨pre, c₁, e₁, -, -, -, hview⟩ := h.watch_call haction hprefix
    exact ⟨_, hview⟩

/-- With a form that is not valid nothing is called for. -/
theorem May.eq_nil (h : p.May network calls) (hinvalid : p.IsInvalid) : calls = [] := by
  cases h with
  | nothing => rfl
  | check hchecks => exact absurd hinvalid hchecks.not_isInvalid
  | submit haction hvalid =>
    exact absurd hinvalid (Checks.not_isInvalid (.inr ⟨_, _, haction, hvalid⟩))
  | views haction => exact absurd hinvalid (not_isInvalid_of_watch haction)

theorem May.exists_of_submit {request : CommandRequest} (h : p.May network calls)
    (hmem : .submit request ∈ calls) : ∃ cluster command, p.action = .send cluster command := by
  cases h with
  | nothing => cases hmem
  | check => cases List.mem_singleton.1 hmem
  | submit haction => exact ⟨_, _, haction⟩
  | views _ hviews =>
    obtain ⟨path, hview⟩ := hviews _ hmem
    cases hview

/-- What is submitted is submitted when the answer to the check has come. -/
theorem Goes.answerTime_le (h : p.Goes network es c e) {record : CallRecord}
    (hrecord : record ∈ c.calls) {request : CommandRequest}
    (hcall : record.call = .submit request) :
    Send.answerTime (p.client.server network) ≤ record.time := by
  have hmem := Console.mem_made hrecord hcall
  obtain ⟨cluster, command, haction⟩ := h.may.exists_of_submit hmem
  obtain ⟨stage, hcourse, -⟩ := h.send_course haction
  exact hcourse.answerTime_le hrecord hcall

end Plan

/-! ### The program -/

/-- What the program sends, for any text of a base URL. A host whose name goes beyond ASCII makes it
a refused one. -/
structure Sends (arguments : List String) (readText : String → Except FileError String)
    (env : Environment) (network : Http.Network) : Prop where
  /-- Arguments, settings or a base URL that are refused end the program at once. -/
  refused : Refused arguments readText env → ∀ limit clock id, ∃ report,
    report? arguments readText env network limit clock id = some report ∧ report.requests = []
  /-- The same goes for a form that is not valid. -/
  invalid : ∀ p es c e, plan arguments readText env = .ok p → p.IsInvalid →
    p.Goes network es c e → c.made = []
  /-- At any moment of any run the calls so far are those that the plan allows. -/
  allowed : ∀ p es c e, plan arguments readText env = .ok p → p.Goes network es c e →
    p.May network c.made
  /-- A command is submitted when the answer to the check has come. -/
  patient : ∀ p es c e, plan arguments readText env = .ok p → p.Goes network es c e →
    ∀ record ∈ c.calls, ∀ request, record.call = .submit request →
      Send.answerTime (p.client.server network) ≤ record.time
  /-- A watch calls for the view of the page where it is at the moment of the call. -/
  current : ∀ p enable es c e, plan arguments readText env = .ok p → p.action = .watch enable →
    p.Goes network es c e → ∀ before call, before ++ [call] <+: c.made →
      ∃ pre c₁ e₁, pre <+: es ∧ p.Goes network pre c₁ e₁ ∧ c₁.made = before ∧
        call = .view c₁.page.location.text
  /-- A check is a `GET` of its route, a command a `POST` of its members, a view a `GET`. -/
  requests : ∀ p call r, plan arguments readText env = .ok p →
    p.client.requestOf? call = some r → p.client.IsRequest call r
  /-- The program's own run is one of these runs. -/
  own : ∀ p limit, plan arguments readText env = .ok p → ∃ es c,
    p.Goes network es c (p.run network limit).ending ∧ (p.run network limit).calls = c.made
  /-- What it reports as received are requests of its calls, in their order. -/
  reported : ∀ p limit clock id report, plan arguments readText env = .ok p →
    report? arguments readText env network limit clock id = some report →
      report.requests.Sublist ((p.run network limit).calls.filterMap p.client.requestOf?)

theorem report_of_refused (h : Refused arguments readText env) (network : Http.Network)
    (limit : Nat) (clock id : String) : ∃ report,
    report? arguments readText env network limit clock id = some report ∧ report.requests = [] := by
  obtain ⟨e, hplan⟩ := plan_error_iff.2 h
  unfold report?
  rw [hplan]
  exact ⟨_, rfl, rfl⟩

theorem reported_sublist {limit : Nat} {clock id : String} {report : Report}
    (hplan : plan arguments readText env = .ok p)
    (h : report? arguments readText env network limit clock id = some report) :
    report.requests.Sublist ((p.run network limit).calls.filterMap p.client.requestOf?) := by
  unfold report? at h
  rw [hplan] at h
  obtain ⟨ending, -, rfl⟩ := Option.map_eq_some_iff.1 h
  exact p.client.received_sublist network (p.run network limit).calls

/-- The program sends nothing that it refuses, asks before it submits, and submits only what an
answer lets through. -/
theorem sends_of_arguments (arguments : List String)
    (readText : String → Except FileError String) (env : Environment) (network : Http.Network) :
    Sends arguments readText env network where
  refused h := report_of_refused h network
  invalid _ _ _ _ _ hinvalid hgoes := hgoes.may.eq_nil hinvalid
  allowed _ _ _ _ _ hgoes := hgoes.may
  patient _ _ _ _ _ hgoes _ hrecord _ hcall := hgoes.answerTime_le hrecord hcall
  current _ _ _ _ _ _ haction hgoes _ _ hcall := hgoes.watch_call haction hcall
  requests _ _ _ _ hrequest := Http.Client.isRequest_of_request hrequest
  own p limit _ := p.goes_run network limit
  reported _ _ _ _ _ hplan hreport := reported_sublist hplan hreport

example :
    let arguments := ["--base-url", "https://console.test/", "send", "--cluster", "c", "--command", "k"]
    let network := Http.Client.replying 200 Http.Client.plainText
    (report? arguments (fun _ => .error .notFound) {} network 5000 "" "").map
        (fun r => (r.status, r.requests.map fun q => (q.method, q.url.text, q.body))) =
      some (0, [(.get, "https://console.test/api/v1/isEntitled", ""),
        (.post, "https://console.test/", "\x7b\"cluster\":\"c\",\"command\":\"k\"\x7d")]) := by
  decide +kernel

end ClusterConsole.Cli
