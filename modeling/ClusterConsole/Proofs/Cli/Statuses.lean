import ClusterConsole.Proofs.Cli.Program

/-! What the exit status tells. A denial and success have statuses of their own. The status of a
form that is not valid is also that of a command line that is refused; all other failures share
another one. -/

namespace ClusterConsole.Cli

variable {arguments : List String} {readText : String → Except FileError String}
  {env : Environment} {network : Http.Network} {p : Plan} {e : ProgramError}

namespace Plan

/-- The command asks whether the session is entitled. -/
def Checks (p : Plan) : Prop :=
  p.action = .entitled ∨
    ∃ cluster command, p.action = .send cluster command ∧ (p.send cluster command).Valid

/-- The command is to send a form that is not valid. -/
def IsInvalid (p : Plan) : Prop :=
  ∃ cluster command, p.action = .send cluster command ∧ ¬ (p.send cluster command).Valid

theorem Checks.not_isInvalid (h : p.Checks) : ¬ p.IsInvalid := by
  rintro ⟨cluster, command, haction, hinvalid⟩
  rcases h with hentitled | ⟨cluster', command', haction', hvalid⟩
  · cases hentitled.symm.trans haction
  · cases haction.symm.trans haction'
    exact hinvalid hvalid

theorem not_isInvalid_of_watch {enable : Bool} (haction : p.action = .watch enable) :
    ¬ p.IsInvalid := by
  rintro ⟨cluster, command, haction', -⟩
  cases haction.symm.trans haction'

theorem not_checks_of_watch {enable : Bool} (haction : p.action = .watch enable) :
    ¬ p.Checks := by
  rintro (hentitled | ⟨cluster, command, haction', -⟩)
  · cases hentitled.symm.trans haction
  · cases haction.symm.trans haction'

/-- What is behind the ending of a command. -/
inductive Finishes (p : Plan) (network : Http.Network) : Ending → Prop
  | invalid (h : p.IsInvalid) : p.Finishes network (.ok .invalid)
  | unanswered (h : p.Checks) (hno : ∀ response, ¬ p.client.Receives network response)
      (e : CommandError) : p.Finishes network (.error e)
  | denied (h : p.Checks) {response : EntitlementResponse}
      (hreceives : p.client.Receives network response)
      (hflag : response.flag ≠ some (.string "true")) : p.Finishes network (.ok .denied)
  | granted (h : p.Checks) {response : EntitlementResponse}
      (hreceives : p.client.Receives network response)
      (hflag : response.flag = some (.string "true")) {ending : Ending}
      (hending : ending = .ok .done ∨ ending = .error .pageClosed) : p.Finishes network ending
  | watched {enable : Bool} (haction : p.action = .watch enable) {ending : Ending}
      (hending : ending = .ok .done ∨ ∃ error, ending = .error error) : p.Finishes network ending

theorem not_receives {source : String} {response : EntitlementResponse}
    (h : ((p.client.server network).entitlement []).result = .error source) :
    ¬ p.client.Receives network response := by
  rw [Http.Client.receives_iff, h]
  exact nofun

theorem exists_receives
    (h : ClusterConsole.Entitled ((p.client.server network).entitlement []).result) :
    ∃ response, p.client.Receives network response ∧ response.flag = some (.string "true") := by
  obtain ⟨response, hresult, hyes⟩ := h
  exact ⟨response, Http.Client.receives_iff.2 hresult, EntitlementResponse.isEntitled_iff.1 hyes⟩

theorem finishes_send {cluster command : String} {c : Console} {ending : Ending}
    (haction : p.action = .send cluster command)
    (h : (p.send cluster command).Ends (p.client.server network) c ending) :
    p.Finishes network ending := by
  have hchecks (hvalid : (p.send cluster command).Valid) : p.Checks :=
    .inr ⟨cluster, command, haction, hvalid⟩
  cases h with
  | invalid hinvalid => exact .invalid ⟨cluster, command, haction, hinvalid⟩
  | failed hvalid hresult => exact .unanswered (hchecks hvalid) (fun _ => not_receives hresult) _
  | denied hvalid hresult hno =>
    refine .denied (hchecks hvalid) (Http.Client.receives_iff.2 hresult) fun hflag => ?_
    rw [EntitlementResponse.isEntitled_iff.2 hflag] at hno
    cases hno
  | done hpassed =>
    obtain ⟨response, hreceives, hflag⟩ := exists_receives hpassed.entitled
    exact .granted (hchecks hpassed.valid) hreceives hflag (.inl rfl)
  | closed hpassed =>
    obtain ⟨response, hreceives, hflag⟩ := exists_receives hpassed.entitled
    exact .granted (hchecks hpassed.valid) hreceives hflag (.inr rfl)

theorem finishes_entitled (haction : p.action = .entitled) :
    p.Finishes network
      (Entitled.ending ((p.client.server network).entitlement []).result) := by
  have hchecks : p.Checks := .inl haction
  cases hresult : ((p.client.server network).entitlement []).result with
  | error source => exact .unanswered hchecks (fun _ => not_receives hresult) _
  | ok response =>
    have hreceives := Http.Client.receives_iff.2 hresult
    unfold Entitled.ending
    dsimp only
    split
    · next hyes =>
      exact .granted hchecks hreceives (EntitlementResponse.isEntitled_iff.1 hyes) (.inl rfl)
    · next hno => exact .denied hchecks hreceives (mt EntitlementResponse.isEntitled_iff.2 hno)

theorem Goes.finishes {es : List Event} {c : Console} {ending : Ending}
    (h : p.Goes network es c (some ending)) : p.Finishes network ending := by
  cases haction : p.action with
  | send cluster command =>
    obtain ⟨stage, hcourse, hending⟩ := h.send_course haction
    cases stage with
    | ended e =>
      cases hending
      exact finishes_send haction hcourse
    | _ => cases hending
  | entitled =>
    obtain ⟨stage, hcourse, hending⟩ := h.entitled_course haction
    cases stage with
    | ended e =>
      cases hending
      rw [hcourse.1]
      exact finishes_entitled haction
    | _ => cases hending
  | watch enable => exact .watched haction (h.watch_ending haction rfl)

theorem receives_unique {response response' : EntitlementResponse}
    (h : p.client.Receives network response) (h' : p.client.Receives network response') :
    response = response' := by
  rw [Http.Client.receives_iff] at h h'
  exact Except.ok.inj (h.symm.trans h')

namespace Finishes

variable {ending : Ending}

theorem invalid_iff (h : p.Finishes network ending) :
    ending = .ok .invalid ↔ p.IsInvalid := by
  cases h with
  | invalid hinvalid => exact iff_of_true rfl hinvalid
  | unanswered hchecks => exact iff_of_false nofun hchecks.not_isInvalid
  | denied hchecks => exact iff_of_false nofun hchecks.not_isInvalid
  | granted hchecks _ _ hending =>
    refine iff_of_false ?_ hchecks.not_isInvalid
    rcases hending with rfl | rfl <;> exact nofun
  | watched haction hending =>
    refine iff_of_false ?_ (not_isInvalid_of_watch haction)
    rcases hending with rfl | ⟨error, rfl⟩ <;> exact nofun

theorem denied_iff (h : p.Finishes network ending) : ending = .ok .denied ↔
    p.Checks ∧ ∃ response, p.client.Receives network response ∧
      response.flag ≠ some (.string "true") := by
  cases h with
  | invalid hinvalid =>
    exact iff_of_false nofun fun hdenied => hdenied.1.not_isInvalid hinvalid
  | unanswered hchecks hno =>
    exact iff_of_false nofun fun ⟨_, response, hreceives, _⟩ => hno response hreceives
  | denied hchecks hreceives hflag => exact iff_of_true rfl ⟨hchecks, _, hreceives, hflag⟩
  | granted hchecks hreceives hflag hending =>
    refine iff_of_false ?_ ?_
    · rcases hending with rfl | rfl <;> exact nofun
    · rintro ⟨-, response, hreceives', hflag'⟩
      rw [receives_unique hreceives' hreceives] at hflag'
      exact hflag' hflag
  | watched haction hending =>
    refine iff_of_false ?_ fun hdenied => not_checks_of_watch haction hdenied.1
    rcases hending with rfl | ⟨error, rfl⟩ <;> exact nofun

/-- A command that ends as done was granted access, or it was a watch. -/
theorem granted_of_done (h : p.Finishes network (.ok .done)) :
    (p.Checks ∧ ∃ response, p.client.Receives network response ∧
      response.flag = some (.string "true")) ∨ ∃ enable, p.action = .watch enable := by
  cases h with
  | granted hchecks hreceives hflag => exact .inl ⟨hchecks, _, hreceives, hflag⟩
  | watched haction => exact .inr ⟨_, haction⟩

end Finishes

end Plan

/-! ### Exit statuses -/

/-- The exit status that an outcome has. -/
def statusOf : Except ProgramError Exit → Nat
  | .ok exit => exit.status
  | .error e => e.status

/-- The program ends so: it refuses to begin, or its command ends. -/
inductive Exits (arguments : List String) (readText : String → Except FileError String)
    (env : Environment) (network : Http.Network) : Except ProgramError Exit → Prop
  | refused {e : ProgramError} (h : plan arguments readText env = .error e) :
      Exits arguments readText env network (.error e)
  | ended {p : Plan} {es : List Event} {c : Console} {ending : Ending}
      (h : plan arguments readText env = .ok p) (hends : p.Goes network es c (some ending)) :
      Exits arguments readText env network (ending.mapError .command)

/-- What the status of an outcome tells. -/
structure Identified (arguments : List String) (readText : String → Except FileError String)
    (env : Environment) (network : Http.Network) (outcome : Except ProgramError Exit) : Prop where
  /-- The form is not valid, or the arguments are refused. -/
  two_iff : statusOf outcome = 2 ↔ (∃ o, Arguments.read arguments = .error o) ∨
    ∃ p, plan arguments readText env = .ok p ∧ p.IsInvalid
  /-- An answer came that does not grant access. -/
  three_iff : statusOf outcome = 3 ↔ ∃ p, plan arguments readText env = .ok p ∧ p.Checks ∧
    ∃ response, p.client.Receives network response ∧ response.flag ≠ some (.string "true")
  zero_iff : statusOf outcome = 0 ↔ outcome = .ok .done
  /-- Whoever asks is done only with an answer that grants access. -/
  granted : outcome = .ok .done → ∃ p, plan arguments readText env = .ok p ∧
    ((p.Checks ∧ ∃ response, p.client.Receives network response ∧
      response.flag = some (.string "true")) ∨ ∃ enable, p.action = .watch enable)
  /-- All failures but refused arguments have one status. -/
  one_iff : statusOf outcome = 1 ↔
    (∃ a, Arguments.read arguments = .ok a) ∧ ∃ e, outcome = .error e
  bounded : statusOf outcome ≤ 3

/-- What the statuses of the program tell, for any text of a base URL. A host whose name goes beyond
ASCII makes it a refused one. -/
structure Statuses (arguments : List String) (readText : String → Except FileError String)
    (env : Environment) (network : Http.Network) : Prop where
  identified : ∀ outcome, Exits arguments readText env network outcome →
    Identified arguments readText env network outcome
  /-- What the program reports is one of these outcomes. -/
  own : ∀ limit clock id report,
    report? arguments readText env network limit clock id = some report →
      ∃ outcome, Exits arguments readText env network outcome ∧ report.status = statusOf outcome

theorem exits_of_report {limit : Nat} {clock id : String} {report : Report}
    (h : report? arguments readText env network limit clock id = some report) :
    ∃ outcome, Exits arguments readText env network outcome ∧ report.status = statusOf outcome := by
  unfold report? at h
  split at h
  · next e hplan =>
    cases h
    exact ⟨_, .refused hplan, rfl⟩
  · next p hplan =>
    obtain ⟨ending, hending, rfl⟩ := Option.map_eq_some_iff.1 h
    obtain ⟨es, c, hgoes, -⟩ := p.goes_run network limit
    rw [hending] at hgoes
    refine ⟨_, .ended hplan hgoes, ?_⟩
    cases ending <;> rfl

/-- Refused arguments have the status two, unless they ask for something; what is refused after
them has the status one. -/
theorem status_of_refused (hplan : plan arguments readText env = .error e)
    (hhelp : Arguments.read arguments ≠ .error .help)
    (hversion : Arguments.read arguments ≠ .error .version) :
    ((∃ o, Arguments.read arguments = .error o) ∧ e.status = 2) ∨
      ((∃ a, Arguments.read arguments = .ok a) ∧ e.status = 1) := by
  rcases plan_error_cases hplan with ⟨o, hread, rfl⟩ | hrefused
  · refine .inl ⟨⟨o, hread⟩, ?_⟩
    cases o with
    | help => exact absurd hread hhelp
    | version => exact absurd hread hversion
    | _ => rfl
  · exact .inr hrefused

/-- Nothing is begun. -/
theorem identified_of_refused (hplan : plan arguments readText env = .error e)
    (h : ((∃ o, Arguments.read arguments = .error o) ∧ e.status = 2) ∨
      ((∃ a, Arguments.read arguments = .ok a) ∧ e.status = 1)) :
    Identified arguments readText env network (.error e) := by
  have hno : ∀ p, plan arguments readText env ≠ .ok p := fun p hp => by
    cases hplan.symm.trans hp
  have hsame : statusOf (.error e) = e.status := rfl
  have hstatus : e.status = 2 ∨ e.status = 1 := h.imp And.right And.right
  constructor
  case two_iff =>
    rcases h with ⟨hread, htwo⟩ | ⟨⟨a, hread⟩, hone⟩
    · exact iff_of_true htwo (.inl hread)
    · refine iff_of_false (by omega) ?_
      rintro (⟨o, herror⟩ | ⟨p, hp, -⟩)
      · cases hread.symm.trans herror
      · exact hno p hp
  case three_iff => exact iff_of_false (by omega) fun ⟨p, hp, _⟩ => hno p hp
  case zero_iff => exact iff_of_false (by omega) nofun
  case granted => exact nofun
  case one_iff =>
    rcases h with ⟨⟨o, herror⟩, htwo⟩ | ⟨hread, hone⟩
    · refine iff_of_false (by omega) fun ⟨⟨a, hread⟩, _⟩ => ?_
      cases hread.symm.trans herror
    · exact iff_of_true hone ⟨hread, e, rfl⟩
  case bounded => omega

section Ending

variable {ending : Ending}

theorem statusOf_ending (ending : Ending) :
    let status := statusOf (ending.mapError .command)
    (status = 0 ↔ ending = .ok .done) ∧ (status = 1 ↔ ∃ e, ending = .error e) ∧
      (status = 2 ↔ ending = .ok .invalid) ∧ (status = 3 ↔ ending = .ok .denied) ∧ status ≤ 3 := by
  match ending with
  | .ok .done | .ok .invalid | .ok .denied | .error _ =>
    simp [statusOf, Except.mapError, Exit.status, ProgramError.status]

theorem exists_error_iff :
    (∃ e, ending.mapError ProgramError.command = .error e) ↔ ∃ e, ending = .error e := by
  cases ending with
  | ok exit => exact iff_of_false (fun ⟨_, he⟩ => nomatch he) (fun ⟨_, he⟩ => nomatch he)
  | error e => exact iff_of_true ⟨_, rfl⟩ ⟨_, rfl⟩

/-- The command of a plan ends. -/
theorem identified_of_ending (hplan : plan arguments readText env = .ok p)
    (h : p.Finishes network ending) :
    Identified arguments readText env network (ending.mapError .command) := by
  obtain ⟨a, hread⟩ : ∃ a, Arguments.read arguments = .ok a := by
    cases hread : Arguments.read arguments with
    | ok a => exact ⟨a, rfl⟩
    | error o => cases (plan_of_arguments hread).symm.trans hplan
  have hunique : ∀ p', plan arguments readText env = .ok p' → p' = p := fun p' hp =>
    Except.ok.inj (hp.symm.trans hplan)
  obtain ⟨hzero, hone, htwo, hthree, hbounded⟩ := statusOf_ending ending
  constructor
  case two_iff =>
    rw [htwo, h.invalid_iff]
    constructor
    · exact fun hinvalid => .inr ⟨p, hplan, hinvalid⟩
    · rintro (⟨o, herror⟩ | ⟨p', hp, hinvalid⟩)
      · cases hread.symm.trans herror
      · exact hunique p' hp ▸ hinvalid
  case three_iff =>
    rw [hthree, h.denied_iff]
    constructor
    · exact fun hdenied => ⟨p, hplan, hdenied⟩
    · rintro ⟨p', hp, hdenied⟩
      exact hunique p' hp ▸ hdenied
  case zero_iff => rw [hzero, mapError_eq_ok]
  case granted =>
    intro hdone
    rw [mapError_eq_ok] at hdone
    rw [hdone] at h
    exact ⟨p, hplan, h.granted_of_done⟩
  case one_iff =>
    rw [hone, exists_error_iff]
    exact (and_iff_right ⟨a, hread⟩).symm
  case bounded => exact hbounded

end Ending

/-- The status tells a denial and success from all else. Arguments that are refused have that of
a form which is not valid. -/
theorem statuses_of_arguments (hhelp : Arguments.read arguments ≠ .error .help)
    (hversion : Arguments.read arguments ≠ .error .version)
    (readText : String → Except FileError String) (env : Environment) (network : Http.Network) :
    Statuses arguments readText env network := by
  constructor
  case identified =>
    intro outcome h
    cases h with
    | refused hplan =>
      exact identified_of_refused hplan (status_of_refused hplan hhelp hversion)
    | ended hplan hends => exact identified_of_ending hplan hends.finishes
  case own => exact fun limit clock id report h => exits_of_report h

/-- A command that there is not ends the program like a form that is not valid. -/
theorem statuses_of_arguments_bogus :
    (report? ["bogus"] (fun _ => .error .notFound) {} .down 0 "" "").map Report.status = some 2 ∧
      (∀ p, plan ["bogus"] (fun _ => .error .notFound) {} ≠ .ok p) ∧
        Statuses ["bogus"] (fun _ => .error .notFound) {} .down := by
  have hread : Arguments.read ["bogus"] = .error (.unknownCommand "bogus") := by decide +kernel
  have hplan : plan ["bogus"] (fun _ => .error .notFound) {} =
      .error (.options (.unknownCommand "bogus")) := plan_of_arguments hread
  refine ⟨?_, fun p hp => ?_, statuses_of_arguments (fun h => ?_) (fun h => ?_) _ _ _⟩
  · rw [report?, hplan]
    rfl
  · cases hplan.symm.trans hp
  · cases hread.symm.trans h
  · cases hread.symm.trans h

end ClusterConsole.Cli
