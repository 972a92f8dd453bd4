import ClusterConsole.Cli.Program
import ClusterConsole.Proofs.Cli.Course
import ClusterConsole.Proofs.Http.Requests

/-! The program from its arguments on: what it refuses before it begins, and in what ways a
command may go that it carries out. The order in which the program does things on its own is one
of them; a watch may also be ended by a signal. -/

namespace ClusterConsole.Cli

variable {arguments : List String} {readText : String → Except FileError String}
  {env : Environment} {network : Http.Network} {p : Plan} {e : ProgramError}

/-! ### Plans -/

/-- The arguments, the settings or the base URL are refused. A base URL is also if the name of its
host goes beyond ASCII. -/
def Refused (arguments : List String) (readText : String → Except FileError String)
    (env : Environment) : Prop :=
  (∃ e, Arguments.read arguments = .error e) ∨ ∃ a, Arguments.read arguments = .ok a ∧
    ((∃ e, Settings.ofFile a.config (readText a.config) env = .error e) ∨
      ∃ settings, Settings.ofFile a.config (readText a.config) env = .ok settings ∧
        ∃ e, Url.parse (a.baseUrl.getD settings.baseUrl) = .error e)

/-- What a plan is made of, or what is refused of it. -/
inductive Planned (arguments : List String) (readText : String → Except FileError String)
    (env : Environment) : Except ProgramError Plan → Prop
  | arguments {o : OptionError} (h : Arguments.read arguments = .error o) :
      Planned arguments readText env (.error (.options o))
  | settings {a : Arguments} {s : SettingsError} (h : Arguments.read arguments = .ok a)
      (hs : Settings.ofFile a.config (readText a.config) env = .error s) :
      Planned arguments readText env (.error (.settings s))
  | url {a : Arguments} {s : Settings} {u : UrlError} (h : Arguments.read arguments = .ok a)
      (hs : Settings.ofFile a.config (readText a.config) env = .ok s)
      (hu : Url.parse (a.baseUrl.getD s.baseUrl) = .error u) :
      Planned arguments readText env
        (.error (.console (.invalidUrl (a.baseUrl.getD s.baseUrl) u)))
  | plan {a : Arguments} {s : Settings} {u : Url} (h : Arguments.read arguments = .ok a)
      (hs : Settings.ofFile a.config (readText a.config) env = .ok s)
      (hu : Url.parse (a.baseUrl.getD s.baseUrl) = .ok u) :
      Planned arguments readText env
        (.ok { client := ⟨u, s.credentials⟩, page := .at u, settings := s, action := a.action })

theorem planned_plan (arguments : List String) (readText : String → Except FileError String)
    (env : Environment) : Planned arguments readText env (plan arguments readText env) := by
  unfold plan
  cases h : Arguments.read arguments with
  | error o => exact .arguments h
  | ok a =>
    cases hs : Settings.ofFile a.config (readText a.config) env with
    | error s =>
      simp only [Except.mapError, bind, Except.bind, hs]
      exact .settings h hs
    | ok s =>
      simp only [Except.mapError, bind, Except.bind, hs, Http.Client.open, Page.open]
      cases hu : Url.parse (a.baseUrl.getD s.baseUrl) with
      | error u => exact .url h hs hu
      | ok u => exact .plan h hs hu

theorem plan_error_iff : (∃ e, plan arguments readText env = .error e) ↔
    Refused arguments readText env := by
  have hplanned := planned_plan arguments readText env
  generalize plan arguments readText env = planned at hplanned ⊢
  cases hplanned with
  | arguments h => exact iff_of_true ⟨_, rfl⟩ (.inl ⟨_, h⟩)
  | settings h hs => exact iff_of_true ⟨_, rfl⟩ (.inr ⟨_, h, .inl ⟨_, hs⟩⟩)
  | url h hs hu => exact iff_of_true ⟨_, rfl⟩ (.inr ⟨_, h, .inr ⟨_, hs, _, hu⟩⟩)
  | plan h hs hu =>
    refine iff_of_false nofun ?_
    rintro (⟨e, hread⟩ | ⟨a, hread, hno⟩)
    · cases h.symm.trans hread
    · cases h.symm.trans hread
      rcases hno with ⟨e, hfile⟩ | ⟨settings, hfile, e, hurl⟩
      · cases hs.symm.trans hfile
      · cases hs.symm.trans hfile
        cases hu.symm.trans hurl

/-- Only arguments that are refused end the program with another status than that of a
failure. -/
theorem plan_error_cases (h : plan arguments readText env = .error e) :
    (∃ o, Arguments.read arguments = .error o ∧ e = .options o) ∨
      ((∃ a, Arguments.read arguments = .ok a) ∧ e.status = 1) := by
  have hplanned := planned_plan arguments readText env
  rw [h] at hplanned
  cases hplanned with
  | arguments hread => exact .inl ⟨_, hread, rfl⟩
  | settings hread => exact .inr ⟨⟨_, hread⟩, rfl⟩
  | url hread => exact .inr ⟨⟨_, hread⟩, rfl⟩

theorem plan_of_arguments {o : OptionError} (h : Arguments.read arguments = .error o) :
    plan arguments readText env = .error (.options o) := by
  unfold plan
  rw [h]
  rfl

/-! ### Runs of a plan -/

namespace Plan

/-- With these events a command of the plan has come to this console, and to this ending if it
has ended. -/
inductive Goes (p : Plan) (network : Http.Network) : List Event → Console → Option Ending → Prop
  | send {cluster command : String} {es : List Event} {r : Run SendStage}
      (haction : p.action = .send cluster command)
      (h : Cli.Goes (p.send cluster command).activity (p.client.server network)
        ((p.send cluster command).activity.begin (.ofPage p.page)) es r) :
      p.Goes network es r.console ((p.send cluster command).activity.ending? r.stage)
  | entitled {es : List Event} {r : Run EntitledStage} (haction : p.action = .entitled)
      (h : Cli.Goes Entitled.activity (p.client.server network)
        (Entitled.activity.begin (.ofPage p.page)) es r) :
      p.Goes network es r.console (Entitled.activity.ending? r.stage)
  | watch {enable : Bool} {shutdown : Option Shutdown} {first : Nat → Bool} {es : List Event}
      {r : Run WatchStage} (haction : p.action = .watch enable)
      (h : Cli.Goes { p.watch enable with shutdown, shutdownFirst := first }.activity
        (p.client.server network)
        ({ p.watch enable with shutdown, shutdownFirst := first }.activity.begin (.ofPage p.page))
        es r) :
      p.Goes network es r.console
        ({ p.watch enable with shutdown, shutdownFirst := first }.activity.ending? r.stage)

/-- What the program does with a command is one of its ways. -/
theorem exists_goes {σ : Type} {a : Activity σ} (p : Plan) (network : Http.Network) (limit : Nat)
    (hkeeps : a.KeepsTidy (p.client.server network))
    (hstop : ∀ c stage, (a.stop c stage).calls = c.calls) :
    ∃ es r, Cli.Goes a (p.client.server network) (a.begin (.ofPage p.page)) es r ∧
      (p.runActivity a network limit).ending = a.ending? r.stage ∧
      (p.runActivity a network limit).calls = r.console.made := by
  obtain ⟨es, hgoes⟩ := goes_steps (r := a.begin (.ofPage p.page)) hkeeps
    ((Console.ofPage p.page).after limit)
    (Activity.enough ((Console.ofPage p.page).after limit) (.ofPage p.page))
    (Console.tidy_ofPage p.page)
  refine ⟨es, _, hgoes, ?_⟩
  unfold runActivity Activity.run Activity.finish
  dsimp only
  split
  · exact ⟨rfl, rfl⟩
  · exact ⟨rfl, congrArg (List.map CallRecord.call) (hstop _ _)⟩

theorem goes_run (p : Plan) (network : Http.Network) (limit : Nat) :
    ∃ es c, p.Goes network es c (p.run network limit).ending ∧
      (p.run network limit).calls = c.made := by
  unfold run
  split
  · next cluster command haction =>
    obtain ⟨es, r, hgoes, hending, hcalls⟩ := p.exists_goes network limit
      ((p.send cluster command).keepsTidy _) fun _ _ => rfl
    rw [hending]
    exact ⟨es, r.console, .send haction hgoes, hcalls⟩
  · next haction =>
    obtain ⟨es, r, hgoes, hending, hcalls⟩ := p.exists_goes network limit
      (Entitled.keepsTidy _) fun _ _ => rfl
    rw [hending]
    exact ⟨es, r.console, .entitled haction hgoes, hcalls⟩
  · next enable haction =>
    obtain ⟨es, r, hgoes, hending, hcalls⟩ := p.exists_goes network limit
      ((p.watch enable).keepsTidy _) (Watch.calls_stop (p.watch enable))
    rw [hending]
    exact ⟨es, r.console, .watch haction hgoes, hcalls⟩

namespace Goes

variable {es : List Event} {c : Console} {e : Option Ending} {cluster command : String}
  {enable : Bool}

theorem send_course (h : p.Goes network es c e) (haction : p.action = .send cluster command) :
    ∃ stage, (p.send cluster command).Course (p.client.server network) c stage ∧
      e = (p.send cluster command).activity.ending? stage := by
  cases h with
  | send haction' hgoes =>
    cases haction.symm.trans haction'
    exact ⟨_, Send.course_goes hgoes, rfl⟩
  | entitled haction' => cases haction.symm.trans haction'
  | watch haction' => cases haction.symm.trans haction'

theorem entitled_course (h : p.Goes network es c e) (haction : p.action = .entitled) :
    ∃ stage, Entitled.Course (p.client.server network) c stage ∧
      e = Entitled.activity.ending? stage := by
  cases h with
  | send haction' => cases haction.symm.trans haction'
  | entitled haction' hgoes => exact ⟨_, Entitled.course_goes hgoes, rfl⟩
  | watch haction' => cases haction.symm.trans haction'

theorem watch_ending (h : p.Goes network es c e) (haction : p.action = .watch enable)
    {ending : Ending} (hending : e = some ending) :
    ending = .ok .done ∨ ∃ error, ending = .error error := by
  cases h with
  | send haction' => cases haction.symm.trans haction'
  | entitled haction' => cases haction.symm.trans haction'
  | @watch _ _ _ _ r haction' hgoes =>
    refine (Watch.course_goes hgoes).ending ending ?_
    cases hstage : r.stage with
    | ended ending' =>
      rw [hstage] at hending
      exact congrArg WatchStage.ended (Option.some.inj hending)
    | _ =>
      rw [hstage] at hending
      cases hending

/-- A watch calls for views only, each time for that of the page where it then is. -/
theorem watch_call (h : p.Goes network es c e) (haction : p.action = .watch enable)
    {before : List Call} {call : Call} (hcall : before ++ [call] <+: c.made) :
    ∃ pre c₁ e₁, pre <+: es ∧ p.Goes network pre c₁ e₁ ∧ c₁.made = before ∧
      call = .view c₁.page.location.text := by
  cases h with
  | send haction' => cases haction.symm.trans haction'
  | entitled haction' => cases haction.symm.trans haction'
  | watch haction' hgoes =>
    obtain ⟨pre, r₁, hpre, hgoes₁, hfound⟩ := Watch.exists_of_call hgoes hcall
    exact ⟨pre, r₁.console, _, hpre, .watch haction' hgoes₁, hfound⟩

end Goes

end Plan

end ClusterConsole.Cli
