import ClusterConsole.Proofs.Console.Harmless
import ClusterConsole.Proofs.Session.Twins

/-! A step of a session whose check fails. It returns the error, and it does to the session what it
does to wait for as long as the answer took; only the call is recorded. All later steps have the
results that they have after such a wait, and what is seen of the console differs in the call
alone. -/

namespace ClusterConsole

def SessionResult.error? : SessionResult → Option ConsoleError
  | .outcome (.error e) => some e
  | .decision (.error e) => some e
  | _ => none

/-- All that is seen but a call. -/
def Sight.without (call : Nat) (v : Sight) : Sight := { v with calls := v.calls.eraseIdx call }

namespace Console

variable {x : Footprint} {record : CallRecord} {c : Console} {s : Server} {time : Nat}

/-! ### Time -/

theorem without_agenda (hjob : x.job? = none) (c : Console) : (c.without x).agenda = c.agenda :=
  Footprint.idleAll_of_none hjob c.agenda

theorem extends_runBefore (s : Server) (time : Nat) (c : Console) :
    c.Extends (c.runBefore s time) := by
  fun_induction runBefore s time c with
  | case1 c j hj ih => exact (extends_resume c s j).trans ih
  | case2 c hn => exact .of_eq rfl rfl rfl

theorem without_runBefore (h : x.On record c) (hjob : x.job? = none) (s : Server) (time : Nat) :
    (c.runBefore s time).without x =
      (c.without x).runBefore (s.askedBefore x.call record) time := by
  fun_induction runBefore s time c with
  | case1 c j hj ih =>
    have hnext : (c.without x).agenda.next? time = some j := by rwa [without_agenda hjob]
    rw [runBefore_of_next hnext, ← without_resume h]
    exact ih (h.extends (extends_resume c s j))
  | case2 c hn =>
    have hnext : (c.without x).agenda.next? time = none := by rwa [without_agenda hjob]
    rw [runBefore_of_none hnext]

theorem extends_passTo (s : Server) (time : Nat) (c : Console) : c.Extends (c.passTo s time) :=
  (extends_runBefore s time c).trans (.of_eq rfl rfl rfl)

theorem without_passTo (h : x.On record c) (hjob : x.job? = none) (s : Server) (time : Nat) :
    (c.passTo s time).without x = (c.without x).passTo (s.askedBefore x.call record) time := by
  unfold passTo
  rw [← without_runBefore h hjob]
  rfl

theorem without_settle (h : x.On record c) (hjob : x.job? = none) (s : Server) :
    (c.settle s).without x = (c.without x).settle (s.askedBefore x.call record) :=
  without_runBefore h hjob s (c.now + 1)

theorem without_advance (h : x.On record c) (hjob : x.job? = none) (s : Server) (duration : Nat) :
    (c.advance s duration).without x =
      (c.without x).advance (s.askedBefore x.call record) duration := by
  unfold advance
  rw [without_settle (h.extends (extends_passTo s _ c)) hjob, without_passTo h hjob]
  rfl

/-- When all is done that is due, nothing is left to be done. -/
theorem settle_settle (h : c.Tidy) (s : Server) : (c.settle s).settle s = c.settle s := by
  refine runBefore_of_none (Agenda.next?_eq_none ?_)
  rw [now_settle]
  exact le_due_runBefore (c.now + 1) h

theorem isPending_without (x : Footprint) (c : Console) (job : Option Nat) :
    (c.without x).isPending job = c.isPending job := by
  cases job with
  | none => rfl
  | some id =>
    simp only [isPending, without, Footprint.idleAll, Agenda.holds, List.any_map,
      Function.comp_def, Footprint.idle_id, Option.any_some]

theorem sight_without (h : x.completion? = none) (c : Console) :
    (c.without x).sight = c.sight.without x.call := by
  simp only [sight, isArmed, hasPendingRedirect, isPending_without]
  simp only [without, Sight.without, h, Option.elim_none]

end Console

namespace Session

variable {s : Server} {x : Footprint} {record : CallRecord} {c : Console} {y : Session}

/-- The session on whose console the operation has left nothing. -/
def apart (x : Footprint) (y : Session) : Session := { y with console := y.console.without x }

/-- The step waits for an answer. -/
def asks (y : Session) : SessionStep → Bool
  | .dispatch name _ => (y.dispatcher? name).isSome
  | .check => true
  | .enforce => true
  | _ => false

/-! ### Steps -/

theorem extends_await (s : Server) (c : Console) : c.Extends (await s c).2 :=
  (Console.extends_record c .entitlement).trans (Console.extends_passTo s _ _)

theorem without_await (h : x.On record c) (hjob : x.job? = none) (s : Server) :
    (await s c).1 = (await (s.askedBefore x.call record) (c.without x)).1 ∧
      (await s c).2.without x = (await (s.askedBefore x.call record) (c.without x)).2 := by
  have htold : (s.askedBefore x.call record).entitlement (c.without x).calls =
      s.entitlement c.calls := congrArg s.entitlement (Console.insertIdx_without h)
  have hasked := h.extends (Console.extends_record c .entitlement)
  simp only [await, Console.ask, htold, true_and]
  rw [Console.without_passTo hasked hjob, Console.without_record h]
  rfl

theorem apart_dropController (x : Footprint) (y : Session) (name : String) :
    (y.dropController name).apart x = (y.apart x).dropController name := by
  have hsame : (y.apart x).controller? name = y.controller? name := rfl
  unfold dropController
  rw [hsame]
  split
  · rfl
  · next i _ =>
    exact congrArg (Session.mk · (without y.controllers name) y.dispatchers)
      (Console.without_disarm x y.console i)

theorem apart_addController (x : Footprint) (y : Session) (name : String) (interval : Nat) :
    (y.addController name interval).apart x = (y.apart x).addController name interval := by
  unfold addController
  rw [← apart_dropController]
  rfl

theorem apart_begin (h : x.On record y.console) (hjob : x.job? = none) (s : Server)
    (step : SessionStep) :
    (y.begin s step).1 = ((y.apart x).begin (s.askedBefore x.call record) step).1 ∧
      (y.begin s step).2.apart x =
        ((y.apart x).begin (s.askedBefore x.call record) step).2 := by
  have hcontroller : (y.apart x).controller? = y.controller? := rfl
  have hdispatcher : (y.apart x).dispatcher? = y.dispatcher? := rfl
  cases step with
  | act actions => exact ⟨rfl, rfl⟩
  | advance duration =>
    have hadvance := Console.without_advance h hjob s duration
    exact ⟨rfl, congrArg (Session.mk · y.controllers y.dispatchers) hadvance⟩
  | addController name interval => exact ⟨rfl, apart_addController x y name interval⟩
  | dropController name => exact ⟨rfl, apart_dropController x y name⟩
  | pageLoaded name =>
    simp only [begin, hcontroller]
    split
    · exact ⟨rfl, rfl⟩
    · next i _ =>
      have hloaded : (y.console.pageLoaded i).without x = (y.apart x).console.pageLoaded i :=
        Console.without_pageLoaded h i
      exact ⟨by rw [← hloaded]; rfl, congrArg (Session.mk · _ _) hloaded⟩
  | toggle name checked =>
    simp only [begin, hcontroller]
    split
    · exact ⟨rfl, rfl⟩
    · next i _ =>
      have htoggled : (y.console.toggle i checked).without x =
        (y.apart x).console.toggle i checked := Console.without_toggle h i checked
      exact ⟨by rw [← htoggled]; rfl, congrArg (Session.mk · _ _) htoggled⟩
  | addDispatcher name delay => exact ⟨rfl, rfl⟩
  | dropDispatcher name => exact ⟨rfl, rfl⟩
  | dispatch name request =>
    simp only [begin, hdispatcher]
    split
    · exact ⟨rfl, rfl⟩
    · next i _ =>
      obtain ⟨hresult, hawaited⟩ := without_await h hjob s
      obtain ⟨houtcome, hconcluded⟩ :=
        Console.without_conclude (h.extends (extends_await s _)) i request (await s y.console).1
      rw [hawaited] at houtcome hconcluded
      nth_rewrite 2 [hresult] at houtcome hconcluded
      exact ⟨congrArg SessionResult.outcome houtcome, congrArg (Session.mk · _ _) hconcluded⟩
  | start name request =>
    simp only [begin, hdispatcher]
    split
    · exact ⟨rfl, rfl⟩
    · next i _ =>
      have hstarted := Console.without_schedule h 0 (.dispatch i request)
      exact ⟨rfl, congrArg (Session.mk · _ _) hstarted⟩
  | check =>
    obtain ⟨hresult, hawaited⟩ := without_await h hjob s
    exact ⟨congrArg (SessionResult.decision ∘ Decision.ofAnswer) hresult,
      congrArg (Session.mk · _ _) hawaited⟩
  | enforce =>
    obtain ⟨hresult, hawaited⟩ := without_await h hjob s
    obtain ⟨hdecision, henforced⟩ :=
      Console.without_enforce x (await s y.console).2 (await s y.console).1
    rw [hawaited] at hdecision henforced
    nth_rewrite 2 [hresult] at hdecision henforced
    exact ⟨congrArg SessionResult.decision hdecision, congrArg (Session.mk · _ _) henforced⟩

theorem step_snd (s : Server) (y : Session) (step : SessionStep) : (y.step s step).2 =
    { (y.begin s step).2 with console := (y.begin s step).2.console.settle s } := rfl

theorem apart_step (h : x.On record y.console) (ht : y.console.Tidy) (hjob : x.job? = none)
    (s : Server) (step : SessionStep) :
    (y.step s step).1 = ((y.apart x).step (s.askedBefore x.call record) step).1 ∧
      (y.step s step).2.apart x =
        ((y.apart x).step (s.askedBefore x.call record) step).2 := by
  obtain ⟨hresult, hbegin⟩ := apart_begin h hjob s step
  have hbegun := h.extends (reaches_begin (s := s) step ht).extends
  refine ⟨hresult, ?_⟩
  rw [step_snd, step_snd, ← hbegin]
  exact congrArg (Session.mk · _ _) (Console.without_settle hbegun hjob s)

theorem apart_trace (h : x.On record y.console) (ht : y.console.Tidy) (hjob : x.job? = none)
    (hcompletion : x.completion? = none) (s : Server) (steps : List SessionStep) :
    (y.trace s steps).map (Prod.map id (Sight.without x.call)) =
      (y.apart x).trace (s.askedBefore x.call record) steps := by
  induction steps generalizing y with
  | nil => rfl
  | cons step steps ih =>
    obtain ⟨hresult, hstep⟩ := apart_step h ht hjob s step
    have hreaches := reaches_step (s := s) step ht
    have hsight : ((y.step s step).2.apart x).console.sight =
      (y.step s step).2.console.sight.without x.call := Console.sight_without hcompletion _
    have hlater := ih (h.extends hreaches.extends) (hreaches.tidy ht)
    simp only [trace, List.map_cons, Prod.map_apply, id_eq, hlater, ← hresult, ← hstep, hsight]

/-! ### A step that fails -/

/-- The step returns the error, and does what it does to wait. -/
structure Unharmed (s : Server) (y : Session) (step : SessionStep) (source : String) : Prop where
  error : (y.step s step).1.error? = some (.entitlementCheck source)
  recorded : (y.step s step).2.console.calls[y.console.calls.length]? =
    some ⟨y.console.now, .entitlement⟩
  same : (y.step s step).2.apart { call := y.console.calls.length } =
    (y.step (s.askedBefore y.console.calls.length ⟨y.console.now, .entitlement⟩)
      (.advance (s.entitlement y.console.calls).delay)).2
  later : ∀ steps, ((y.step s step).2.trace s steps).map
      (Prod.map id (Sight.without y.console.calls.length)) =
    (y.step (s.askedBefore y.console.calls.length ⟨y.console.now, .entitlement⟩)
      (.advance (s.entitlement y.console.calls).delay)).2.trace
        (s.askedBefore y.console.calls.length ⟨y.console.now, .entitlement⟩) steps

/-- Nothing is done with the error. -/
theorem begin_error {step : SessionStep} {source : String} (hasks : y.asks step = true)
    (hresult : (s.entitlement y.console.calls).result = .error source) :
    (y.begin s step).1.error? = some (.entitlementCheck source) ∧
      (y.begin s step).2 = { y with console := (await s y.console).2 } := by
  have hawaited : (await s y.console).1 = .error source := hresult
  cases step with
  | dispatch name request =>
    obtain ⟨i, hi⟩ := Option.isSome_iff_exists.1 hasks
    unfold begin
    simp only [hi, hawaited]
    exact ⟨rfl, rfl⟩
  | check =>
    unfold begin
    simp only [hawaited, and_true]
    rfl
  | enforce =>
    unfold begin
    simp only [hawaited]
    exact ⟨rfl, rfl⟩
  | _ => cases hasks

theorem unharmed {step : SessionStep} {source : String} (ht : y.console.Tidy)
    (hasks : y.asks step = true)
    (hresult : (s.entitlement y.console.calls).result = .error source) :
    Unharmed s y step source := by
  obtain ⟨herror, hbegin⟩ := begin_error hasks hresult
  let x : Footprint := { call := y.console.calls.length }
  let record : CallRecord := ⟨y.console.now, .entitlement⟩
  let s' := s.askedBefore y.console.calls.length record
  have hasked : x.On record (y.console.record .entitlement) :=
    ⟨List.getElem?_concat_length, nofun, nofun⟩
  have hawaited : x.On record (await s y.console).2 := hasked.extends (Console.extends_passTo s _ _)
  have hstep : (y.step s step).2 = { y with console := (await s y.console).2.settle s } := by
    rw [step_snd, hbegin]
  have hon : x.On record (y.step s step).2.console := by
    rw [hstep]
    exact hawaited.extends (Console.extends_runBefore s _ _)
  have hsame : (y.step s step).2.apart x =
      (y.step s' (.advance (s.entitlement y.console.calls).delay)).2 := by
    have hpass : (await s y.console).2.without x =
        y.console.passTo s' (y.console.after (s.entitlement y.console.calls).delay) := by
      have hwithout := Console.without_passTo hasked rfl s
        (y.console.after (s.entitlement y.console.calls).delay)
      rwa [Console.without_own_record] at hwithout
    have hsettle : ((await s y.console).2.settle s).without x =
        (y.console.advance s' (s.entitlement y.console.calls).delay).settle s' := by
      rw [Console.without_settle hawaited rfl, hpass]
      exact (Console.settle_settle (ht.passTo s' _) s').symm
    rw [hstep]
    exact congrArg (Session.mk · _ _) hsettle
  refine ⟨herror, hon.call, hsame, fun steps => ?_⟩
  have htidy := (reaches_step (s := s) step ht).tidy ht
  rw [← hsame]
  exact apart_trace hon htidy rfl rfl s steps

end Session

/-! ### Harmless failures -/

/-- A check, an enforcement or a dispatch that fails harms nothing that others do on a page. -/
structure Harmless (s : Server) (page : Page) : Prop where
  /-- In whatever way the activities are interleaved, the same run in which nobody asked is lawful
  too, and leads to the same world up to the call. -/
  asked : ∀ {w : World} {purpose : Purpose} {source : String} {ms : List Move},
    World.Reaches s (.ofPage page) w → (s.entitlement w.console.calls).result = .error source →
    World.Lawful s w (.ask purpose :: ms) → World.AskHarmless s w purpose source ms
  /-- If nobody waits for the dispatch, then its own end is kept, and that is all. -/
  dispatched : ∀ {w : World} {id due i : Nat} {request : CommandRequest} {source : String}
      {ms : List Move},
    World.Reaches s (.ofPage page) w → (s.entitlement w.console.calls).result = .error source →
    World.Lawful s w (.resume ⟨id, due, .dispatch i request⟩ :: ms) →
    World.DispatchHarmless s w id due i request source ms
  /-- After any steps, and whatever the steps are that follow. -/
  sessions : ∀ {before : List SessionStep} {step : SessionStep} {source : String},
    ((Session.ofPage page).run s before).asks step = true →
    (s.entitlement ((Session.ofPage page).run s before).console.calls).result = .error source →
    Session.Unharmed s ((Session.ofPage page).run s before) step source

theorem harmless_of_failure (s : Server) (page : Page) : Harmless s page where
  asked := World.ask_harmless
  dispatched := World.dispatch_harmless
  sessions {before _ _} hasks hresult := by
    have htidy := Console.tidy_ofPage page
    have hreaches : World.Reaches s (.ofPage page)
        ⟨((Session.ofPage page).run s before).console, []⟩ :=
      Session.reaches_run (x := .ofPage page) before htidy
    exact Session.unharmed (hreaches.tidy htidy) hasks hresult

end ClusterConsole
