import ClusterConsole.Proofs.Cli.Views

/-! Where a command that watches the page leaves it. What others do to the page it leaves as it
is, but for two things that it does without looking at the page's feed first: it switches
auto-reload on when the first view is there, and it switches it off when the signal comes. If the
page has been left meanwhile, it does so to the page that somebody else has gone to. -/

namespace ClusterConsole.Cli.Watch

variable {p : Watch} {s : Server} {c c₀ : Console} {stage : WatchStage} {t : Turn WatchStage}
  {r r' start : Run WatchStage} {es : List Event} {ds : List Deed} {u : Url}

/-! ### What a turn does to the page -/

theorem openController_page (p : Watch) (c : Console) (enable : Bool) :
    (p.openController c enable).page =
      if c.page.location.isOn then c.page.setChecked true
      else if enable then c.page.replace (switchTarget true) else c.page := by
  have hstate := reloadState_opened c p.interval
  have hpage : ((c.addController p.interval).pageLoaded c.controllers.length).page =
      if c.page.location.isOn then c.page.setChecked true else c.page := by
    have hon : c.page.fragment = some autoReloadFragment ↔ c.page.location.isOn = true :=
      decide_eq_true_iff.symm
    rw [Console.pageLoaded_page]
    exact if_congr hon rfl rfl
  unfold openController
  simp only
  rw [hstate]
  cases hon : c.page.location.isOn with
  | true =>
    rw [hon] at hpage
    simpa using hpage
  | false =>
    rw [hon] at hpage
    cases enable with
    | false => simpa using hpage
    | true =>
      simp only [Bool.false_eq_true, if_false, and_self, if_true] at hpage ⊢
      rw [Console.toggle_page, hpage]
      rfl

/-- What a turn may make of the page. -/
inductive Alters (p : Watch) (c : Console) : WatchStage → Page → Prop
  | nothing {stage : WatchStage} : Alters p c stage c.page
  /-- A view is there, on a page with the fragment. -/
  | checks {due : Nat} {result : Except String View} {location : Url} {enable : Bool}
      {position : Nat} {signal : Option Nat} (hon : c.page.location.isOn = true) :
      Alters p c (.loading due result location enable position signal) (c.page.setChecked true)
  /-- The first view is there, and auto-reload is asked for. -/
  | switchesOn {due : Nat} {result : Except String View} {location : Url} {position : Nat}
      {signal : Option Nat} (hoff : c.page.location.isOn = false) :
      Alters p c (.loading due result location true position signal)
        (c.page.replace (switchTarget true))
  /-- The signal is there, and it goes first or the feed says nothing. -/
  | switchesOff {i position time : Nat} (htime : time ≤ c.now)
      (hfirst : p.shutdownFirst c.calls.length = true ∨ ¬ c.page.feed.Leaves position) :
      Alters p c (.waiting i position (some time)) (c.page.replace (switchTarget false))

theorem alters_loaded (due : Nat) (result : Except String View) (location : Url) (enable : Bool)
    (position : Nat) (signal : Option Nat) :
    Alters p c (.loading due result location enable position signal)
      (p.loaded c result location enable position signal).console.page := by
  have hpage : (p.loaded c result location enable position signal).console.page =
      (p.openController c enable).page := by
    unfold loaded
    simp only
    split
    · exact Console.disarm_page _ _
    · rfl
  rw [hpage, openController_page]
  cases hon : c.page.location.isOn with
  | true => exact .checks hon
  | false =>
    cases enable with
    | false => exact .nothing
    | true => exact .switchesOn hon

theorem look_page {i position : Nat} {signal : Option Nat}
    (h : look? s c i position signal = some t) : t.console.page = c.page := by
  have hpage : (c.dropController i).page = c.page := Console.disarm_page c i
  unfold look? at h
  simp only at h
  split at h
  · cases h
  · cases h
    exact hpage
  · cases h
    exact hpage
  · cases h
    exact hpage

theorem not_leaves_of_look {i position : Nat} {signal : Option Nat}
    (h : look? s c i position signal = none) : ¬ c.page.feed.Leaves position := by
  unfold look? at h
  simp only at h
  split at h
  · next hwaiting =>
    rcases c.page.feed.nextLoad_cases position with ⟨hload, -⟩ | ⟨hload, -⟩ | ⟨-, hno⟩
    · rw [hwaiting] at hload
      cases hload
    · rw [hwaiting] at hload
      cases hload
    · exact hno
  · cases h
  · cases h
  · cases h

theorem alters_stop {i position : Nat} {signal : Option Nat} (h : p.stop? c i signal = some t)
    (hfirst : p.shutdownFirst c.calls.length = true ∨ ¬ c.page.feed.Leaves position) :
    Alters p c (.waiting i position signal) t.console.page := by
  unfold stop? at h
  split at h
  · next time shutdown =>
    split at h
    · next htime =>
      cases h
      unfold stopped
      split
      · have hpage : (c.dropController i).page = c.page := Console.disarm_page c i
        simp only [hpage]
        exact .nothing
      · have hpage : ((c.toggle i false).dropController i).page =
            c.page.replace (switchTarget false) :=
          (Console.disarm_page _ i).trans (Console.toggle_page c i false)
        simp only [hpage]
        exact .switchesOff htime hfirst
    · cases h
  · cases h

theorem alters_of_turn (h : p.turn? s c stage = some t) : Alters p c stage t.console.page := by
  cases stage with
  | start =>
    cases h
    exact .nothing
  | loading due result location enable position signal =>
    replace h : (if due ≤ c.now then some (p.loaded c result location enable position signal)
      else none) = some t := h
    split at h
    · cases h
      exact alters_loaded due result location enable position signal
    · cases h
  | waiting i position signal =>
    have hlook : ∀ {t}, look? s c i position signal = some t →
        Alters p c (.waiting i position signal) t.console.page := by
      intro t ht
      rw [look_page ht]
      exact .nothing
    unfold turn? at h
    simp only at h
    split at h
    · next hfirst =>
      rcases (Option.orElse_eq_some _ _ _).1 h with hstop | ⟨-, ht⟩
      · exact alters_stop hstop (.inl hfirst)
      · exact hlook ht
    · rcases (Option.orElse_eq_some _ _ _).1 h with ht | ⟨hnone, hstop⟩
      · exact hlook ht
      · exact alters_stop hstop (.inr (not_leaves_of_look hnone))
  | ended ending => cases h

theorem lines_loaded (result : Except String View) (location : Url) (enable : Bool)
    (position : Nat) (signal : Option Nat) :
    (p.loaded c result location enable position signal).lines ≠ [.left u] := by
  intro hlines
  unfold loaded at hlines
  simp only at hlines
  split at hlines
  · simp [List.append_eq_singleton_iff] at hlines
  · simp [List.append_eq_singleton_iff] at hlines

theorem lines_stop {i : Nat} {signal : Option Nat} (h : p.stop? c i signal = some t) :
    t.lines ≠ [.left u] := by
  unfold stop? at h
  split at h
  · split at h
    · cases h
      unfold stopped
      split <;> nofun
    · cases h
  · cases h

/-- A look at the page that finds it left. -/
theorem look_of_left {i position : Nat} {signal : Option Nat}
    (h : look? s c i position signal = some t) (hlines : t.lines = [.left u]) :
    u = c.page.location ∧ t.console.page = c.page ∧ t.stage = .ended (.ok .done) ∧
      (c.page.feed.nextLoad position).1 = .navigated := by
  have hpage := look_page h
  unfold look? at h
  simp only at h
  split at h
  · cases h
  · cases h
    cases hlines
  · next hload =>
    cases h
    cases hlines
    exact ⟨rfl, hpage, rfl, congrArg Prod.fst hload⟩
  · cases h
    cases hlines

/-- A turn that says that the page was left is the last, and leaves the page as it is. -/
theorem turn_of_left (h : p.turn? s c stage = some t) (hlines : t.lines = [.left u]) :
    u = c.page.location ∧ t.console.page = c.page ∧ t.stage = .ended (.ok .done) ∧
      ∃ i position signal, stage = .waiting i position signal ∧
        (c.page.feed.nextLoad position).1 = .navigated := by
  cases stage with
  | start =>
    cases h
    cases hlines
  | loading due result location enable position signal =>
    replace h : (if due ≤ c.now then some (p.loaded c result location enable position signal)
      else none) = some t := h
    split at h
    · cases h
      exact absurd hlines (lines_loaded result location enable position signal)
    · cases h
  | waiting i position signal =>
    have hfound : look? s c i position signal = some t := by
      unfold turn? at h
      simp only at h
      split at h
      · rcases (Option.orElse_eq_some _ _ _).1 h with hstop | ⟨-, ht⟩
        · exact absurd hlines (lines_stop hstop)
        · exact ht
      · rcases (Option.orElse_eq_some _ _ _).1 h with ht | ⟨-, hstop⟩
        · exact ht
        · exact absurd hlines (lines_stop hstop)
    obtain ⟨hu, hpage, hended, hload⟩ := look_of_left hfound hlines
    exact ⟨hu, hpage, hended, i, position, signal, rfl, hload⟩
  | ended ending => cases h

/-! ### Where the page is left -/

/-- At a stage auto-reload is still to be switched on, when the first view is there. -/
def enabling (p : Watch) : WatchStage → Bool
  | .start => p.enable
  | .loading _ _ _ enable _ _ => enable
  | _ => false

/-- Where a page that is left at `u` is in the end if nobody else acts on it. -/
def landing (p : Watch) (u : Url) (stage : WatchStage) : Url :=
  if p.enabling stage && !u.isOn then u.switched true else u

theorem landing_eq_iff (stage : WatchStage) :
    p.landing u stage = u ↔ u.isOn = true ∨ p.enabling stage = false := by
  unfold landing
  cases hon : u.isOn with
  | true => simp
  | false =>
    cases p.enabling stage with
    | false => simp
    | true =>
      have hne : u.switched true ≠ u := by
        intro heq
        rw [← heq, Url.isOn_switched_true] at hon
        cases hon
      simpa using hne

theorem location_opened (p : Watch) (c : Console) (enable : Bool) :
    (p.openController c enable).page.location =
      if enable && !c.page.location.isOn then c.page.location.switched true
      else c.page.location := by
  rw [openController_page]
  cases hon : c.page.location.isOn with
  | true => cases enable <;> rfl
  | false =>
    cases enable with
    | false => rfl
    | true => exact Page.replace_location c.page true

theorem ending?_of_turn (h : p.turn? s c stage = some t) : p.activity.ending? stage = none := by
  cases stage with
  | ended ending => cases h
  | _ => rfl

/-- A turn after which the command goes on does not change where the page is left. -/
theorem landing_turn (h : p.turn? s c stage = some t) (hgoes : p.activity.ending? t.stage = none) :
    p.landing t.console.page.location t.stage = p.landing c.page.location stage := by
  obtain ⟨ds, hdoes, hrun⟩ := performs_of_turn h
  have hconsole : (World.run s ⟨c, []⟩ (moves ds)).console = t.console :=
    congrArg World.console hrun
  rw [← hconsole]
  generalize t.stage = stage' at hdoes hgoes
  cases hdoes with
  | start => rfl
  | on hdue hon =>
    rw [moves_does, run_opening]
    exact location_opened p c _
  | @reloaded i position j signal u hfinds hevent =>
    exact congrArg Page.location (Console.disarm_page c i)
  | _ => cases hgoes

/-- From a run on, others leave the page where it is. -/
inductive Stays (p : Watch) (s : Server) (start : Run WatchStage) : Run WatchStage → Prop
  | refl : Stays p s start start
  | turn {r r' : Run WatchStage} (h : Stays p s start r) (he : Happens p.activity s r .turn r') :
      Stays p s start r'
  | other {m : Move} {r r' : Run WatchStage} (h : Stays p s start r)
      (he : Happens p.activity s r (.other m) r')
      (hstays : r'.console.page.location = r.console.page.location) : Stays p s start r'

theorem Stays.landing (h : Stays p s start r) : (p.activity.ending? r.stage).isSome = true ∨
    p.landing r.console.page.location r.stage =
      p.landing start.console.page.location start.stage := by
  induction h with
  | refl => exact .inr rfl
  | @turn r r' hbefore he ih =>
    obtain ⟨hturn⟩ := he
    obtain ⟨t, ht, rfl⟩ := Option.map_eq_some_iff.1 hturn
    cases hending : p.activity.ending? t.stage with
    | some ending => exact .inl rfl
    | none =>
      rcases ih with hended | hlanding
      · rw [ending?_of_turn ht] at hended
        cases hended
      · exact .inr ((landing_turn ht hending).trans hlanding)
  | other hbefore he hstays ih =>
    cases he
    rcases ih with hended | hlanding
    · exact .inl hended
    · exact .inr (by rw [← hlanding, ← hstays])

/-! ### The law -/

theorem Chronicle.enabling (h : Chronicle p s (p.activity.begin c₀) es ds r) (ht : c₀.Tidy)
    (henabling : p.enabling r.stage = true) :
    p.enable = true ∧ r.console.views ≤ c₀.views + 1 := by
  have hviews := (h.orderly ht).called
  have hcounted := h.counted
  cases hstage : r.stage with
  | start =>
    rw [hstage] at henabling hcounted
    exact ⟨henabling, by rw [hviews, hcounted.1]; exact Nat.le_succ _⟩
  | loading due result location enable position signal =>
    rw [hstage] at henabling hcounted
    obtain ⟨henable, hone, -⟩ := hcounted.2.2 henabling
    exact ⟨henable, by rw [hviews, hone]⟩
  | _ =>
    rw [hstage] at henabling
    cases henabling

/-- A page that had been left is changed at the signal only if that goes first, or if the event
that says so was lost. -/
theorem HasRead.overtaken {i position : Nat} {signal : Option Nat} {page : Page}
    (h : HasRead c₀ c position) (halters : Alters p c (.waiting i position signal) page)
    (hne : page ≠ c.page)
    (hleft : c.page.feed.LeftWithin c₀.page.feed.subscribe c.page.feed.sent.length) :
    p.shutdownFirst c.calls.length = true ∨
      c.page.feed.LeftWithin c₀.page.feed.subscribe c.page.feed.oldest := by
  cases halters with
  | nothing => exact absurd rfl hne
  | switchesOff htime hfirst =>
    refine hfirst.imp_right fun hno => ?_
    obtain ⟨k, v, hk, -, hv⟩ := hleft
    refine ⟨k, v, hk, ?_, hv⟩
    by_cases hread : k < position
    · exact h.lost k v hk hread hv
    · by_contra hkept
      exact hno ⟨k, v, by omega, by omega, hv⟩

/-- The law of where a command that watches leaves the page. -/
structure Departs (p : Watch) (s : Server) (c₀ : Console) : Prop where
  /-- If the command returns since the page was left, and others have left the page where it is
  from some moment on, then the page is where it was at that moment exactly if it asks for
  auto-reload there, or the command is not to switch it on any more. Otherwise it gets the
  fragment. -/
  lands : ∀ es start r r' u, Goes p.activity s (p.activity.begin c₀) es start →
    Stays p s start r → Happens p.activity s r .turn r' → r'.lines = r.lines ++ [.left u] →
      r'.stage = .ended (.ok .done) ∧ r'.console.page.location = u ∧
        u = p.landing start.console.page.location start.stage ∧
          (u = start.console.page.location ↔
            start.console.page.location.isOn = true ∨ p.enabling start.stage = false)
  /-- It is to switch it on up to the first view only, if that is asked for. -/
  first : ∀ es r, Goes p.activity s (p.activity.begin c₀) es r → p.enabling r.stage = true →
    p.enable = true ∧ r.console.views ≤ c₀.views + 1
  /-- No turn makes anything else of the page. -/
  alters : ∀ es r r', Goes p.activity s (p.activity.begin c₀) es r →
    Happens p.activity s r .turn r' → Alters p r.console r.stage r'.console.page
  /-- At the signal the page had been left only if the signal goes first where both are there, or
  the event that says so was lost. -/
  overtakes : ∀ es r r' i position signal, Goes p.activity s (p.activity.begin c₀) es r →
    Happens p.activity s r .turn r' → r.stage = .waiting i position signal →
      r'.console.page ≠ r.console.page →
      r.console.page.feed.LeftWithin c₀.page.feed.subscribe r.console.page.feed.sent.length →
        p.shutdownFirst r.console.calls.length = true ∨
          r.console.page.feed.LeftWithin c₀.page.feed.subscribe r.console.page.feed.oldest
  /-- The order of the program is one of those in which things may happen. -/
  own : ∀ limit n, ∃ es, Goes p.activity s (p.activity.begin c₀) es
    (p.activity.steps s limit n (p.activity.begin c₀))

/-- Whatever happens on a tidy console beside it, a command that watches departs by the law. -/
theorem departs_of_tidy (ht : c₀.Tidy) (p : Watch) (s : Server) : Departs p s c₀ := by
  constructor
  case lands =>
    intro es start r r' u hgoes hstays hturn hlines
    obtain ⟨hturn⟩ := hturn
    obtain ⟨t, ht, rfl⟩ := Option.map_eq_some_iff.1 hturn
    obtain ⟨hu, hpage, hended, i, position, signal, hstage, -⟩ :=
      turn_of_left ht (List.append_cancel_left hlines)
    have hlanding : u = p.landing start.console.page.location start.stage := by
      rcases hstays.landing with hending | hlanding
      · rw [hstage] at hending
        cases hending
      · rw [hstage] at hlanding
        exact hu.trans hlanding
    refine ⟨hended, by rw [hu, hpage], hlanding, ?_⟩
    rw [hlanding]
    exact landing_eq_iff start.stage
  case first =>
    intro es r hgoes henabling
    obtain ⟨ds, hchronicle⟩ := exists_chronicle hgoes
    exact hchronicle.enabling ht henabling
  case alters =>
    intro es r r' hgoes hturn
    obtain ⟨hturn⟩ := hturn
    obtain ⟨t, ht, rfl⟩ := Option.map_eq_some_iff.1 hturn
    exact alters_of_turn ht
  case overtakes =>
    intro es r r' i position signal hgoes hturn hstage hne hleft
    obtain ⟨ds, hchronicle⟩ := exists_chronicle hgoes
    obtain ⟨hturn⟩ := hturn
    obtain ⟨t, ht, rfl⟩ := Option.map_eq_some_iff.1 hturn
    have hread := hchronicle.known.read position (by rw [hstage]; rfl)
    have halters := alters_of_turn ht
    rw [hstage] at halters
    exact hread.overtaken halters hne hleft
  case own => exact fun limit n => goes_steps (keepsTidy p s) limit n ht

/-- A server that takes its time for a view. -/
def dawdling : Server :=
  { World.entitling with view := fun _ _ => { delay := 1000, result := .error "" } }

/-- A console whose page somebody leaves while the first view is loaded. -/
def hasty : Console :=
  (Console.ofPage World.consolePage).schedule 500 (.act [.navigate "/away"])

theorem departs_of_tidy_hasty :
    let p : Watch := { interval := 30000, enable := true }
    let r := p.activity.run dawdling 5000 hasty
    p.activity.ending? r.stage = some (.ok .done) ∧ r.console.page.past.length = 1 ∧
      r.console.page.location.isOn = true ∧ Departs p dawdling hasty := by
  intro p r
  have ht : hasty.Tidy := (Console.tidy_ofPage World.consolePage).schedule 500 nofun nofun
  exact ⟨by decide +kernel, by decide +kernel, by decide +kernel, departs_of_tidy ht p dawdling⟩

end ClusterConsole.Cli.Watch
