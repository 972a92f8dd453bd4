import ClusterConsole.Proofs.Cli.Chronicle
import ClusterConsole.Proofs.Http.Viewing

/-! Which views a command that watches shows. It asks for the view of the place where the page is,
by the printed URL, and at a web address the request goes to that very place; a view that it shows
is what came back from there. -/

namespace ClusterConsole.Cli.Watch

variable {p : Watch} {s : Server} {c c₀ : Console} {stage : WatchStage} {t : Turn WatchStage}
  {r r' : Run WatchStage} {es : List Event} {e : Event} {u : Url} {view : View}
  {result : Except String View}

/-! ### One turn -/

/-- At the stage the view of a place is awaited, and this is what comes. -/
def Awaits (stage : WatchStage) (u : Url) (result : Except String View) : Prop :=
  ∃ due enable position signal, stage = .loading due result u enable position signal

/-- A turn after which a view is awaited asks for that of the place where the page is. -/
theorem awaits_of_turn (h : p.turn? s c stage = some t) (hawaits : Awaits t.stage u result) :
    u = c.page.location ∧ t.console.calls = c.calls ++ [⟨c.now, .view u.text⟩] ∧
      result = (s.view c.calls u.text).result := by
  obtain ⟨due, enable, position, signal, hstage⟩ := hawaits
  obtain ⟨ds, hdoes, hrun⟩ := performs_of_turn h
  have hcalls : t.console.calls = (World.run s ⟨c, []⟩ (moves ds)).console.calls := by rw [hrun]
  rw [hstage] at hdoes
  generalize hnext : WatchStage.loading due result u enable position signal = next at hdoes
  cases hdoes with
  | start =>
    cases hnext
    exact ⟨rfl, hcalls, rfl⟩
  | @reloaded i =>
    have hpage : (c.dropController i).page = c.page := Console.disarm_page c i
    have hbefore : (c.dropController i).calls = c.calls := Console.disarm_calls c i
    have hnow : (c.dropController i).now = c.now := Console.disarm_now c i
    cases hnext
    rw [hpage, hbefore]
    refine ⟨rfl, hcalls.trans ?_, rfl⟩
    rw [← hbefore, ← hnow]
    rfl
  | _ => cases hnext

theorem viewed_loaded {location : Url} {enable : Bool} {position : Nat} {signal : Option Nat}
    (h : Line.viewed u view ∈ (p.loaded c result location enable position signal).lines) :
    location = u ∧ result = .ok view := by
  have hshown : Line.viewed u view ∈ (result.toOption.map (Line.viewed location ·)).toList := by
    unfold loaded at h
    simp only at h
    split at h
    · simpa using h
    · simpa using h
  cases result with
  | error message => cases hshown
  | ok v =>
    cases List.mem_singleton.1 hshown
    exact ⟨rfl, rfl⟩

theorem not_viewed_look {i position : Nat} {signal : Option Nat}
    (h : look? s c i position signal = some t) : Line.viewed u view ∉ t.lines := by
  unfold look? at h
  simp only at h
  split at h
  · cases h
  all_goals
    cases h
    simp [load]

theorem not_viewed_stop {i : Nat} {signal : Option Nat} (h : p.stop? c i signal = some t) :
    Line.viewed u view ∉ t.lines := by
  unfold stop? at h
  split at h
  · split at h
    · cases h
      unfold stopped
      split
      · exact List.not_mem_nil
      · simp
    · cases h
  · cases h

/-- A turn that shows a view had awaited it. -/
theorem awaits_of_viewed (h : p.turn? s c stage = some t) (hline : Line.viewed u view ∈ t.lines) :
    Awaits stage u (.ok view) := by
  cases stage with
  | start =>
    cases h
    cases hline
  | loading due result location enable position signal =>
    replace h : (if due ≤ c.now then some (p.loaded c result location enable position signal)
      else none) = some t := h
    split at h
    · cases h
      obtain ⟨rfl, rfl⟩ := viewed_loaded hline
      exact ⟨due, enable, position, signal, rfl⟩
    · cases h
  | waiting i position signal =>
    have hfound : look? s c i position signal = some t ∨ p.stop? c i signal = some t := by
      unfold turn? at h
      simp only at h
      split at h
      · exact ((Option.orElse_eq_some _ _ _).1 h).elim .inr fun hlook => .inl hlook.2
      · exact ((Option.orElse_eq_some _ _ _).1 h).elim .inl fun hstop => .inr hstop.2
    rcases hfound with hlook | hstop
    · exact absurd hline (not_viewed_look hlook)
    · exact absurd hline (not_viewed_stop hstop)
  | ended ending => cases h

/-! ### A run -/

/-- In the run the command asked for the view of a place when the page was there, and this is what
came. -/
def Fetched (p : Watch) (s : Server) (c₀ : Console) (es : List Event) (u : Url) (view : View) :
    Prop :=
  ∃ pre post r₁ r₂, es = pre ++ .turn :: post ∧ Goes p.activity s (p.activity.begin c₀) pre r₁ ∧
    Happens p.activity s r₁ .turn r₂ ∧ r₁.console.page.location = u ∧
      r₂.console.calls = r₁.console.calls ++ [⟨r₁.console.now, .view u.text⟩] ∧
        (s.view r₁.console.calls u.text).result = .ok view

theorem Fetched.snoc (h : Fetched p s c₀ es u view) (e : Event) :
    Fetched p s c₀ (es ++ [e]) u view := by
  obtain ⟨pre, post, r₁, r₂, rfl, hfetched⟩ := h
  exact ⟨pre, post ++ [e], r₁, r₂, by simp, hfetched⟩

/-- All views that are shown or awaited have been fetched. -/
structure Traced (p : Watch) (s : Server) (c₀ : Console) (es : List Event) (r : Run WatchStage) :
    Prop where
  shown : ∀ u view, Line.viewed u view ∈ r.lines → Fetched p s c₀ es u view
  awaited : ∀ u view, Awaits r.stage u (.ok view) → Fetched p s c₀ es u view

theorem Traced.step (h : Traced p s c₀ es r) (hgoes : Goes p.activity s (p.activity.begin c₀) es r)
    (he : Happens p.activity s r e r') : Traced p s c₀ (es ++ [e]) r' := by
  cases he with
  | turn hturn =>
    obtain ⟨t, ht, rfl⟩ := Option.map_eq_some_iff.1 hturn
    refine ⟨fun u view hline => ?_, fun u view hawaits => ?_⟩
    · rcases List.mem_append.1 hline with hold | hnew
      · exact (h.shown u view hold).snoc .turn
      · exact (h.awaited u view (awaits_of_viewed ht hnew)).snoc .turn
    · obtain ⟨hplace, hcalls, hresult⟩ := awaits_of_turn ht hawaits
      exact ⟨es, [], r, _, rfl, hgoes, .turn hturn, hplace.symm, hcalls, hresult.symm⟩
  | other => exact ⟨fun u view hline => (h.shown u view hline).snoc _,
      fun u view hawaits => (h.awaited u view hawaits).snoc _⟩

theorem traced_goes (h : Goes p.activity s (p.activity.begin c₀) es r) : Traced p s c₀ es r := by
  induction h with
  | nil => exact ⟨nofun, nofun⟩
  | snoc hgoes he ih => exact ih.step hgoes he

theorem reached_goes (h : Goes p.activity s (p.activity.begin c₀) es r)
    (hreached : c₀.page.Reached) : r.console.page.Reached := by
  obtain ⟨ds, hchronicle⟩ := exists_chronicle h
  obtain ⟨-, hled⟩ := hchronicle.led
  have hpage := World.reached_run (s := s) (w := ⟨c₀, []⟩) hreached (moves ds)
  rwa [show World.run s ⟨c₀, []⟩ (moves ds) = ⟨r.console, []⟩ from hled] at hpage

/-! ### The law -/

/-- What a command that watches shows of the server behind a client. -/
structure Depicts (p : Watch) (client : Http.Client) (network : Http.Network) (c₀ : Console) :
    Prop where
  /-- At every web address where the page comes, what is printed leads to that very place. -/
  places : ∀ es r, Goes p.activity (client.server network) (p.activity.begin c₀) es r →
    r.console.page.location.IsWeb →
      client.Views r.console.page.location.text r.console.page.location
  /-- The command asks for a view first, -/
  begins : ∃ r result, Happens p.activity (client.server network) (p.activity.begin c₀) .turn r ∧
    Awaits r.stage c₀.page.location result
  /-- and whenever it does, it is that of the place where the page is, by one call. -/
  asks : ∀ es r r' u result,
    Goes p.activity (client.server network) (p.activity.begin c₀) es r →
    Happens p.activity (client.server network) r .turn r' → Awaits r'.stage u result →
      u = r.console.page.location ∧
        r'.console.calls = r.console.calls ++ [⟨r.console.now, .view u.text⟩] ∧
        result = ((client.server network).view r.console.calls u.text).result
  /-- A view that is shown of a web address is the reply to the request for it, which was made
  when the page was there. -/
  shows : ∀ es r u view, Goes p.activity (client.server network) (p.activity.begin c₀) es r →
    Line.viewed u view ∈ r.lines → u.IsWeb → ∃ pre post r₁, es = pre ++ .turn :: post ∧
      Goes p.activity (client.server network) (p.activity.begin c₀) pre r₁ ∧
        r₁.console.page.location = u ∧ client.Shows network
          (client.received network (r₁.console.calls.map CallRecord.call)) u.text u view
  /-- The order of the program is one of those in which things may happen. -/
  own : c₀.Tidy → ∀ limit n, ∃ es,
    Goes p.activity (client.server network) (p.activity.begin c₀) es
      (p.activity.steps (client.server network) limit n (p.activity.begin c₀))

/-- Wherever a page was opened and came, a command that watches it shows the view of the place
where the page is, and of no other. -/
theorem depicts_of_reached (hreached : c₀.page.Reached) (p : Watch) (client : Http.Client)
    (network : Http.Network) : Depicts p client network c₀ := by
  have hviews {es : List Event} {r : Run WatchStage}
      (hgoes : Goes p.activity (client.server network) (p.activity.begin c₀) es r)
      (hweb : r.console.page.location.IsWeb) :
      client.Views r.console.page.location.text r.console.page.location :=
    Http.Client.views_of_join (((reached_goes hgoes hreached).plain hweb).join client.base)
  constructor
  case places => exact fun es r => hviews
  case begins => exact ⟨_, _, .turn rfl, _, _, _, _, rfl⟩
  case asks =>
    intro es r r' u result hgoes hturn hawaits
    obtain ⟨hturn⟩ := hturn
    obtain ⟨t, ht, rfl⟩ := Option.map_eq_some_iff.1 hturn
    exact awaits_of_turn ht hawaits
  case shows =>
    intro es r u view hgoes hline hweb
    obtain ⟨pre, post, r₁, r₂, rfl, hbefore, -, rfl, -, hresult⟩ :=
      (traced_goes hgoes).shown u view hline
    exact ⟨pre, post, r₁, rfl, hbefore, rfl, ((hviews hbefore hweb).shown network _ view).1 hresult⟩
  case own => exact fun ht limit n => goes_steps (keepsTidy p _) limit n ht

/-- A page that was opened by another text than is printed, on another host than the server is. -/
def distantPage : Page :=
  .at {
    scheme := "https".toList
    authority := some {
      username := "u".toList, password := "p%3A".toList, host := .ipv6 [0, 0, 1, 0, 0, 0, 0, 2]
      port := some 8080 }
    path := .rooted ["a".toList, "c%20d".toList]
    query := some "q=%27x%27".toList
    fragment := some "y".toList }

theorem depicts_of_reached_distant :
    let p : Watch := { interval := 1000 }
    let network := Http.Client.replying 200 "view".toList
    let c := Console.ofPage distantPage
    let r := p.activity.run (Http.Client.fullBase.server network) 5000 c
    Page.open "HTTPS://u:p:@[0:0:1::2]:08080/a/./b/../c d?q='x'#y" = .ok distantPage ∧
      r.lines.map (Line.text "12:00:00" "") =
        ["[12:00:00] https://u:p%3A@[0:0:1::2]:8080/a/c%20d?q=%27x%27#y -> 200 (4 bytes)",
          "auto-reload is off"] ∧
      (Http.Client.fullBase.received network (r.console.calls.map CallRecord.call)).map
          (fun r => r.url.text) = ["https://[0:0:1::2]:8080/a/c%20d?q=%27x%27"] ∧
      Depicts p Http.Client.fullBase network c := by
  intro p network c r
  have hopen : Page.open "HTTPS://u:p:@[0:0:1::2]:08080/a/./b/../c d?q='x'#y" = .ok distantPage :=
    Page.open_of_parse (by decide +kernel)
  exact ⟨hopen, by decide +kernel, by decide +kernel,
    depicts_of_reached (Page.reached_open hopen) p Http.Client.fullBase network⟩

end ClusterConsole.Cli.Watch
