import ClusterConsole.Proofs.Cli.Watching
import ClusterConsole.Proofs.Page.Growth

/-! How many views a command that watches the page asks for. It asks for one, and for another one
after each reload until the page is left. It learns from the page's feed that the page was left,
and the feed keeps its last events only: if reloads follow until that event is lost, the command
goes on with the page that it should have left alone. -/

namespace ClusterConsole

namespace World

variable {s : Server} {w : World} {m : Move} {ms : List Move}

theorem grows_move (s : Server) (w : World) (m : Move) :
    w.console.page.feed.Grows (w.move s m).console.page.feed := by
  obtain ⟨actions, hpage⟩ := move_acts s w m
  rw [hpage]
  exact Page.grows_acts _ actions

theorem grows_run (s : Server) (w : World) (ms : List Move) :
    w.console.page.feed.Grows (w.run s ms).console.page.feed := by
  induction ms generalizing w with
  | nil => exact .refl _
  | cons m ms ih => exact (grows_move s w m).trans (ih _)

theorem closed_move (s : Server) (w : World) (m : Move) :
    (w.move s m).console.page.feed.closed = w.console.page.feed.closed := by
  obtain ⟨actions, hpage⟩ := move_acts s w m
  rw [hpage]
  exact Page.closed_acts _ actions

theorem closed_run (s : Server) (w : World) (ms : List Move) :
    (w.run s ms).console.page.feed.closed = w.console.page.feed.closed := by
  induction ms generalizing w with
  | nil => rfl
  | cons m ms ih => exact (ih (w.move s m)).trans (closed_move s w m)

end World

namespace Cli

/-- Where a stage reads the feed on. -/
def WatchStage.position? : WatchStage → Option Nat
  | loading _ _ _ _ position _ => some position
  | waiting _ position _ => some position
  | _ => none

/-- Where the feed is read on after a view that is being loaded. -/
def WatchStage.loads? : WatchStage → Option Nat
  | loading _ _ _ _ position _ => some position
  | _ => none

theorem WatchStage.position?_of_loads? {stage : WatchStage} {position : Nat}
    (h : stage.loads? = some position) : stage.position? = some position := by
  cases stage with
  | loading => exact h
  | _ => cases h

namespace Watch

variable {p : Watch} {s : Server} {c c' c₀ : Console} {stage stage' : WatchStage}
  {r r' : Run WatchStage} {es : List Event} {ds new : List Deed} {position next j : Nat} {u : Url}

/-! ### The reader -/

/-- What the command has read of the feed, from where it was on the console `c₀` when the command
began up to a position, and how many views it has asked for. -/
structure HasRead (c₀ c : Console) (position : Nat) : Prop where
  begun : c₀.page.feed.subscribe ≤ position
  sent : position ≤ c.page.feed.sent.length
  /-- It passed over an event that says that the page was left only if that was lost. -/
  lost : ∀ i u, c₀.page.feed.subscribe ≤ i → i < position →
    c.page.feed.sent[i]? = some (.navigated u) → i < c.page.feed.oldest
  views : c.views ≤ c₀.views + 1 + c.page.feed.reloads c₀.page.feed.subscribe position

theorem hasRead_start (c₀ : Console) (hfeed : c.page.feed = c₀.page.feed)
    (hviews : c.views = c₀.views + 1) : HasRead c₀ c c₀.page.feed.subscribe where
  begun := Nat.le_refl _
  sent := by
    rw [hfeed]
    exact Nat.le_refl _
  lost i u hi hlt _ := absurd hlt (Nat.not_lt_of_le hi)
  views := by
    rw [hviews]
    exact Nat.le_add_right _ _

theorem HasRead.mono (h : HasRead c₀ c position) (hgrows : c.page.feed.Grows c'.page.feed)
    (hviews : c'.views = c.views) : HasRead c₀ c' position where
  begun := h.begun
  sent := Nat.le_trans h.sent hgrows.length_le
  lost i u hi hlt hu := by
    rw [hgrows.getElem? (Nat.lt_of_lt_of_le hlt h.sent)] at hu
    exact Nat.lt_of_lt_of_le (h.lost i u hi hlt hu) hgrows.oldest_le
  views := by
    rw [hviews, hgrows.reloads_eq h.sent]
    exact h.views

/-- Up to the reload that it finds next the command passes over lost events only. -/
theorem HasRead.lost_next (h : HasRead c₀ c position)
    (hfinds : c.page.feed.Finds position j .reloaded) {i : Nat}
    (hi : c₀.page.feed.subscribe ≤ i) (hlt : i < j + 1)
    (hu : c.page.feed.sent[i]? = some (.navigated u)) : i < c.page.feed.oldest := by
  by_cases hread : i < position
  · exact h.lost i u hi hread hu
  · have hne : i ≠ j := by
      rintro rfl
      obtain ⟨v, hv⟩ := hfinds.reloaded
      rw [hu] at hv
      cases hv
    by_contra hkept
    have hnone := hfinds.before i _ (by omega) (by omega) (by omega) hu
    cases hnone

/-- So the page had been left before the reload exactly if the event that says so was lost. -/
theorem HasRead.leftWithin_iff (h : HasRead c₀ c position)
    (hfinds : c.page.feed.Finds position j .reloaded) :
    c.page.feed.LeftWithin c₀.page.feed.subscribe (j + 1) ↔
      c.page.feed.LeftWithin c₀.page.feed.subscribe c.page.feed.oldest := by
  constructor
  · rintro ⟨i, u, hi, hlt, hu⟩
    exact ⟨i, u, hi, h.lost_next hfinds hi hlt hu, hu⟩
  · rintro ⟨i, u, hi, hlt, hu⟩
    have hkept := hfinds.kept
    exact ⟨i, u, hi, by omega, hu⟩

/-- A reload makes the command ask for one more view. -/
theorem HasRead.reloaded (h : HasRead c₀ c position)
    (hfinds : c.page.feed.Finds position j .reloaded)
    (hfeed : c'.page.feed = c.page.feed) (hviews : c'.views = c.views + 1) :
    HasRead c₀ c' (j + 1) := by
  obtain ⟨u, hevent⟩ := hfinds.reloaded
  have hbegun := Nat.le_trans h.begun hfinds.le
  constructor
  case begun => exact Nat.le_succ_of_le hbegun
  case sent =>
    rw [hfeed]
    exact (List.getElem?_eq_some_iff.1 hevent).1
  case lost =>
    intro i u hi hlt hu
    rw [hfeed] at hu ⊢
    exact h.lost_next hfinds hi hlt hu
  case views =>
    have hmono : c.page.feed.reloads c₀.page.feed.subscribe position ≤
        c.page.feed.reloads c₀.page.feed.subscribe j := Feed.reloads_mono hfinds.le
    have hbefore := h.views
    rw [hviews, hfeed, Feed.reloads_succ hbegun hevent]
    omega

/-! ### Runs -/

theorem Does.views (h : Does p s c stage new stage') :
    (World.run s ⟨c, []⟩ (moves new)).console.views = c.views + new.countP Deed.isView := by
  rw [World.views_run (h.lawful _), countP_view fun m hm => absurd hm (h.own m)]

/-- What is known of a run of the command. -/
structure Known (p : Watch) (c₀ : Console) (r : Run WatchStage) : Prop where
  start : r.stage = .start → r = p.activity.begin c₀
  grows : c₀.page.feed.Grows r.console.page.feed
  read : ∀ position, r.stage.position? = some position → HasRead c₀ r.console position

theorem Does.ne_start (h : Does p s c stage new stage') : stage' ≠ .start := by
  cases h <;> nofun

theorem Known.turn (h : Known p c₀ r) (hdoes : Does p s r.console r.stage new r'.stage)
    (hrun : World.run s ⟨r.console, []⟩ (moves new) = ⟨r'.console, []⟩) : Known p c₀ r' := by
  have hconsole : (World.run s ⟨r.console, []⟩ (moves new)).console = r'.console :=
    congrArg World.console hrun
  have hgrows : r.console.page.feed.Grows r'.console.page.feed :=
    hconsole ▸ World.grows_run s ⟨r.console, []⟩ (moves new)
  have hviews : r'.console.views = r.console.views + new.countP Deed.isView :=
    hconsole ▸ hdoes.views
  refine ⟨fun hstart => absurd hstart hdoes.ne_start, h.grows.trans hgrows, ?_⟩
  intro position hposition
  generalize hstage : r.stage = stage at hdoes
  generalize r'.stage = stage' at hdoes hposition
  cases hdoes with
  | start =>
    obtain rfl := h.start hstage
    cases hposition
    refine hasRead_start c₀ ?_ hviews
    rw [← hconsole]
    rfl
  | on =>
    rw [isView_opening] at hviews
    exact (h.read position (by rw [hstage]; exact hposition)).mono hgrows hviews
  | @reloaded i position j signal u hfinds hevent =>
    cases hposition
    refine (h.read position (by rw [hstage]; rfl)).reloaded hfinds ?_ hviews
    rw [← hconsole]
    exact congrArg Page.feed (Console.disarm_page r.console i)
  | _ => cases hposition

/-- Others only add to the feed, and ask for no view. -/
theorem aside_other {m : Move} (he : Happens p.activity s r (.other m) r') :
    r'.stage = r.stage ∧ r.console.page.feed.Grows r'.console.page.feed ∧
      r'.console.views = r.console.views := by
  cases he with
  | other ready hready hwaits hm ha =>
    have hl : World.Lawful s ⟨r.console, []⟩ [m] := ⟨ha, trivial⟩
    have hnone : (moves [Deed.beside m] |>.filterMap Move.call?).countP Call.isView = 0 :=
      countP_view fun k hk => by
        cases List.mem_singleton.1 hk
        exact hm
    have hviews := (World.views_run hl).trans (congrArg (r.console.views + ·) hnone)
    exact ⟨rfl, World.grows_move s ⟨r.console, []⟩ m, hviews⟩

/-- The command has its first turn before anything else happens. -/
theorem begin_waits {m : Move} : ¬ Happens p.activity s (p.activity.begin c₀) (.other m) r' := by
  intro he
  cases he with
  | other ready hready hwaits hm ha => cases hwaits rfl

theorem Known.other {m : Move} (h : Known p c₀ r) (he : Happens p.activity s r (.other m) r') :
    Known p c₀ r' := by
  obtain ⟨hstage, hgrows, hviews⟩ := aside_other he
  refine ⟨fun hstart => ?_, h.grows.trans hgrows, fun position hposition => ?_⟩
  · rw [hstage] at hstart
    obtain rfl := h.start hstart
    exact absurd he begin_waits
  · rw [hstage] at hposition
    exact (h.read position hposition).mono hgrows hviews

theorem Chronicle.known (h : Chronicle p s (p.activity.begin c₀) es ds r) : Known p c₀ r := by
  induction h with
  | nil => exact ⟨fun _ => rfl, .refl _, nofun⟩
  | turn _ _ hdoes hrun ih => exact ih.turn hdoes hrun
  | other _ he ih => exact ih.other he

/-! ### Loading again -/

/-- A view is loaded at first, and after each reload that is found. -/
theorem Does.loads (h : Does p s c stage new stage') (hnext : stage'.loads? = some next) :
    (stage = .start ∧ next = c.page.feed.subscribe ∨ ∃ position j,
      stage.position? = some position ∧ c.page.feed.Finds position j .reloaded ∧ next = j + 1) ∧
    (World.run s ⟨c, []⟩ (moves new)).console.page.feed = c.page.feed := by
  cases h with
  | start =>
    cases hnext
    exact ⟨.inl ⟨rfl, rfl⟩, rfl⟩
  | @reloaded i position j signal u hfinds hevent =>
    cases hnext
    exact ⟨.inr ⟨position, j, rfl, hfinds, rfl⟩, congrArg Page.feed (Console.disarm_page c i)⟩
  | _ => cases hnext

/-- In any other turn no view is asked for. -/
theorem Does.countP_isView (h : Does p s c stage new stage') (hnone : stage'.loads? = none) :
    new.countP Deed.isView = 0 := by
  cases h with
  | start => cases hnone
  | on => exact isView_opening p c _
  | reloaded => cases hnone
  | _ => rfl

/-- When a view is loaded the page had been left since the command began exactly if the event that
says so was lost. -/
theorem Known.leftWithin_iff (h : Known p c₀ r) (hdoes : Does p s r.console r.stage new stage')
    (hnext : stage'.loads? = some next) :
    r.console.page.feed.LeftWithin c₀.page.feed.subscribe next ↔
      r.console.page.feed.LeftWithin c₀.page.feed.subscribe r.console.page.feed.oldest := by
  rcases (hdoes.loads hnext).1 with ⟨hstart, rfl⟩ | ⟨position, j, hposition, hfinds, rfl⟩
  · obtain rfl := h.start hstart
    refine iff_of_false (Feed.not_leftWithin_self _ _) ?_
    rintro ⟨i, u, hle, hlt, -⟩
    exact absurd hlt (Nat.not_lt_of_le (Nat.le_trans (Nat.sub_le _ _) hle))
  · exact (h.read position hposition).leftWithin_iff hfinds

/-- In the run the command loaded a view although an event was lost that says that the page was
left since the command began. -/
def Overrun (p : Watch) (s : Server) (c₀ : Console) (es : List Event) (r : Run WatchStage) : Prop :=
  ∃ pre post r₁ r₂, es = pre ++ .turn :: post ∧ Goes p.activity s (p.activity.begin c₀) pre r₁ ∧
    Happens p.activity s r₁ .turn r₂ ∧ Goes p.activity s r₂ post r ∧ r₂.stage.loads?.isSome = true ∧
    r₁.console.page.feed.LeftWithin c₀.page.feed.subscribe r₁.console.page.feed.oldest

theorem Overrun.snoc (h : Overrun p s c₀ es r) {e : Event} (he : Happens p.activity s r e r') :
    Overrun p s c₀ (es ++ [e]) r' := by
  obtain ⟨pre, post, r₁, r₂, rfl, hpre, hturn, hpost, hloads, hleft⟩ := h
  exact ⟨pre, post ++ [e], r₁, r₂, by simp, hpre, hturn, hpost.snoc he, hloads, hleft⟩

/-- There are no more views than one, and one for each reload before the page was left. -/
def Bounded (c₀ c : Console) : Prop :=
  c.views ≤ c₀.views + 1 + reloadsBefore (c.page.feed.sent.drop c₀.page.feed.subscribe)

theorem Bounded.mono (h : Bounded c₀ c) (hbegun : c₀.page.feed.Grows c.page.feed)
    (hgrows : c.page.feed.Grows c'.page.feed) (hviews : c'.views = c.views) : Bounded c₀ c' := by
  have hmore := hgrows.reloadsBefore_le hbegun.length_le
  unfold Bounded at h ⊢
  rw [hviews]
  exact Nat.le_trans h (Nat.add_le_add_left hmore _)

theorem HasRead.bounded (h : HasRead c₀ c position)
    (hleft : ¬ c.page.feed.LeftWithin c₀.page.feed.subscribe position) : Bounded c₀ c :=
  Nat.le_trans h.views (Nat.add_le_add_left (Feed.reloads_le_reloadsBefore hleft) _)

theorem Chronicle.bounded (h : Chronicle p s (p.activity.begin c₀) es ds r) :
    Overrun p s c₀ es r ∨ Bounded c₀ r.console := by
  induction h with
  | nil => exact .inr (Nat.le_trans (Nat.le_add_right _ _) (Nat.le_add_right _ _))
  | @turn es ds new r r' hbefore hturn hdoes hrun ih =>
    rcases ih with hover | hbounded
    · exact .inl (hover.snoc hturn)
    have hconsole : (World.run s ⟨r.console, []⟩ (moves new)).console = r'.console :=
      congrArg World.console hrun
    have hknown := hbefore.known
    have hknown' := hknown.turn hdoes hrun
    cases hnext : r'.stage.loads? with
    | none =>
      have hviews : r'.console.views = r.console.views + 0 :=
        hconsole ▸ hdoes.countP_isView hnext ▸ hdoes.views
      have hgrows : r.console.page.feed.Grows r'.console.page.feed :=
        hconsole ▸ World.grows_run s ⟨r.console, []⟩ (moves new)
      exact .inr (hbounded.mono hknown.grows hgrows hviews)
    | some next =>
      by_cases hleft : r.console.page.feed.LeftWithin c₀.page.feed.subscribe
          r.console.page.feed.oldest
      · refine .inl ⟨es, [], r, r', rfl, hbefore.goes, hturn, .nil, ?_, hleft⟩
        rw [hnext]
        rfl
      · have hfeed : r'.console.page.feed = r.console.page.feed :=
          hconsole ▸ (hdoes.loads hnext).2
        rw [← hknown.leftWithin_iff hdoes hnext, ← hfeed] at hleft
        exact .inr ((hknown'.read next (WatchStage.position?_of_loads? hnext)).bounded hleft)
  | other hbefore he ih =>
    rcases ih with hover | hbounded
    · exact .inl (hover.snoc he)
    · obtain ⟨-, hgrows, hviews⟩ := aside_other he
      exact .inr (hbounded.mono hbefore.known.grows hgrows hviews)

/-- The law of the views of a command that watches. -/
structure Renders (p : Watch) (s : Server) (c₀ : Console) : Prop where
  /-- Whatever happens, views are loaded only as long as the page is not left, unless the command
  overlooks that in a run. -/
  bounded : ∀ es r, Goes p.activity s (p.activity.begin c₀) es r →
    Overrun p s c₀ es r ∨ Bounded c₀ r.console
  /-- It does so exactly if the event that says so was lost. -/
  late : ∀ es r r' next, Goes p.activity s (p.activity.begin c₀) es r →
    Happens p.activity s r .turn r' → r'.stage.loads? = some next →
      (r.console.page.feed.LeftWithin c₀.page.feed.subscribe next ↔
        r.console.page.feed.LeftWithin c₀.page.feed.subscribe r.console.page.feed.oldest)
  /-- The order of the program is one of those in which things may happen. -/
  own : ∀ limit n, ∃ es, Goes p.activity s (p.activity.begin c₀) es
    (p.activity.steps s limit n (p.activity.begin c₀))

/-- A command that watches asks for no more views than one and one for each reload before the page
was left, unless the event that says so was lost before the command had read it. -/
theorem renders_of_tidy (ht : c₀.Tidy) (p : Watch) (s : Server) : Renders p s c₀ := by
  constructor
  case bounded =>
    intro es r hgoes
    obtain ⟨ds, hchronicle⟩ := exists_chronicle hgoes
    exact hchronicle.bounded
  case late =>
    intro es r r' next hgoes hturn hnext
    obtain ⟨ds, hchronicle⟩ := exists_chronicle hgoes
    obtain ⟨hturn⟩ := hturn
    obtain ⟨t, ht, rfl⟩ := Option.map_eq_some_iff.1 hturn
    obtain ⟨new, hdoes, -⟩ := performs_of_turn ht
    exact hchronicle.known.leftWithin_iff hdoes hnext
  case own => exact fun limit n => goes_steps (keepsTidy p s) limit n ht

/-- A console whose page somebody leaves, and reloads so often that the feed does not keep that. -/
def bursting : Console :=
  (Console.ofPage (World.consolePage.replace "#autoreload")).schedule 500
    (.act (.navigate "/away" :: List.replicate 64 .reload))

theorem renders_of_tidy_bursting :
    let p : Watch := { interval := 1000 }
    let r := p.activity.run World.entitling 5000 bursting
    p.activity.ending? r.stage = some (.ok .done) ∧ ¬ Bounded bursting r.console ∧
      Renders p World.entitling bursting := by
  intro p r
  have ht : bursting.Tidy := (Console.tidy_ofPage _).schedule 500 nofun nofun
  exact ⟨by decide +kernel, by unfold Bounded; decide +kernel, renders_of_tidy ht p World.entitling⟩

end Watch

end Cli

end ClusterConsole
