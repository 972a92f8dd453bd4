import ClusterConsole.Proofs.Cli.Homing
import ClusterConsole.Proofs.Cli.Views

/-! Whether a command that is sent learns that its page went home. It waits for the page's feed to
say so, and the feed keeps its last events only. Whoever acts on the page between the way home and
the next turn of the command can push that event out of the feed, and then the command waits on
although the page was left. In the order of the program that takes somebody who planned to act
after the command had begun. -/

namespace ClusterConsole

namespace Feed

variable {f g : Feed PageEvent} {position : Nat}

/-- The page was left at or after a position, and no event that says so is kept. -/
structure Overwritten (f : Feed PageEvent) (position : Nat) : Prop where
  left : f.LeftWithin position f.sent.length
  lost : ∀ i u, position ≤ i → f.sent[i]? = some (.navigated u) → i < f.oldest

theorem overwritten_iff (hleft : f.LeftWithin position f.sent.length) :
    f.Overwritten position ↔ ¬ f.Leaves position := by
  constructor
  · rintro h ⟨i, u, hi, hkept, hu⟩
    exact absurd (h.lost i u hi hu) (Nat.not_lt_of_le hkept)
  · intro hno
    refine ⟨hleft, fun i u hi hu => ?_⟩
    by_contra hkept
    exact hno ⟨i, u, hi, Nat.le_of_not_lt hkept, hu⟩

theorem LeftWithin.grows (h : f.LeftWithin position f.sent.length) (hgrows : f.Grows g) :
    g.LeftWithin position g.sent.length := by
  obtain ⟨i, u, hi, hlt, hu⟩ := h
  exact ⟨i, u, hi, Nat.lt_of_lt_of_le hlt hgrows.length_le, by rw [hgrows.getElem? hlt, hu]⟩

/-- What was lost stays lost until the page is left again. -/
theorem Overwritten.grows (h : f.Overwritten position) (hgrows : f.Grows g)
    (hnew : ∀ i u, f.sent.length ≤ i → g.sent[i]? ≠ some (.navigated u)) :
    g.Overwritten position := by
  refine ⟨h.left.grows hgrows, fun i u hi hu => ?_⟩
  rcases Nat.lt_or_ge i f.sent.length with hlt | hge
  · rw [hgrows.getElem? hlt] at hu
    exact Nat.lt_of_lt_of_le (h.lost i u hi hu) hgrows.oldest_le
  · exact absurd hu (hnew i u hge)

end Feed

theorem Page.leftWithin_navigate {page : Page} {target : String} {u : Url} {position : Nat}
    (h : page.location.join target = .ok u) (hposition : position ≤ page.feed.sent.length) :
    (page.navigate target).feed.LeftWithin position (page.navigate target).feed.sent.length := by
  have hfeed : (page.navigate target).feed = page.feed.send (.navigated u) := by
    unfold navigate
    rw [h]
  rw [hfeed]
  refine ⟨page.feed.sent.length, u, hposition, ?_, List.getElem?_concat_length⟩
  simp only [Feed.send, List.length_append, List.length_singleton]
  omega

theorem redirects.holds_congr {c c' : Console} (h : c'.dispatchers = c.dispatchers) {i id : Nat} :
    redirects.Holds c' i id ↔ redirects.Holds c i id := by
  have hhandles : redirects.handles c' = redirects.handles c := Console.redirects_of_dispatchers h
  unfold Owners.Holds
  rw [hhandles]

namespace Console

variable {c : Console} {P : Job Task → Prop} {m : Move}

/-- Where only commands and those who act on the page have jobs, nobody arms a way home. -/
theorem Plain.dispatchers_move (h : c.Plain P) (s : Server) (hm : m.Outside)
    (ha : World.Allows ⟨c, []⟩ m) :
    (World.move s ⟨c, []⟩ m).console.dispatchers = c.dispatchers := by
  match m, hm with
  | .wait _, _ | .act _, _ | .plan _ _, _ => rfl
  | .resume j, _ =>
    have houtward := h.outward j ha.1
    have hresume : (World.move s ⟨c, []⟩ (.resume j)).console =
        (c.cancel (some j.id)).perform s j.task := resume_of_due ha.2
    rw [hresume]
    refine (perform_spares (c := c.cancel (some j.id)) j.task fun i request result hj _ => ?_).1
    rw [hj] at houtward
    exact houtward.elim

/-- A job that is gone when another one was done is that one. -/
theorem Plain.eq_of_taken (h : c.Plain P) {s : Server} {j k : Job Task}
    (hj : j ∈ c.agenda.jobs) (htaken : j ∉ (c.resume s k).agenda.jobs) (hk : k ∈ c.agenda.jobs) :
    k = j := by
  by_contra hne
  have hkept : j ∈ (c.agenda.cancel k.id).jobs :=
    Agenda.mem_cancel.2 ⟨hj, fun hid => hne (h.tidy.ordered.eq_of_id_eq hk hj hid.symm)⟩
  unfold resume at htaken
  rcases perform_agenda s (h.outward k hk) with hsame | ⟨due, result, hagenda⟩
  · rw [hsame] at htaken
    exact htaken hkept
  · rw [hagenda] at htaken
    exact htaken (Agenda.mem_schedule.2 (.inr hkept))

end Console

namespace Cli

/-- Where a stage reads the feed on that waits for the page to be left. -/
def SendStage.leaves? : SendStage → Option Nat
  | leaving position => some position
  | _ => none

theorem SendStage.eq_of_leaves? {stage : SendStage} {position : Nat}
    (h : stage.leaves? = some position) : stage = .leaving position := by
  cases stage with
  | leaving => exact congrArg leaving (Option.some.inj h)
  | _ => cases h

end Cli

namespace Cli.Send

/-- A console on which a command may begin. Nothing is left to be done but what such commands and
those who act on the page leave there, and the page's feed goes on. -/
structure Fit (c : Console) : Prop where
  plain : c.Plain fun _ => True
  isOpen : c.page.feed.closed = false
  capacity : 0 < c.page.feed.capacity

/-- The command waits for the page to be left, and has missed that it was. -/
structure Stranded (c₀ : Console) (r : Run SendStage) : Prop where
  stage : r.stage = .leaving c₀.page.feed.subscribe
  missed : r.console.page.feed.Overwritten c₀.page.feed.subscribe

/-- What a command leaves alone that began on the console `c₀`. -/
structure Kept (c₀ c : Console) : Prop where
  plain : c.Plain fun _ => True
  isOpen : c.page.feed.closed = false
  grows : c₀.page.feed.Grows c.page.feed

/-- What a stage tells of a command that began on the console `c₀`. It has the next dispatcher, and
reads the feed from where that ended. -/
def Tells (p : Send) (c₀ : Console) (r : Run SendStage) : Prop :=
  match r.stage with
  | .start => r = p.activity.begin c₀
  | .asking _ _ dispatcher position =>
    r.console.dispatchers = c₀.dispatchers ++ [({ delay := p.delay } : Dispatcher)] ∧
      dispatcher = c₀.dispatchers.length ∧ position = c₀.page.feed.subscribe
  | .leaving position => position = c₀.page.feed.subscribe
  | .ended e => e = .ok .done ∨ ∀ id, ¬ redirects.Holds r.console c₀.dispatchers.length id

/-- What is known wherever such a command comes. -/
structure Trail (p : Send) (c₀ : Console) (r : Run SendStage) : Prop where
  kept : Kept c₀ r.console
  tells : Tells p c₀ r

variable {p : Send} {s : Server} {c c₀ : Console} {r r' r'' : Run SendStage} {m : Move}
  {es : List Event} {e : Event} {position dispatcher id : Nat} {j : Job Task}
  {request : CommandRequest} {result : Except String EntitlementResponse}
  {rest : List (Job Task)}

/-! ### The trail of a command -/

theorem Kept.move (h : Kept c₀ c) (s : Server) (hm : m.Outside) (ha : World.Allows ⟨c, []⟩ m) :
    Kept c₀ (World.move s ⟨c, []⟩ m).console where
  plain := (World.aloof_move h.plain hm ha).plain
  isOpen := (World.closed_move s ⟨c, []⟩ m).trans h.isOpen
  grows := h.grows.trans (World.grows_move s ⟨c, []⟩ m)

theorem Kept.ask (h : Kept c₀ c) (s : Server) (delay : Nat) :
    Kept c₀ ((c.addDispatcher delay).ask s).2 where
  plain := ⟨(h.plain.tidy.addDispatcher delay).record .entitlement, h.plain.outward,
    fun _ _ _ => trivial⟩
  isOpen := h.isOpen
  grows := h.grows

theorem Kept.conclude (h : Kept c₀ c) (s : Server) :
    Kept c₀ (c.conclude dispatcher request result).2 := by
  let q : Inquiry := ⟨.dispatch dispatcher request, 0, c.now, result⟩
  constructor
  case plain =>
    refine ⟨h.plain.tidy.conclude dispatcher request result, fun j hj => ?_, fun _ _ _ => trivial⟩
    exact (Console.mem_conclude h.plain.tidy hj).elim (h.plain.outward j) fun houtward => houtward
  case isOpen =>
    exact (World.closed_move s ⟨c, [q]⟩ (.answer q)).trans h.isOpen
  case grows =>
    exact h.grows.trans (World.grows_move s ⟨c, [q]⟩ (.answer q))

/-- A dispatcher that has sent nothing yet holds no way home, nor does one that does not exist. -/
theorem not_holds_new {new : List Dispatcher} (h : c.dispatchers = c₀.dispatchers ++ new)
    (hnew : ∀ d ∈ new, d.redirect = none) :
    ¬ redirects.Holds c c₀.dispatchers.length id := by
  intro hold
  replace hold : (c.dispatchers.map (·.redirect))[c₀.dispatchers.length]? = some (some id) := hold
  rw [List.getElem?_map, h, List.getElem?_append_right (Nat.le_refl _), Option.map_eq_some_iff]
    at hold
  obtain ⟨d, hd, hredirect⟩ := hold
  rw [hnew d (List.mem_of_getElem? hd)] at hredirect
  cases hredirect

/-- While the feed goes on, the command ends only because it finds the page left. -/
theorem look_of_open {t : Turn SendStage} (hopen : c.page.feed.closed = false)
    (h : p.look? c position = some t) : t.console = c ∧ t.stage = .ended (.ok .done) := by
  obtain ⟨hsame, hended | ⟨hdone, -⟩⟩ := look_some h
  · have hleaves : c.page.feed.Leaves position := by
      by_contra hno
      rw [look_eq_none_iff.2 ⟨hno, hopen⟩] at h
      cases h
    unfold look? at h
    rw [Feed.nextNavigation_of_leaves hleaves] at h
    cases h
    exact ⟨rfl, rfl⟩
  · exact ⟨hsame, hdone⟩

theorem Trail.begin (h : Fit c₀) (p : Send) : Trail p c₀ (p.activity.begin c₀) :=
  ⟨⟨h.plain, h.isOpen, .refl _⟩, rfl⟩

theorem Trail.other (h : Trail p c₀ r) (he : Happens p.activity s r (.other m) r') :
    Trail p c₀ r' := by
  obtain ⟨hkept, htells⟩ := h
  cases he with
  | other ready hready hwaits hm ha =>
    have hdispatchers := hkept.plain.dispatchers_move s hm ha
    refine ⟨hkept.move s hm ha, ?_⟩
    unfold Tells at htells ⊢
    cases hstage : r.stage with
    | start =>
      rw [hstage] at htells
      subst htells
      cases hwaits rfl
    | asking due result dispatcher position =>
      rw [hstage] at htells
      exact ⟨hdispatchers.trans htells.1, htells.2⟩
    | leaving position =>
      rw [hstage] at htells
      exact htells
    | ended e =>
      rw [hstage] at htells
      exact htells.imp_right fun hno id hold => hno id ((redirects.holds_congr hdispatchers).1 hold)

/-- The answer decides whether the command arms its way home. -/
theorem tells_answered (h : r.console.dispatchers =
      c₀.dispatchers ++ [({ delay := p.delay } : Dispatcher)])
    {t : Run SendStage} (hconsole : t.console =
      (r.console.conclude c₀.dispatchers.length p.request result).2)
    (hstage : t.stage = (p.answered r.console result c₀.dispatchers.length
      c₀.page.feed.subscribe).stage) : Tells p c₀ t := by
  unfold Tells
  by_cases hentitled : Entitled result
  · rw [hstage, answered_of_entitled hentitled]
  · obtain ⟨-, ⟨hyes, -⟩ | ⟨e, hended, -⟩⟩ :=
      answered_cases p r.console result c₀.dispatchers.length c₀.page.feed.subscribe
    · exact absurd hyes hentitled
    · have hdispatchers : t.console.dispatchers =
          c₀.dispatchers ++ [({ delay := p.delay } : Dispatcher)] := by
        rw [hconsole, (Console.conclude_spares fun hyes => absurd hyes hentitled).1, h]
      rw [hstage, hended]
      exact .inr fun id => not_holds_new hdispatchers (by simp)

theorem Trail.turn (h : Trail p c₀ r) (hturn : p.activity.takeTurn? s r = some r') :
    Trail p c₀ r' := by
  obtain ⟨t, ht, hconsole, hstage', -⟩ := takeTurn_elim hturn
  obtain ⟨hkept, htells⟩ := h
  unfold Tells at htells
  cases hstage : r.stage with
  | start =>
    rw [hstage] at htells ht
    replace htells : r = p.activity.begin c₀ := htells
    subst htells
    obtain rfl : p.start s c₀ = t := Option.some.inj ht
    by_cases hvalid : p.Valid
    · obtain ⟨hask, hasking⟩ := start_of_valid hvalid s c₀
      rw [hask] at hconsole
      refine ⟨hconsole ▸ hkept.ask s p.delay, ?_⟩
      unfold Tells
      rw [hstage', hasking, hconsole]
      exact ⟨rfl, rfl, rfl⟩
    · obtain ⟨hsame, hended⟩ := start_of_invalid hvalid s c₀
      rw [hsame] at hconsole
      refine ⟨hconsole ▸ hkept, ?_⟩
      unfold Tells
      rw [hstage', hended, hconsole]
      exact .inr fun id => not_holds_new (List.append_nil _).symm nofun
  | asking due result dispatcher position =>
    rw [hstage] at htells ht
    obtain ⟨hdispatchers, rfl, rfl⟩ := htells
    replace ht : (if due ≤ r.console.now then
      some (p.answered r.console result c₀.dispatchers.length c₀.page.feed.subscribe)
        else none) = some t := ht
    split at ht
    · obtain rfl := Option.some.inj ht
      rw [(answered_cases p r.console result _ _).1] at hconsole
      exact ⟨hconsole ▸ hkept.conclude s, tells_answered hdispatchers hconsole hstage'⟩
    · cases ht
  | leaving position =>
    rw [hstage] at htells ht
    replace ht : p.look? r.console position = some t := ht
    obtain ⟨hsame, hdone⟩ := look_of_open hkept.isOpen ht
    rw [hsame] at hconsole
    refine ⟨hconsole ▸ hkept, ?_⟩
    unfold Tells
    rw [hstage', hdone]
    exact .inl rfl
  | ended e =>
    rw [hstage] at ht
    cases ht

theorem Trail.step (h : Trail p c₀ r) (he : Happens p.activity s r e r') : Trail p c₀ r' := by
  cases he with
  | turn hturn => exact h.turn hturn
  | other ready hready hwaits hm ha => exact h.other (.other ready hready hwaits hm ha)

theorem Trail.goes (h : Trail p c₀ r) (hgoes : Goes p.activity s r es r') : Trail p c₀ r' := by
  induction hgoes with
  | nil => exact h
  | snoc _ he ih => exact ih.step he

/-- Whoever holds a way home waits for the page to be left, or is done. -/
theorem Trail.stage (h : Trail p c₀ r)
    (hold : redirects.Holds r.console c₀.dispatchers.length id)
    (hbegun : r ≠ p.activity.begin c₀) :
    r.stage = .leaving c₀.page.feed.subscribe ∨ r.stage = .ended (.ok .done) := by
  have htells := h.tells
  unfold Tells at htells
  cases hstage : r.stage with
  | start =>
    rw [hstage] at htells
    exact absurd htells hbegun
  | asking due result dispatcher position =>
    rw [hstage] at htells
    exact absurd hold (not_holds_new htells.1 (by simp))
  | leaving position =>
    rw [hstage] at htells
    exact .inl (congrArg SendStage.leaving htells)
  | ended e =>
    rw [hstage] at htells
    exact .inr (congrArg SendStage.ended (htells.resolve_right fun hno => hno id hold))

/-! ### After the page was left -/

/-- The page was left since the command began. The command waits for that, or is done. -/
structure Departed (c₀ : Console) (r : Run SendStage) : Prop where
  left : r.console.page.feed.LeftWithin c₀.page.feed.subscribe r.console.page.feed.sent.length
  stage : r.stage = .leaving c₀.page.feed.subscribe ∨ r.stage = .ended (.ok .done)

theorem Departed.step (h : Departed c₀ r) (htrail : Trail p c₀ r)
    (he : Happens p.activity s r e r') : Departed c₀ r' := by
  cases he with
  | turn hturn =>
    obtain ⟨t, ht, hconsole, hstage', -⟩ := takeTurn_elim hturn
    rcases h.stage with hstage | hstage
    · rw [hstage] at ht
      obtain ⟨hsame, hdone⟩ := look_of_open htrail.kept.isOpen ht
      refine ⟨?_, .inr (hstage'.trans hdone)⟩
      rw [hconsole, hsame]
      exact h.left
    · rw [hstage] at ht
      cases ht
  | @other m ready hready hwaits hm ha =>
    exact ⟨h.left.grows (World.grows_move s ⟨r.console, []⟩ m), h.stage⟩

theorem Departed.goes (h : Departed c₀ r) (htrail : Trail p c₀ r)
    (hgoes : Goes p.activity s r es r') : Departed c₀ r' := by
  induction hgoes with
  | nil => exact h
  | snoc hbefore he ih => exact ih.step (htrail.goes hbefore) he

/-- The command is done, or will be when it has its next turn, or it is stranded. -/
theorem Departed.cases (h : Departed c₀ r) (htrail : Trail p c₀ r) (s : Server) :
    r.stage = .ended (.ok .done) ∨
      (∃ r', p.activity.takeTurn? s r = some r' ∧ r'.stage = .ended (.ok .done)) ∨
        Stranded c₀ r := by
  rcases h.stage with hstage | hdone
  · by_cases hleaves : r.console.page.feed.Leaves c₀.page.feed.subscribe
    · obtain ⟨t, ht⟩ : ∃ t, p.look? r.console c₀.page.feed.subscribe = some t := by
        refine Option.ne_none_iff_exists'.1 fun hnone => ?_
        exact (look_eq_none_iff.1 hnone).1 hleaves
      have hturn : p.turn? s r.console r.stage = some t := by rwa [hstage]
      obtain ⟨r', htake, -, hstage', -⟩ := Activity.takeTurn?_of_turn (a := p.activity) hturn
      exact .inr (.inl ⟨r', htake, hstage'.trans (look_of_open htrail.kept.isOpen ht).2⟩)
    · exact .inr (.inr ⟨hstage, (Feed.overwritten_iff h.left).2 hleaves⟩)
  · exact .inl hdone

/-- A stranded command has no turn. -/
theorem Stranded.waits (h : Stranded c₀ r) (htrail : Trail p c₀ r) (s : Server) :
    p.activity.takeTurn? s r = none := by
  apply Activity.takeTurn?_of_waits
  rw [h.stage]
  exact look_eq_none_iff.2
    ⟨(Feed.overwritten_iff h.missed.left).1 h.missed, htrail.kept.isOpen⟩

/-- Nor does it get one before the page is left again. -/
theorem Stranded.other (h : Stranded c₀ r) (he : Happens p.activity s r (.other m) r')
    (hnew : ∀ i u, r.console.page.feed.sent.length ≤ i →
      r'.console.page.feed.sent[i]? ≠ some (.navigated u)) : Stranded c₀ r' := by
  cases he with
  | other ready hready hwaits hm ha =>
    exact ⟨h.stage, h.missed.grows (World.grows_move s ⟨r.console, []⟩ m) hnew⟩

/-- When the way home of the command is taken, the page is left. -/
theorem departed_of_home {due : Nat} {u : Url} (htrail : Trail p c₀ r)
    (hold : redirects.Holds r.console c₀.dispatchers.length id)
    (hjoin : r.console.page.location.join Route.home = .ok u)
    (he : Happens p.activity s r (.other (.resume ⟨id, due, .goHome⟩)) r') : Departed c₀ r' := by
  cases he with
  | other ready hready hwaits hm ha =>
    have hbegun : r ≠ p.activity.begin c₀ := by
      rintro rfl
      cases hwaits rfl
    have hpage : (World.move s ⟨r.console, []⟩ (.resume ⟨id, due, .goHome⟩)).console.page =
        r.console.page.navigate Route.home := Console.navigate_page _ _
    refine ⟨?_, htrail.stage hold hbegun⟩
    rw [hpage]
    exact Page.leftWithin_navigate hjoin htrail.kept.grows.length_le

/-! ### In the order of the program -/

/-- After the way home of a dispatcher, at its moment, only answers come that nobody reads. -/
def HomeLast (c : Console) (dispatcher : Nat) : Prop :=
  c.agenda.jobs.Pairwise fun j k => redirects.Holds c dispatcher j.id → j.due < k.due ∨ Unread k

/-- A way home that was armed just now comes after all that is due no later. -/
theorem homeLast_armRedirect (ht : c.Tidy) {d : Dispatcher}
    (hd : c.dispatchers[dispatcher]? = some d) :
    HomeLast (c.armRedirect dispatcher) dispatcher := by
  have ht' := ht.armRedirect dispatcher
  have hreset := Console.reset_armRedirect hd
  have hlt : dispatcher < c.redirects.length :=
    (List.getElem?_eq_some_iff.1 (Console.getElem?_redirect hd)).1
  have hold : redirects.Holds (c.armRedirect dispatcher) dispatcher c.agenda.nextId :=
    Owners.Holds.of_reset (o := redirects) hreset hlt
  have hcancel := ht.cancel d.redirect
  have hother : ∀ j ∈ (c.cancel d.redirect).agenda.jobs,
      ¬ redirects.Holds (c.armRedirect dispatcher) dispatcher j.id := by
    intro j hj hyes
    have hid := hcancel.ordered.fresh j hj
    rw [hyes.unique hold, Console.cancel_nextId] at hid
    exact Nat.lt_irrefl _ hid
  have hjobs : (c.armRedirect dispatcher).agenda.jobs = Agenda.insert
      ⟨(c.cancel d.redirect).agenda.nextId, c.after d.delay, .goHome⟩
        (c.cancel d.redirect).agenda.jobs := by
    rw [Console.armRedirect_of_some hd]
    rfl
  unfold HomeLast
  rw [hjobs]
  refine Agenda.pairwise_insert hcancel.ordered.sorted ?_ ?_ ?_
  · exact fun k hk _ hyes => absurd hyes (hother k hk)
  · exact fun k _ hlate _ => .inl hlate
  · exact hcancel.ordered.sorted.imp_of_mem fun hj _ _ hyes => absurd hyes (hother _ hj)

theorem HomeLast.cancel (h : HomeLast c dispatcher) (job : Option Nat) :
    HomeLast (c.cancel job) dispatcher := by
  cases job with
  | none => exact h
  | some id => exact h.filter _

/-- Neither the clock nor a job that is done puts anything else behind the way home. -/
theorem HomeLast.own (h : HomeLast c dispatcher) (hplain : c.Plain fun _ => True) (s : Server)
    (hown : (Event.other m).Own) (ha : World.Allows ⟨c, []⟩ m) :
    HomeLast (World.move s ⟨c, []⟩ m).console dispatcher := by
  match m, hown with
  | .wait time, _ => exact h
  | .resume j, _ =>
    have hresume : (World.move s ⟨c, []⟩ (.resume j)).console =
        (c.cancel (some j.id)).perform s j.task := Console.resume_of_due ha.2
    have hdispatchers : ((c.cancel (some j.id)).perform s j.task).dispatchers = c.dispatchers :=
      hresume ▸ hplain.dispatchers_move s trivial ha
    have hrest : HomeLast (c.cancel (some j.id)) dispatcher := h.cancel _
    have htidy := hplain.tidy.cancel (some j.id)
    rw [hresume]
    unfold HomeLast
    simp only [redirects.holds_congr hdispatchers]
    rcases Console.perform_agenda s (hplain.outward j ha.1) with hsame | ⟨due, result, hagenda⟩
    · rw [hsame]
      exact hrest
    · rw [hagenda]
      refine Agenda.pairwise_insert htidy.ordered.sorted ?_ ?_ hrest
      · exact fun k _ _ _ => .inr ⟨result, rfl⟩
      · intro k _ _ hold
        have hlt := hold.lt_nextId hplain.tidy
        rw [Console.cancel_nextId] at hlt
        exact absurd hlt (Nat.lt_irrefl _)

theorem Trail.homeLast (h : Trail p c₀ r) (hturn : p.activity.takeTurn? s r = some r')
    (hleaving : r'.stage = .leaving position) :
    HomeLast r'.console c₀.dispatchers.length := by
  obtain ⟨t, ht, hconsole, hstage', -⟩ := takeTurn_elim hturn
  obtain ⟨hkept, htells⟩ := h
  have hnext : t.stage = .leaving position := hstage'.symm.trans hleaving
  unfold Tells at htells
  cases hstage : r.stage with
  | start =>
    rw [hstage] at ht
    obtain rfl : p.start s r.console = t := Option.some.inj ht
    rcases start_cases p s r.console with ⟨-, due, result, dispatcher, hasking⟩ | ⟨-, e, hended, -⟩
    · rw [hasking] at hnext
      cases hnext
    · rw [hended] at hnext
      cases hnext
  | asking due result dispatcher position' =>
    rw [hstage] at htells ht
    obtain ⟨hdispatchers, rfl, rfl⟩ := htells
    replace ht : (if due ≤ r.console.now then
      some (p.answered r.console result c₀.dispatchers.length c₀.page.feed.subscribe)
        else none) = some t := ht
    split at ht
    · obtain rfl := Option.some.inj ht
      obtain ⟨hconclude, ⟨hentitled, -⟩ | ⟨e, hended, -⟩⟩ :=
        answered_cases p r.console result c₀.dispatchers.length c₀.page.feed.subscribe
      · rw [hconsole, hconclude, Console.conclude_of_entitled hentitled]
        have htidy : (r.console.schedule 0 (.submit p.request)).Tidy :=
          hkept.plain.tidy.schedule 0 nofun nofun
        refine homeLast_armRedirect htidy (d := { delay := p.delay }) ?_
        rw [Console.schedule_dispatchers, hdispatchers, List.getElem?_concat_length]
      · rw [hended] at hnext
        cases hnext
    · cases ht
  | leaving position' =>
    rw [hstage] at ht
    rw [(look_of_open hkept.isOpen ht).2] at hnext
    cases hnext
  | ended e =>
    rw [hstage] at ht
    cases ht

theorem homeLast_alone (hfit : Fit c₀) (h : Alone p.activity s (p.activity.begin c₀) r)
    (hstage : r.stage = .leaving position) : HomeLast r.console c₀.dispatchers.length := by
  refine h.keeps (P := fun r => ∀ position, r.stage = .leaving position →
    HomeLast r.console c₀.dispatchers.length) nofun ?_ position hstage
  intro r r' e halone hlast hown he position hleaving
  obtain ⟨es, hgoes, -⟩ := halone
  have htrail := (Trail.begin hfit p).goes hgoes
  cases he with
  | turn hturn => exact htrail.homeLast hturn hleaving
  | other ready hready hwaits hm ha =>
    exact (hlast position hleaving).own htrail.kept.plain s hown ha

/-- When the way home is taken that is due first, nothing else happens before the command sees
it. -/
theorem Trail.home (h : Trail p c₀ r) (hstage : r.stage = .leaving c₀.page.feed.subscribe)
    (hlast : HomeLast r.console c₀.dispatchers.length) (hcapacity : 0 < c₀.page.feed.capacity)
    (hjobs : r.console.agenda.jobs = j :: rest)
    (hold : redirects.Holds r.console c₀.dispatchers.length j.id)
    (hjoin : ∃ u, r.console.page.location.join Route.home = .ok u) :
    Home c₀.page.feed.subscribe rest
      { r with console := r.console.resume s j, ready := false } := by
  have htidy := h.kept.plain.tidy
  have hmem : j ∈ r.console.agenda.jobs := hjobs ▸ List.mem_cons_self
  have htask : j.task = .goHome := hold.kind htidy hmem rfl
  obtain ⟨u, hu⟩ := hjoin
  obtain ⟨htidy', hresume, hrest⟩ := take_first (s := s) htidy hjobs
  have hbehind : ∀ k ∈ rest, j.due < k.due ∨ Unread k := by
    unfold HomeLast at hlast
    rw [hjobs, List.pairwise_cons] at hlast
    exact fun k hk => hlast.1 k hk hold
  rw [htask] at hresume
  constructor
  case stage => exact hstage
  case ready => rfl
  case tidy => exact htidy'
  case jobs =>
    show (r.console.resume s j).agenda.jobs = rest
    rw [hresume, ← hrest]
    exact congrArg Agenda.jobs (Console.navigate_agenda _ _)
  case unread =>
    show ∀ k ∈ rest, (r.console.resume s j).now < k.due ∨ Unread k
    rw [hresume, Console.perform_now]
    exact hbehind
  case leaves =>
    show (r.console.resume s j).page.feed.Leaves _
    have hpage : (r.console.resume s j).page = r.console.page.navigate Route.home :=
      hresume ▸ Console.navigate_page _ _
    rw [hpage]
    exact Page.leaves_navigate hu (h.kept.grows.capacity ▸ hcapacity) h.kept.grows.length_le

/-- The program takes the command's way home in its own order. -/
structure GoesHome (p : Send) (s : Server) (c₀ : Console) (limit n : Nat) (r r' : Run SendStage)
    (j : Job Task) : Prop where
  steps : p.activity.steps s limit n (p.activity.begin c₀) = r
  next : p.activity.next? s limit r = some r'
  mem : j ∈ r.console.agenda.jobs
  taken : j ∉ r'.console.agenda.jobs
  holds : redirects.Holds r.console c₀.dispatchers.length j.id
  leaves : ∃ u, r.console.page.location.join Route.home = .ok u

theorem GoesHome.over {limit n : Nat} (hfit : Fit c₀) (h : GoesHome p s c₀ limit n r r' j) :
    ∃ k, Over (.ok .done) r'.console.now r'.console.page r'.console.calls
      (p.activity.steps s limit k r') := by
  have halone : Alone p.activity s (p.activity.begin c₀) r :=
    h.steps ▸ alone_steps (keepsTidy p s) limit n hfit.plain.tidy
  obtain ⟨es, hgoes, -⟩ := id halone
  have htrail := (Trail.begin hfit p).goes hgoes
  have htidy := htrail.kept.plain.tidy
  have hbegun : r ≠ p.activity.begin c₀ := by
    rintro rfl
    exact not_holds_new (List.append_nil _).symm nofun h.holds
  rcases htrail.stage h.holds hbegun with hstage | hdone
  · have hending : p.activity.ending? r.stage = none := by
      rw [hstage]
      rfl
    rcases Activity.next?_cases h.next with hturn | ⟨k, rest, hjobs, rfl⟩ | hwake
    · obtain ⟨t, ht, hconsole, -, -⟩ := takeTurn_elim hturn
      rw [hstage] at ht
      have hsame := (look_of_open htrail.kept.isOpen ht).1
      rw [hsame] at hconsole
      exact absurd h.mem (hconsole ▸ h.taken)
    · have hhome : Home c₀.page.feed.subscribe rest
          { r with console := r.console.resume s k, ready := false } := by
        obtain rfl : k = j := htrail.kept.plain.eq_of_taken h.mem h.taken
          (hjobs ▸ List.mem_cons_self)
        exact htrail.home hstage (homeLast_alone hfit halone hstage) hfit.capacity hjobs h.holds
          h.leaves
      exact ⟨rest.length + 1, hhome.steps (Nat.lt_succ_self _)⟩
    · unfold Activity.wakeUp? at hwake
      rw [hstage] at hwake
      cases hwake
  · have hended : (p.activity.ending? r.stage).isSome = true := by
      rw [hdone]
      rfl
    have hnext := h.next
    unfold Activity.next? at hnext
    rw [if_pos hended] at hnext
    cases hnext

/-! ### What becomes of a command -/

/-- What becomes of a command after its way home was taken. -/
structure Arrives (p : Send) (s : Server) (c₀ : Console) : Prop where
  /-- Whatever happens before and after, the command is done, or will be when it has its next turn,
  or it is stranded. -/
  home : ∀ es r id due r' es' r'' u, Goes p.activity s (p.activity.begin c₀) es r →
    redirects.Holds r.console c₀.dispatchers.length id →
      r.console.page.location.join Route.home = .ok u →
        Happens p.activity s r (.other (.resume ⟨id, due, .goHome⟩)) r' →
          Goes p.activity s r' es' r'' →
            r''.stage = .ended (.ok .done) ∨
              (∃ r₃, p.activity.takeTurn? s r'' = some r₃ ∧ r₃.stage = .ended (.ok .done)) ∨
                Stranded c₀ r''
  /-- A stranded command has no turn, -/
  waits : ∀ es r, Goes p.activity s (p.activity.begin c₀) es r → Stranded c₀ r →
    p.activity.takeTurn? s r = none
  /-- and stays so whatever happens, until the page is left again. -/
  stays : ∀ r m r', Stranded c₀ r → Happens p.activity s r (.other m) r' →
    (∀ i u, r.console.page.feed.sent.length ≤ i →
      r'.console.page.feed.sent[i]? ≠ some (.navigated u)) → Stranded c₀ r'
  /-- In the order of the program, while those who act on the page had all planned it before, the
  command ends at the moment of the way home, and nothing else is done in between. -/
  own : ∀ limit n r r' j, GoesHome p s c₀ limit n r r' j → ∃ k,
    Over (.ok .done) r'.console.now r'.console.page r'.console.calls
      (p.activity.steps s limit k r')

/-- Once the page has gone home a command that is sent is done at its next turn, unless what is
sent to the feed before that pushes out the event that says so. -/
theorem arrives_of_fit (hfit : Fit c₀) (p : Send) (s : Server) : Arrives p s c₀ := by
  constructor
  case home =>
    intro es r id due r' es' r'' u hgoes hold hjoin hhome hafter
    have htrail := (Trail.begin hfit p).goes hgoes
    have htrail' := htrail.step hhome
    exact ((departed_of_home htrail hold hjoin hhome).goes htrail' hafter).cases
      (htrail'.goes hafter) s
  case waits =>
    intro es r hgoes hstranded
    exact hstranded.waits ((Trail.begin hfit p).goes hgoes) s
  case stays => exact fun r m r' hstranded he hnew => hstranded.other he hnew
  case own => exact fun limit n r r' j hhome => hhome.over hfit

/-- A command whose way home is taken at once. -/
def hasty : Send := ⟨"c", "k", 0⟩

/-- The page has gone home, and the command is still to see it. -/
def homebound : Run SendStage :=
  hasty.activity.steps World.entitling 0 4 (hasty.activity.begin (.ofPage World.consolePage))

/-- Before it does, somebody reloads the page so often that the feed does not keep that. -/
def flooded : Run SendStage :=
  { homebound with console := homebound.console.act (List.replicate 64 .reload) }

theorem arrives_of_fit_flooded :
    let start : Console := .ofPage World.consolePage
    (∃ es, Goes hasty.activity World.entitling (hasty.activity.begin start) es flooded) ∧
      flooded.console.page.past = [World.consolePage.location] ∧ Stranded start flooded ∧
      Fit start ∧ Arrives hasty World.entitling start := by
  intro start
  have hfit : Fit start := ⟨⟨Console.tidy_ofPage _, nofun, nofun⟩, rfl, by decide⟩
  obtain ⟨es, hgoes⟩ : ∃ es, Goes hasty.activity World.entitling (hasty.activity.begin start) es
      homebound := goes_steps (keepsTidy hasty World.entitling) 0 4 hfit.plain.tidy
  have hready : homebound.ready = false := by decide +kernel
  have hstage : flooded.stage.leaves? = some start.page.feed.subscribe := by decide +kernel
  have hlook : hasty.look? flooded.console start.page.feed.subscribe = none :=
    Option.isNone_iff_eq_none.1 (by decide +kernel)
  have hleft : flooded.console.page.feed.LeftWithin start.page.feed.subscribe
      flooded.console.page.feed.sent.length :=
    ⟨0, World.consolePage.location, Nat.le_refl _, by decide +kernel, by decide +kernel⟩
  exact ⟨⟨_, hgoes.act hready _⟩, by decide +kernel, ⟨SendStage.eq_of_leaves? hstage,
    (Feed.overwritten_iff hleft).2 (look_eq_none_iff.1 hlook).1⟩, hfit,
    arrives_of_fit hfit hasty World.entitling⟩

end Cli.Send

end ClusterConsole
