import ClusterConsole.Proofs.Console.Homecoming
import ClusterConsole.Proofs.Console.Location

/-! After a denial. The page is sent to the place for those who are not entitled, but a way
home that waits on the agenda stays there: it takes the page away again at its time, unless a
later dispatch of the same dispatcher passes its check before. Only without such a way home
the page stays where it was sent, as long as nobody else moves it. -/

namespace ClusterConsole

/-- A dispatch of a dispatcher comes back denied. -/
def Move.Refuses (i : Nat) (m : Move) : Prop :=
  ∃ r, m.concludes? = some (i, .ok r) ∧ r.isEntitled = false

theorem Move.Refuses.not_passes {m : Move} {i k : Nat} (h : m.Refuses i) : ¬ m.Passes k := by
  rintro ⟨_, hc', r', rfl, hr'⟩
  obtain ⟨r, hc, hr⟩ := h
  rw [hc] at hc'
  obtain ⟨-, rfl⟩ : i = k ∧ r = r' := by simpa using hc'
  rw [hr] at hr'
  cases hr'

/-- Where a page is sent that is not entitled. -/
def Url.unauthorized (u : Url) : Url := u.pageNamed "unauthorized".toList

namespace World

variable {s : Server} {w : World} {m : Move} {i id : Nat} {ms p rest : List Move}

/-! ### Where the page goes -/

/-- Somebody else than a dispatcher may move the page. -/
def Outside (w : World) (i : Nat) : Move → Prop
  | .act _ => True
  | .toggle _ _ => True
  | .resume ⟨_, _, .act _⟩ => True
  | .resume ⟨id, _, .goHome⟩ => ¬ w.Holds i id
  | _ => False

/-- Nobody else than the dispatcher moves the page. -/
def Alone (s : Server) (i : Nat) : World → List Move → Prop
  | _, [] => True
  | w, m :: ms => ¬ w.Outside i m ∧ Alone s i (w.move s m) ms

theorem page_of_refuses (ha : w.Allows m) (hm : m.Refuses i) :
    (w.move s m).console.page = w.console.page.navigate Route.unauthorized := by
  obtain ⟨r, hc, hr⟩ := hm
  cases m with
  | answer q =>
    obtain ⟨purpose, call, due, result⟩ := q
    cases purpose with
    | dispatch k request =>
      cases hc
      exact Console.conclude_denied_page w.console i request hr
    | check => cases hc
    | enforce => cases hc
  | resume j =>
    obtain ⟨id, due, task⟩ := j
    cases task with
    | conclude k request result =>
      cases hc
      simp only [move, Console.resume_of_due ha.2, Console.perform]
      rw [Console.conclude_denied_page _ i request hr, Console.cancel_page]
    | _ => cases hc
  | _ => cases hc

/-- Besides others and the ways home, only denials move a page. -/
theorem location_move (ha : w.Allows m) (hout : ¬ w.Outside i m)
    (hhome : ∀ id, m.goesHome id = false) :
    (w.move s m).console.page.location = w.console.page.location ∨
      (w.move s m).console.page = w.console.page.navigate Route.unauthorized := by
  have conclude : ∀ (c : Console) k request result, c.page = w.console.page →
      (c.conclude k request result).2.page.location = w.console.page.location ∨
        (c.conclude k request result).2.page = w.console.page.navigate Route.unauthorized := by
    intro c k request result hc
    rw [← hc]
    exact (Console.conclude_page c k request result).imp_left (congrArg Page.location)
  cases m with
  | act actions => exact absurd trivial hout
  | toggle k checked => exact absurd trivial hout
  | answer q =>
    obtain ⟨purpose, call, due, result⟩ := q
    cases purpose with
    | dispatch k request => exact conclude w.console k request result rfl
    | check => exact .inl rfl
    | enforce => exact (Console.enforce_page _ result).imp_left (congrArg Page.location)
  | resume j =>
    obtain ⟨k, due, task⟩ := j
    simp only [move, Console.resume_of_due ha.2]
    cases task with
    | goHome => exact absurd (hhome k) (by simp [Move.goesHome])
    | act actions => exact absurd trivial hout
    | submit request =>
      rw [Console.perform, Console.submit_page, Console.cancel_page]
      exact .inl rfl
    | conclude k request result => exact conclude _ k request result rfl
    | _ => exact .inl rfl
  | pageLoaded k =>
    have hpage := Console.pageLoaded_page w.console k
    refine .inl ?_
    rw [show (w.move s (.pageLoaded k)).console.page = _ from hpage]
    split
    · rfl
    · rfl
  | dropController k => exact .inl (by simp [move, Console.dropController])
  | _ => exact .inl rfl

/-- Where a web address leads that is not entitled, it leads again. -/
theorem navigate_unauthorized {page : Page} {u : Url} (hfile : isFileScheme u.scheme = false)
    (h : page.location = u.unauthorized) :
    (page.navigate Route.unauthorized).location = u.unauthorized ∧
      (page.navigate Route.home).location = u.pageNamed [] := by
  have hpath' : page.location.path = .rooted ["unauthorized".toList] := by rw [h]; rfl
  have hfile' : isFileScheme page.location.scheme = false := by rw [h]; exact hfile
  refine ⟨?_, ?_⟩
  · rw [(Page.navigate_of_join (Url.join_unauthorized hpath' hfile')).1, h]
    rfl
  · rw [(Page.navigate_of_join (Url.join_home hpath' hfile')).1, h]
    rfl

/-! ### Until the next dispatch passes its check -/

/-- A redirect that is taken stops to be pending. -/
theorem not_pending_of_goesHome (ht : w.console.Tidy) (hold : w.Holds i id)
    (hhome : m.goesHome id = true) (hm : ¬ m.Passes i) (hl : Lawful s w (m :: p))
    (hp : ∀ m' ∈ p, ¬ m'.Passes i) : ¬ (w.run s (m :: p)).Pending i := by
  have ht' : (w.move s m).console.Tidy := tidy_move ht hl.1
  have hold' : ((w.move s m).run s p).Holds i id := (hold.move ht hl.1 hm).stays ht' hl.2 hp
  have hgone := (gone_of_goesHome ht hl.1 hhome).run ht' hl.2
  exact fun hpending => (hold'.pending_iff_not_gone (tidy_run ht' hl.2)).1 hpending hgone

theorem pending_of_move (ht : w.console.Tidy) (ha : w.Allows m) (hm : ¬ m.Passes i)
    (h : (w.move s m).Pending i) : w.Pending i := by
  have ht' : (w.move s m).console.Tidy := tidy_move ht ha
  obtain ⟨id, -, hold', -⟩ := h.holds ht'
  have hold := hold'.of_move ht ha hm
  refine (hold.pending_iff_not_gone ht).2 fun hgone => ?_
  exact (hold'.pending_iff_not_gone ht').1 h (hgone.move ht ha)

/-- A way home that is taken was pending until then, with no other armed in its place. -/
theorem exists_taken (ht : w.console.Tidy) (hl : Lawful s w ms) (hold : w.Holds i id)
    (h : homes s id w ms ≠ []) :
    ∃ p rest, ms = p ++ rest ∧ (∀ m ∈ p, ¬ m.Passes i) ∧ w.Pending i ∧
      ¬ (w.run s p).Pending i := by
  induction ms generalizing w with
  | nil => exact absurd rfl h
  | cons m ms ih =>
    have ht' : (w.move s m).console.Tidy := tidy_move ht hl.1
    by_cases hm : m.Passes i
    · refine absurd ?_ h
      rw [homes, if_neg (by simp [hm.not_goesHome])]
      exact homes_of_gone (hold.gone ht hl.1 hm) ht' hl.2
    cases hhome : m.goesHome id with
    | true =>
      obtain ⟨due, rfl⟩ := goesHome_iff.1 hhome
      refine ⟨[_], ms, rfl, by simpa using hm, hold.pending_iff.2 ⟨_, hl.1.1, rfl⟩, ?_⟩
      exact not_pending_of_goesHome ht hold hhome hm ⟨hl.1, trivial⟩ (by simp)
    | false =>
      rw [homes, if_neg (by simp [hhome])] at h
      obtain ⟨p, rest, rfl, hp, hpending, hnot⟩ := ih ht' hl.2 (hold.move ht hl.1 hm) h
      refine ⟨m :: p, rest, rfl, ?_, pending_of_move ht hl.1 hm hpending, hnot⟩
      exact fun x hx => (List.mem_cons.1 hx).elim (fun he => he ▸ hm) (hp x)

/-- The page stays where a denial sent it as long as nobody else moves it and a redirect that
is pending stays so. -/
theorem location_stays {u : Url} (hfile : isFileScheme u.scheme = false)
    (ht : w.console.Tidy) (hl : Lawful s w p) (hp : ∀ m ∈ p, ¬ m.Passes i) (halone : Alone s i w p)
    (hpending : w.Pending i → (w.run s p).Pending i)
    (h : w.console.page.location = u.unauthorized) :
    (w.run s p).console.page.location = u.unauthorized := by
  induction p generalizing w with
  | nil => exact h
  | cons m p ih =>
    have hm := hp m List.mem_cons_self
    have hrest := fun x hx => hp x (List.mem_cons_of_mem m hx)
    have hhome : ∀ id, m.goesHome id = false := by
      intro id
      cases hhome : m.goesHome id with
      | false => rfl
      | true =>
        obtain ⟨due, rfl⟩ := goesHome_iff.1 hhome
        have hold : w.Holds i id := not_not.1 halone.1
        refine absurd (hpending (hold.pending_iff.2 ⟨_, hl.1.1, rfl⟩)) ?_
        exact not_pending_of_goesHome ht hold hhome hm hl hrest
    refine ih (tidy_move ht hl.1) hl.2 hrest halone.2
      (fun h' => hpending (pending_of_move ht hl.1 hm h')) ?_
    rcases location_move hl.1 halone.1 hhome with hloc | hpage
    · rw [hloc, h]
    · rw [hpage, (navigate_unauthorized hfile h).1]

/-! ### Runs with a denial -/

/-- What comes of a run `pre` in which a dispatch of `i` is then denied by the move `m`, when
it goes on with `post`. -/
structure AfterDenial (s : Server) (start : World) (pre : List Move) (m : Move)
    (post : List Move) (i : Nat) : Prop where
  /-- The page is sent away, with a new entry of its history. -/
  sent : let w := start.run s pre
    (w.move s m).console.page.location = w.console.page.location.unauthorized ∧
      (w.move s m).console.page.past = w.console.page.past ++ [w.console.page.location]
  /-- A way home armed before is taken afterwards exactly if a redirect is pending at the denial
  and stops to be pending before another dispatch passes its check. -/
  taken_iff : let denied := (start.run s pre).move s m
    (∃ id, Armed s start pre i id ∧ homes s id denied post ≠ []) ↔
      ∃ p rest, post = p ++ rest ∧ (∀ m' ∈ p, ¬ m'.Passes i) ∧ denied.Pending i ∧
        ¬ (denied.run s p).Pending i
  /-- Until then the page stays where it was sent, as long as nobody else moves it. -/
  stays : let w := start.run s pre
    let denied := w.move s m
    ∀ p rest, post = p ++ rest → (∀ m' ∈ p, ¬ m'.Passes i) → Alone s i denied p →
      (denied.Pending i → (denied.run s p).Pending i) →
      (denied.run s p).console.page.location = w.console.page.location.unauthorized
  /-- A way home that is taken leads from there to the home page. -/
  leaves : let w := start.run s pre
    let denied := w.move s m
    ∀ p m' rest id, post = p ++ m' :: rest → (∀ m'' ∈ p, ¬ m''.Passes i) → Alone s i denied p →
      Armed s start pre i id → m'.goesHome id = true →
      (denied.run s (p ++ [m'])).console.page.location = w.console.page.location.pageNamed []

/-- A denial does not touch the redirect of its dispatcher: the page is kept from going home
afterwards only where none is pending, or by the next dispatch that passes its check. -/
theorem afterDenial_run {url : String} {page : Page} (hopen : Page.open url = .ok page)
    {pre post : List Move} (hl : Lawful s (ofPage page) (pre ++ m :: post)) (hm : m.Refuses i)
    (hweb : ((ofPage page).run s pre).console.page.location.IsWeb) :
    AfterDenial s (ofPage page) pre m post i := by
  obtain ⟨hpre, ha, hpost⟩ := lawful_append.1 hl
  have ht := tidy_ofPage hpre
  have ht' := tidy_move (s := s) ht ha
  have hstart : (ofPage page).console.Tidy := Console.tidy_ofPage page
  obtain ⟨hspecial, hfile⟩ := hweb.special
  have hrooted : ((ofPage page).run s pre).console.page.location.Rooted :=
    rooted_run (Page.rooted_open hopen)
  obtain ⟨segments, hpath⟩ := hrooted hspecial
  obtain ⟨hlocation, hpast⟩ := Page.navigate_of_join (Url.join_unauthorized hpath hfile)
  rw [← page_of_refuses ha hm] at hlocation hpast
  constructor
  case sent => exact ⟨hlocation, hpast⟩
  case taken_iff =>
    constructor
    · rintro ⟨id, harmed, hne⟩
      rcases harmed.holds hstart hpre with hold | hgone
      · exact exists_taken ht' hpost (hold.move ht ha hm.not_passes) hne
      · exact absurd (homes_of_gone (hgone.move ht ha) ht' hpost) hne
    · rintro ⟨p, rest, rfl, hp, hpending, hnot⟩
      obtain ⟨id, due, hold', hj'⟩ := hpending.holds ht'
      have hspares := spares_of_not_passes (s := s) ht ha fun k hk => absurd hk hm.not_passes
      have hj := ((hspares.jobs ⟨id, due, .goHome⟩ rfl).1 hj').1
      obtain ⟨k, harmed⟩ := exists_armed hpre hj rfl
      obtain rfl : i = k := (hold'.of_move ht ha hm.not_passes).owner ht
        (harmed.holds_of_mem hstart hpre hj rfl rfl)
      have hlp := (lawful_append.1 hpost).1
      refine ⟨id, harmed, ?_⟩
      obtain ⟨hold, ⟨-, hmem⟩ | ⟨hhomes, -⟩⟩ := homes_of_holds hold' ht' hj' hlp hp
      · exact absurd (hold.pending_iff.2 ⟨_, hmem, rfl⟩) hnot
      · rw [homes_append, hhomes]
        exact List.cons_ne_nil _ _
  case stays =>
    rintro w denied p rest rfl hp halone hpending
    exact location_stays hfile ht' (lawful_append.1 hpost).1 hp halone hpending hlocation
  case leaves =>
    rintro w denied p m' rest id rfl hp halone harmed hhome
    obtain ⟨hlp, ha', -⟩ := lawful_append.1 hpost
    obtain ⟨due, rfl⟩ := goesHome_iff.1 hhome
    have hold : denied.Holds i id := by
      refine (harmed.holds hstart hpre).elim (fun h => h.move ht ha hm.not_passes) fun hgone => ?_
      exact absurd rfl (((hgone.move ht ha).run ht' hlp).2 _ ha'.1 rfl)
    have hpending : (denied.run s p).Pending i :=
      (hold.stays ht' hlp hp).pending_iff.2 ⟨_, ha'.1, rfl⟩
    have hstays := location_stays hfile ht' hlp hp halone (fun _ => hpending) hlocation
    rw [run_append, run_cons, run_nil, move, Console.resume_of_due ha'.2]
    exact (navigate_unauthorized hfile hstays).2

/-- Only the first check is entitled. -/
def revoking : Server where
  entitlement calls := { result := .ok (if calls.isEmpty then .entitled else .notEntitled) }
  submission _ _ := none
  view _ _ := { result := .error "" }

/-- A command that is sent, and another one begun before its way home. -/
def hasty : List Move :=
  [.addDispatcher 2, .ask (.dispatch 0 default), .answer ⟨.dispatch 0 default, 0, 0, .ok .entitled⟩,
    .resume ⟨0, 0, .submit default⟩, .wait 1, .ask (.dispatch 0 default)]

def consolePage : Page :=
  .at { scheme := "http".toList, authority := some { host := .name "console.test".toList },
        path := .rooted [[]] }

theorem open_consolePage : Page.open "http://console.test/" = .ok consolePage :=
  Page.open_of_parse (by decide +kernel)

theorem afterDenial_run_hasty :
    let denial : Move := .answer ⟨.dispatch 0 default, 2, 1, .ok .notEntitled⟩
    let way : List Move := [.wait 2, .resume ⟨1, 2, .goHome⟩]
    Lawful revoking (ofPage consolePage) (hasty ++ denial :: way) ∧
      homes revoking 1 (((ofPage consolePage).run revoking hasty).move revoking denial) way = [2] ∧
      AfterDenial revoking (ofPage consolePage) hasty denial way 0 := by
  intro denial way
  have hl : Lawful revoking (ofPage consolePage) (hasty ++ denial :: way) := by
    refine ⟨trivial, trivial, ⟨.head _, Nat.le_refl _⟩, ⟨.head _, Nat.le_refl _⟩,
      ⟨Nat.zero_le _, ?_⟩, trivial, ⟨.head _, Nat.le_refl _⟩, ⟨?_, ?_⟩,
      ⟨.head _, Nat.le_refl _⟩, trivial⟩
    · intro j hj
      obtain rfl : j = ⟨1, 2, .goHome⟩ := List.mem_singleton.1 hj
      exact show 1 ≤ 2 by decide
    · exact show 1 ≤ 2 by decide
    · intro j hj
      obtain rfl : j = ⟨1, 2, .goHome⟩ := List.mem_singleton.1 hj
      exact Nat.le_refl _
  exact ⟨hl, rfl, afterDenial_run open_consolePage hl ⟨.notEntitled, rfl, by decide⟩ (.inl rfl)⟩

end World

end ClusterConsole
