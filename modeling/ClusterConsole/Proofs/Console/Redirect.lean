import ClusterConsole.Proofs.Console.Owner

/-! What a move does to the ways home. A move at which a dispatch passes its check puts one
way home on the agenda, in the place of that of the same dispatcher; every other move leaves
all of them as they are, except the one that it does itself. -/

namespace ClusterConsole

/-- The dispatch that comes to its end: its dispatcher, and the answer it goes by. -/
def Move.concludes? : Move → Option (Nat × Except String EntitlementResponse)
  | .answer ⟨.dispatch i _, _, _, result⟩ => some (i, result)
  | .resume ⟨_, _, .conclude i _ result⟩ => some (i, result)
  | _ => none

theorem Move.concludes?_resume {j : Job Task} {i : Nat} {request : CommandRequest}
    {result : Except String EntitlementResponse} (h : j.task = .conclude i request result) :
    (Move.resume j).concludes? = some (i, result) := by
  obtain ⟨id, due, task⟩ := j
  subst h
  rfl

/-- A dispatch of a dispatcher passes its check. -/
def Move.Passes (i : Nat) (m : Move) : Prop :=
  ∃ result, m.concludes? = some (i, result) ∧ Entitled result

/-- The way home with an identifier is taken. -/
def Move.goesHome (id : Nat) : Move → Bool
  | .resume ⟨k, _, .goHome⟩ => k == id
  | _ => false

theorem Move.Passes.unique {m : Move} {i k : Nat} (h : m.Passes i) (h' : m.Passes k) : i = k := by
  obtain ⟨result, hc, -⟩ := h
  obtain ⟨result', hc', -⟩ := h'
  rw [hc, Option.some.injEq, Prod.mk.injEq] at hc'
  exact hc'.1

theorem World.goesHome_iff {m : Move} {id : Nat} :
    m.goesHome id = true ↔ ∃ due, m = .resume ⟨id, due, .goHome⟩ := by
  cases m with
  | resume j =>
    obtain ⟨k, due, task⟩ := j
    cases task with
    | goHome => simp [Move.goesHome]
    | _ => simp [Move.goesHome]
  | _ => simp [Move.goesHome]

theorem Move.Passes.not_goesHome {m : Move} {i id : Nat} (h : m.Passes i) :
    m.goesHome id = false := by
  cases hm : m.goesHome id with
  | false => rfl
  | true =>
    obtain ⟨due, rfl⟩ := World.goesHome_iff.1 hm
    obtain ⟨_, ⟨⟩, _⟩ := h

/-! ### Conclusions -/

namespace Console

variable {c : Console} {i : Nat} {request : CommandRequest}
  {result : Except String EntitlementResponse}

/-- The handles of the dispatchers. -/
def redirects (c : Console) : List (Option Nat) := c.dispatchers.map (·.redirect)

theorem redirects_of_dispatchers {c' : Console} (h : c'.dispatchers = c.dispatchers) :
    c'.redirects = c.redirects := by rw [redirects, h, redirects]

/-- A redirect that is armed is due after the delay of its dispatcher. -/
theorem reset_armRedirect {d : Dispatcher} (hd : c.dispatchers[i]? = some d) :
    Reset c.agenda (c.armRedirect i).agenda c.redirects (c.armRedirect i).redirects .goHome i
      (some ⟨c.agenda.nextId, c.after d.delay, .goHome⟩) := by
  have hredirects : (c.armRedirect i).redirects = c.redirects.set i (some c.agenda.nextId) := by
    rw [armRedirect_of_some hd, redirects, List.map_set]
    rfl
  rw [hredirects, armRedirect_of_some hd]
  exact .schedule (getElem?_redirect hd) _

/-- Without a dispatcher no redirect is armed. -/
theorem conclude_spares (h : Entitled result → c.dispatchers[i]? = none) :
    (c.conclude i request result).2.dispatchers = c.dispatchers ∧
      c.agenda.Keeps (· = .goHome) (c.conclude i request result).2.agenda := by
  by_cases he : Entitled result
  · rw [conclude_of_entitled he, armRedirect_of_none (c := c.schedule 0 (.submit request)) (h he)]
    exact ⟨rfl, Agenda.keeps_schedule _ _ (by simp)⟩
  · refine ⟨?_, .of_eq (conclude_agenda he)⟩
    unfold conclude
    split
    · rfl
    · exact navigate_dispatchers c _
    · next ha => exact absurd (authorized_iff.1 ha) he

theorem perform_spares {s : Server} (task : Task) (h : ∀ i request result,
      task = .conclude i request result → Entitled result → c.dispatchers[i]? = none) :
    (c.perform s task).dispatchers = c.dispatchers ∧
      c.agenda.Keeps (· = .goHome) (c.perform s task).agenda := by
  cases task with
  | goHome => exact ⟨navigate_dispatchers c _, .of_eq (navigate_agenda c _)⟩
  | submit request => exact ⟨submit_dispatchers c request s, keeps_submit (by simp) request⟩
  | dispatch i request => exact ⟨rfl, Agenda.keeps_schedule _ _ (by simp)⟩
  | conclude i request result => exact conclude_spares (h i request result rfl)
  | _ => exact ⟨rfl, .refl _⟩

end Console

/-! ### Moves -/

namespace World

variable {s : Server} {w : World} {m : Move} {i : Nat}

/-- A dispatch that passes its check arms its redirect on a console that differs in nothing that
concerns redirects. -/
theorem passes_elim (ht : w.console.Tidy) (ha : w.Allows m) (hm : m.Passes i) :
    ∃ c : Console, c.now = w.console.now ∧ c.dispatchers = w.console.dispatchers ∧
      w.console.agenda.Keeps (· = .goHome) c.agenda ∧
      (w.move s m).console.dispatchers = (c.armRedirect i).dispatchers ∧
      (w.move s m).console.agenda = (c.armRedirect i).agenda := by
  obtain ⟨result, hc, he⟩ := hm
  match m, hc with
  | .answer ⟨.dispatch _ request, _, _, _⟩, rfl =>
    refine ⟨w.console.schedule 0 (.submit request), rfl, rfl, ?_, ?_⟩
    · exact Agenda.keeps_schedule _ _ (by simp)
    · simp only [move, Purpose.conclude, Console.conclude_of_entitled he]
      exact ⟨trivial, trivial⟩
  | .resume ⟨id, due, .conclude _ request _⟩, rfl =>
    have hkeeps : w.console.agenda.Keeps (· = .goHome) (w.console.cancel (some id)).agenda := by
      refine Console.keeps_cancel fun k hk hid => ?_
      rw [ht.ordered.eq_of_id_eq hk ha.1 (Option.some.inj hid)]
      simp
    refine ⟨(w.console.cancel (some id)).schedule 0 (.submit request), rfl, rfl, ?_, ?_⟩
    · exact hkeeps.trans (Agenda.keeps_schedule _ _ (by simp))
    · simp only [move, Console.resume_of_due ha.2, Console.perform,
        Console.conclude_of_entitled he]
      exact ⟨trivial, trivial⟩

/-- A dispatch that passes its check arms a new way home. -/
theorem reset_of_passes (ht : w.console.Tidy) (ha : w.Allows m) (hm : m.Passes i) {d : Dispatcher}
    (hd : w.console.dispatchers[i]? = some d) :
    ∃ id, Reset w.console.agenda (w.move s m).console.agenda w.console.redirects
      (w.move s m).console.redirects .goHome i (some ⟨id, w.console.after d.delay, .goHome⟩) := by
  obtain ⟨c, hnow, hdispatchers, hkeeps, hdispatchers', hagenda⟩ := passes_elim (s := s) ht ha hm
  have hreset := Console.reset_armRedirect (c := c) (i := i) (d := d) (by rw [hdispatchers, hd])
  have hafter : c.after d.delay = w.console.after d.delay := by simp only [Console.after, hnow]
  rw [← Console.redirects_of_dispatchers hdispatchers', ← hagenda,
    Console.redirects_of_dispatchers hdispatchers, hafter] at hreset
  exact ⟨_, hreset.of_keeps hkeeps⟩

theorem spared_aside (ht : w.console.Tidy) (hm : m.Aside) :
    Spared w.console.agenda (w.move s m).console.agenda w.console.redirects
      (w.move s m).console.redirects .goHome (m.goesHome ·) := by
  have hkeeps : w.console.agenda.Keeps (· = .goHome) (w.move s m).console.agenda :=
    keeps_move ht hm (by simp) (by simp)
  constructor
  case nextId => exact hkeeps.nextId
  case handles =>
    cases m with
    | addDispatcher delay =>
      refine ⟨[none], ?_, by simp⟩
      simp [move, Console.addDispatcher, Console.redirects]
    | resume j => exact hm.elim
    | answer q => exact hm.elim
    | pageLoaded i => exact ⟨[], by simp [move, Console.redirects], by simp⟩
    | toggle i checked => exact ⟨[], by simp [move, Console.redirects], by simp⟩
    | dropController i =>
      exact ⟨[], by simp [move, Console.dropController, Console.redirects], by simp⟩
    | _ => exact ⟨[], (List.append_nil _).symm, by simp⟩
  case jobs =>
    intro j hj
    have hno : m.goesHome j.id = false := by
      cases m with
      | resume j => exact hm.elim
      | _ => rfl
    rw [hkeeps.mem j hj, hno, and_iff_left rfl]

/-- A move at which no dispatch passes its check leaves the ways home alone. -/
theorem spares_of_not_passes (ht : w.console.Tidy) (ha : w.Allows m)
    (hm : ∀ i, m.Passes i → w.console.dispatchers[i]? = none) :
    Spared w.console.agenda (w.move s m).console.agenda w.console.redirects
      (w.move s m).console.redirects .goHome (m.goesHome ·) := by
  cases m with
  | start i request =>
    exact .of_keeps rfl (Agenda.keeps_schedule _ _ (by simp)) fun _ => rfl
  | answer q =>
    obtain ⟨purpose, call, due, result⟩ := q
    cases purpose with
    | dispatch i request =>
      have hno : Entitled result → w.console.dispatchers[i]? = none :=
        fun he => hm i ⟨result, rfl, he⟩
      exact .of_keeps (Console.redirects_of_dispatchers (Console.conclude_spares hno).1)
        (Console.conclude_spares hno).2 fun _ => rfl
    | check => exact .of_keeps rfl (.refl _) fun _ => rfl
    | enforce =>
      have hdispatchers := Console.enforce_dispatchers w.console result
      have hagenda := Console.enforce_agenda w.console result
      exact .of_keeps (Console.redirects_of_dispatchers hdispatchers) (.of_eq hagenda) fun _ => rfl
  | resume k =>
    have hresume : (w.move s (.resume k)).console =
        (w.console.cancel (some k.id)).perform s k.task := Console.resume_of_due ha.2
    obtain ⟨hdispatchers, hkeeps⟩ := Console.perform_spares (c := w.console.cancel (some k.id))
      (s := s) k.task fun i request result hk he => hm i ⟨result, Move.concludes?_resume hk, he⟩
    rw [hresume]
    exact .of_resume goesHome_iff ht ha.1 (Console.redirects_of_dispatchers hdispatchers) hkeeps
  | _ => exact spared_aside ht trivial

end World

/-- The dispatchers own the ways home on the agenda. -/
def redirects : Owners where
  kind := .goHome
  handles := Console.redirects
  resets _ i m := m.Passes i
  does := Move.goesHome
  held ht := ht.redirects
  does_iff := World.goesHome_iff
  not_resets hdone hm := by
    rw [hm.not_goesHome] at hdone
    cases hdone
  resets_unique := Move.Passes.unique
  reset {s w m i} ht ha hm hi := by
    have hlt : i < w.console.dispatchers.length := by simpa [Console.redirects] using hi
    obtain ⟨id, hreset⟩ :=
      World.reset_of_passes (s := s) ht ha hm (List.getElem?_eq_getElem hlt)
    exact ⟨_, hreset⟩
  spared {s w m} ht ha hm := by
    refine World.spares_of_not_passes ht ha fun i hi => List.getElem?_eq_none ?_
    simpa [Console.redirects] using hm i hi

end ClusterConsole
