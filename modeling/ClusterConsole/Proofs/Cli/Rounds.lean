import ClusterConsole.Proofs.Cli.Phases

/-! The rounds of a command that watches a page on which nobody else acts, and that no signal
stops. Every round takes the time of one answer and one interval, so that the moment of each load
is the sum of those before it, and the page is reloaded once between two loads. Without auto-reload
there is one load only. -/

namespace ClusterConsole.Cli.Watch

variable {p : Watch} {s : Server} {u : Url} {limit k : Nat} {r r' : Run WatchStage}

/-! ### Runs -/

/-- The command after some steps, from a page that was opened at `u`. -/
def upTo (p : Watch) (s : Server) (u : Url) (limit n : Nat) : Run WatchStage :=
  p.activity.steps s limit n (p.activity.begin (.ofPage (.at u)))

/-- A round that began in time, wherever the command is in it. -/
structure InRound (p : Watch) (s : Server) (u : Url) (limit k : Nat) (r : Run WatchStage) :
    Prop where
  phase : Loading p s u k r ∨ Waiting p s u k r ∨ Fired p s u k r
  now_le : r.console.now ≤ limit
  begun : p.moment s u waited k ≤ limit

theorem InRound.stands (h : InRound p s u limit k r) : Stands p s u k r :=
  h.phase.elim Loading.toStands fun h => h.elim Waiting.toStands Fired.toStands

theorem InRound.goesOn (h : InRound p s u limit k r) (e : Ending) : r.stage ≠ .ended e := by
  intro he
  rcases h.phase with hloading | hwaiting | hfired
  · obtain ⟨enable, position, -, hstage⟩ := hloading.stage
    rw [he] at hstage
    cases hstage
  · obtain ⟨i, position, hstage⟩ := hwaiting.stage
    rw [he] at hstage
    cases hstage
  · obtain ⟨i, position, hstage, -⟩ := hfired.stage
    rw [he] at hstage
    cases hstage

section On

variable (hp : p.shutdown = none) (hon : (p.enable || u.isOn) = true)

include hp hon

/-- From a round a step leads to the same one or to the next. -/
theorem InRound.next (h : InRound p s u limit k r) (hnext : p.activity.next? s limit r = some r') :
    ∃ k', k ≤ k' ∧ InRound p s u limit k' r' := by
  obtain ⟨hphase, hnow, hbegun⟩ := h
  -- The phase says which step is next, and the limit whether its time comes.
  rcases hphase with hloading | hwaiting | hfired
  · rcases Nat.eq_or_lt_of_le hloading.now_le with hdue | hlt
    · obtain ⟨r₁, hopened, hwaiting⟩ := hloading.opened hp hon hdue limit
      obtain rfl : r₁ = r' := Option.some.inj (hopened.symm.trans hnext)
      exact ⟨k, Nat.le_refl k, .inr (.inl hwaiting), by rwa [hwaiting.now, ← hdue], hbegun⟩
    · rcases Nat.lt_or_ge limit (p.due s u waited k) with hlate | hlimit
      · rw [hloading.stuck hnow hlate] at hnext
        cases hnext
      · obtain ⟨r₁, hwoken, hloading', hdue, -⟩ := hloading.wake hlt hlimit
        obtain rfl : r₁ = r' := Option.some.inj (hwoken.symm.trans hnext)
        exact ⟨k, Nat.le_refl k, .inl hloading', by rwa [hdue], hbegun⟩
  · rcases Nat.lt_or_ge limit (p.moment s u waited (k + 1)) with hlate | hlimit
    · rw [hwaiting.stuck hnow hlate] at hnext
      cases hnext
    · obtain ⟨r₁, hreloaded, hfired⟩ := hwaiting.fired hlimit
      obtain rfl : r₁ = r' := Option.some.inj (hreloaded.symm.trans hnext)
      exact ⟨k, Nat.le_refl k, .inr (.inr hfired), by rwa [hfired.now], hbegun⟩
  · obtain ⟨r₁, hseen, hloading, hmoment⟩ := hfired.next limit
    obtain rfl : r₁ = r' := Option.some.inj (hseen.symm.trans hnext)
    have hlimit : p.moment s u waited (k + 1) ≤ limit := hfired.now ▸ hnow
    exact ⟨k + 1, Nat.le_succ k, .inl hloading, by rwa [hmoment], hlimit⟩

theorem InRound.steps (h : InRound p s u limit k r) (n : Nat) :
    ∃ k', k ≤ k' ∧ InRound p s u limit k' (p.activity.steps s limit n r) := by
  induction n generalizing k r with
  | zero => exact ⟨k, Nat.le_refl k, h⟩
  | succ n ih =>
    cases hnext : p.activity.next? s limit r with
    | none =>
      rw [Activity.steps_of_stuck hnext]
      exact ⟨k, Nat.le_refl k, h⟩
    | some r' =>
      obtain ⟨k₁, hk₁, h₁⟩ := h.next hp hon hnext
      obtain ⟨k₂, hk₂, h₂⟩ := ih h₁
      rw [Activity.steps_of_next hnext]
      exact ⟨k₂, hk₁.trans hk₂, h₂⟩

/-- A round takes four steps at most. -/
theorem Loading.round (h : Loading p s u k r) (hlimit : p.moment s u waited (k + 1) ≤ limit) :
    ∃ m, m ≤ 4 ∧ let r' := p.activity.steps s limit m r
      Loading p s u (k + 1) r' ∧ r'.console.now = p.moment s u waited (k + 1) := by
  obtain ⟨m, hm, hloading, hdue⟩ : ∃ m, m ≤ 1 ∧ Loading p s u k (p.activity.steps s limit m r) ∧
      (p.activity.steps s limit m r).console.now = p.due s u waited k := by
    rcases Nat.eq_or_lt_of_le h.now_le with hdue | hlt
    · exact ⟨0, Nat.zero_le 1, h, hdue⟩
    · obtain ⟨r₁, hnext, hloading, hdue, -⟩ := h.wake hlt (due_le_moment.trans hlimit)
      refine ⟨1, Nat.le_refl 1, ?_⟩
      rw [Activity.steps_one hnext]
      exact ⟨hloading, hdue⟩
  obtain ⟨r₂, hopened, hwaiting⟩ := hloading.opened hp hon hdue limit
  obtain ⟨r₃, hreloaded, hfired⟩ := hwaiting.fired hlimit
  obtain ⟨r₄, hseen, hnext⟩ := hfired.next limit
  refine ⟨m + 3, by omega, ?_⟩
  rw [Activity.steps_add, Activity.steps_of_next hopened, Activity.steps_of_next hreloaded,
    Activity.steps_one hseen]
  exact hnext

/-- Every load that is to begin up to the limit does. -/
theorem exists_loading (limit k : Nat) (hlimit : p.moment s u waited k ≤ limit) :
    ∃ m, m ≤ 4 * k + 1 ∧ Loading p s u k (p.upTo s u limit m) ∧
      (p.upTo s u limit m).console.now = p.moment s u waited k := by
  induction k with
  | zero =>
    obtain ⟨r, hnext, hloading, hnow, -⟩ := exists_first p s u limit
    refine ⟨1, Nat.le_refl 1, ?_⟩
    rw [upTo, Activity.steps_one hnext]
    exact ⟨hloading, hnow⟩
  | succ k ih =>
    obtain ⟨m, hm, hloading, -⟩ := ih (moment_le_due.trans (due_le_moment.trans hlimit))
    obtain ⟨m', hm', hround⟩ := hloading.round hp hon hlimit
    refine ⟨m + m', by omega, ?_⟩
    rw [upTo, Activity.steps_add]
    exact hround

theorem exists_inRound (s : Server) (limit n : Nat) :
    ∃ k, InRound p s u limit k (p.upTo s u limit (n + 1)) := by
  obtain ⟨r, hnext, hloading, hnow, -⟩ := exists_first p s u limit
  have hzero : p.moment s u waited 0 = 0 := rfl
  have hround : InRound p s u limit 0 r :=
    ⟨.inl hloading, by rw [hnow, hzero]; exact Nat.zero_le _, Nat.zero_le _⟩
  obtain ⟨k, -, hk⟩ := hround.steps hp hon n
  refine ⟨k, ?_⟩
  rw [upTo, Activity.steps_of_next hnext]
  exact hk

end On

/-- A command that is to end waits for the view, or has ended when that was there. -/
theorem upTo_of_off (hon : (p.enable || u.isOn) = false) (limit n : Nat) (hn : 3 ≤ n) :
    limit < p.due s u waited 0 ∧ Loading p s u 0 (p.upTo s u limit n) ∧
        (p.upTo s u limit n).console.page = .at u ∨
      p.due s u waited 0 ≤ limit ∧ Done p s u (p.upTo s u limit n) := by
  obtain ⟨m, rfl⟩ : ∃ m, n = m + 3 := ⟨n - 3, by omega⟩
  obtain ⟨r, hnext, hloading, hnow, hpage⟩ := exists_first p s u limit
  have hzero : r.console.now = 0 := hnow
  rw [upTo, Activity.steps_of_next hnext]
  have hended {r' : Run WatchStage} (h : Done p s u r') (n : Nat) :
      p.activity.steps s limit n r' = r' :=
    steps_of_ended (by rw [h.stage]; rfl)
  rcases Nat.lt_or_ge limit (p.due s u waited 0) with hlate | hlimit
  · -- The first step asks for the view, and then nothing happens any more.
    rw [Activity.steps_of_stuck (hloading.stuck (by omega) hlate)]
    exact .inl ⟨hlate, hloading, hpage⟩
  · refine .inr ⟨hlimit, ?_⟩
    rcases Nat.eq_or_lt_of_le hloading.now_le with hdue | hlt
    · obtain ⟨r₁, hopened, hdone⟩ := hloading.done hpage hon hdue limit
      rw [Activity.steps_of_next hopened, hended hdone]
      exact hdone
    · obtain ⟨r₁, hwoken, hloading₁, hdue, hsame⟩ := hloading.wake hlt hlimit
      obtain ⟨r₂, hopened, hdone⟩ :=
        hloading₁.done (hsame.trans hpage) hon hdue limit
      rw [Activity.steps_of_next hwoken, Activity.steps_of_next hopened, hended hdone]
      exact hdone

/-! ### The law -/

/-- What a command that no signal stops does on a page that was opened at `u`, if a wait for some
time takes as long as `wait` says. -/
structure Rounds (p : Watch) (s : Server) (u : Url) (wait : Nat → Nat) : Prop where
  /-- The moment of a load is the sum of the answers and intervals before it. -/
  moments : ∀ k, p.moment s u wait k =
    ((List.range k).map fun i => wait (p.answer s u wait i).delay + wait p.interval).foldl
      (· + ·) 0
  /-- The calls are the loads in their order, each at its moment and of its place. -/
  listed : ∀ k, p.calls s u wait k =
    (List.range k).map fun i => ⟨p.moment s u wait i, .view (place u i).text⟩
  /-- With the fragment, or asked for it, the command never ends. It adds nothing to the history
  and makes no other calls. -/
  goesOn : u.isOn = true ∨ p.enable = true → ∀ limit n, let r := p.upTo s u limit n
    (∀ e, r.stage ≠ .ended e) ∧ r.console.page.history.length = 1 ∧
      ∃ k, r.console.calls = p.calls s u wait k ∧ ∀ i < k, p.moment s u wait i ≤ limit
  /-- Each load begins at its moment, with as many reloads before it as loads, and is not taken
  back. -/
  begins : u.isOn = true ∨ p.enable = true → ∀ limit k, p.moment s u wait k ≤ limit →
    ∃ m, m ≤ 4 * k + 1 ∧ let r := p.upTo s u limit m
      r.console.now = p.moment s u wait k ∧ r.console.calls = p.calls s u wait (k + 1) ∧
        r.console.page.reloads = k ∧ r.console.page.location = place u k ∧
          ∀ n, m ≤ n → r.console.calls <+: (p.upTo s u limit n).console.calls
  /-- Otherwise there is only the first load. When its answer is there the command ends, with the
  page as it was and no timer. -/
  stops : ¬ (u.isOn = true ∨ p.enable = true) → ∀ limit n, 3 ≤ n → let r := p.upTo s u limit n
    r.console.calls = [⟨0, .view u.text⟩] ∧ r.console.page = .at u ∧ r.console.agenda.jobs = [] ∧
      (limit < wait (s.view [] u.text).delay → ∀ e, r.stage ≠ .ended e) ∧
      (wait (s.view [] u.text).delay ≤ limit →
        r.stage = .ended (.ok .done) ∧ r.console.now = wait (s.view [] u.text).delay)
  /-- The program takes as many steps as the loads up to its limit need, unless the interval is
  nothing at all. -/
  own : ∀ duration, ∃ n, 3 ≤ n ∧ p.activity.run s duration (.ofPage (.at u)) =
      p.activity.finish ((Console.ofPage (.at u)).after duration)
        (p.upTo s u ((Console.ofPage (.at u)).after duration) n) ∧
    (0 < wait p.interval →
      ∀ k, p.moment s u wait k ≤ (Console.ofPage (.at u)).after duration → 4 * k + 1 ≤ n)

/-- No wait takes longer than the longest. -/
theorem rounds_of_unsignalled (hp : p.shutdown = none) (s : Server) (u : Url) :
    Rounds p s u (min · Console.longestWait) := by
  have hon_iff : (p.enable || u.isOn) = true ↔ u.isOn = true ∨ p.enable = true := by
    rw [Bool.or_eq_true, or_comm]
  show Rounds p s u waited
  constructor
  case moments => exact moment_eq_sum
  case listed => exact calls_eq_map
  case goesOn =>
    intro hon limit n r
    cases n with
    | zero => exact ⟨nofun, rfl, 0, rfl, nofun⟩
    | succ n =>
      obtain ⟨k, hround⟩ := exists_inRound hp (hon_iff.2 hon) s limit n
      have hstands := hround.stands
      refine ⟨hround.goesOn, ?_, k + 1, hstands.calls, fun i hi => ?_⟩
      · rw [Page.history, hstands.past]
        rfl
      · exact (moment_mono (Nat.le_of_lt_succ hi)).trans hround.begun
  case begins =>
    intro hon limit k hlimit
    obtain ⟨m, hm, hloading, hnow⟩ := exists_loading hp (hon_iff.2 hon) limit k hlimit
    refine ⟨m, hm, hnow, hloading.calls, hloading.reloads, hloading.location, fun n hn => ?_⟩
    have hround : InRound p s u limit k (p.upTo s u limit m) :=
      ⟨.inl hloading, hnow ▸ hlimit, hlimit⟩
    obtain ⟨k', hk', hlater⟩ := hround.steps hp (hon_iff.2 hon) (n - m)
    have hsteps : p.upTo s u limit n =
        p.activity.steps s limit (n - m) (p.upTo s u limit m) := by
      rw [upTo, upTo, ← Activity.steps_add, Nat.add_sub_cancel' hn]
    rw [hsteps, hloading.calls, hlater.stands.calls]
    exact calls_prefix (Nat.succ_le_succ hk')
  case stops =>
    intro hoff limit n hn r
    have hdue : p.due s u waited 0 = waited (s.view [] u.text).delay := Nat.zero_add _
    rw [← hdue]
    rcases upTo_of_off (eq_false_of_ne_true fun hon => hoff (hon_iff.1 hon)) limit n hn with
      ⟨hlate, hloading, hpage⟩ | ⟨hlimit, hdone⟩
    · refine ⟨hloading.calls, hpage, hloading.jobs, fun _ e he => ?_, fun hle => by omega⟩
      obtain ⟨enable, position, -, hstage⟩ := hloading.stage
      rw [he] at hstage
      cases hstage
    · refine ⟨hdone.calls, hdone.page, hdone.jobs, fun hlt => by omega, fun _ => ?_⟩
      exact ⟨hdone.stage, hdone.now⟩
  case own =>
    intro duration
    refine ⟨_, ?_, rfl, fun hpos k hk => ?_⟩
    · unfold Activity.enough
      omega
    · have hle := (le_moment (s := s) (u := u) hpos k).trans hk
      unfold Activity.enough
      omega

/-- A command that reloads a page every second, on which auto-reload is on. -/
theorem rounds_of_unsignalled_second :
    let p : Watch := { interval := 1000, enable := true }
    let u := World.consolePage.location
    p.shutdown = none ∧
      (p.upTo World.entitling u 2000 9).console.calls =
        [⟨0, .view "http://console.test/"⟩, ⟨1000, .view "http://console.test/#autoreload"⟩,
          ⟨2000, .view "http://console.test/#autoreload"⟩] ∧
      Rounds p World.entitling u (min · Console.longestWait) := by
  intro p u
  exact ⟨rfl, by decide +kernel, rounds_of_unsignalled rfl World.entitling u⟩

/-- A page whose timer would run for three hundred million years is reloaded after thirty. -/
theorem not_rounds_delay : ¬ ∀ (p : Watch) (s : Server) (u : Url), u.IsWeb → p.shutdown = none →
    Rounds p s u fun delay => delay := by
  intro h
  let p : Watch := { interval := 9223372036854775808, enable := true }
  let u := World.consolePage.location
  have hrounds := h p World.entitling u (.inl rfl) rfl
  obtain ⟨-, -, k, hcalls, hk⟩ := hrounds.goesOn (.inr rfl) Console.longestWait 5
  have htwo : (p.upTo World.entitling u Console.longestWait 5).console.calls.length = 2 := by
    decide +kernel
  have hlength : k = 2 := by
    rw [hcalls, hrounds.listed, List.length_map, List.length_range] at htwo
    exact htwo
  have hlate : ¬ p.moment World.entitling u (fun delay => delay) 1 ≤ Console.longestWait := by
    decide +kernel
  exact hlate (hk 1 (by omega))

end ClusterConsole.Cli.Watch
