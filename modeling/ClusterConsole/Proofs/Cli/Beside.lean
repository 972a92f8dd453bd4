import ClusterConsole.Cli.Activity
import ClusterConsole.Proofs.Session.World

/-! A command beside others. The clock goes on, jobs are done in any order in which they may
be, and anybody may act on the page at any moment. Once it has its turn the command goes on
until it has to wait; whether it or somebody else comes next after that is left open. The
order in which the program does these things is one of many. -/

namespace ClusterConsole

/-- What may happen beside a command: time passes, a job is done, somebody acts on the page. -/
def Move.Outside : Move → Prop
  | .wait _ | .resume _ | .act _ | .plan _ _ => True
  | _ => False

theorem World.move_of_outside {s : Server} {c : Console} {m : Move} (h : m.Outside) :
    World.move s ⟨c, []⟩ m = ⟨(World.move s ⟨c, []⟩ m).console, []⟩ := by
  match m, h with
  | .wait _, _ | .resume _, _ | .act _, _ | .plan _ _, _ => rfl

namespace Cli

inductive Event where
  /-- The command has its turn. -/
  | turn
  | other (move : Move)

variable {σ : Type}

/-- Nobody comes between while the command, once it has its turn, need not wait. It is called
before all others only if it waits for a moment. -/
inductive Happens (a : Activity σ) (s : Server) (r : Run σ) : Event → Run σ → Prop
  | turn {r' : Run σ} (h : a.takeTurn? s r = some r') : Happens a s r .turn r'
  | other {m : Move} (ready : Bool) (hready : ready = true → (a.wake? r.stage).isSome = true)
      (hwaits : r.ready = true → a.takeTurn? s r = none) (hm : m.Outside)
      (ha : World.Allows ⟨r.console, []⟩ m) :
      Happens a s r (.other m)
        { r with console := (World.move s ⟨r.console, []⟩ m).console, ready }

/-- From a start the events lead to a run. -/
inductive Goes (a : Activity σ) (s : Server) (start : Run σ) : List Event → Run σ → Prop
  | nil : Goes a s start [] start
  | snoc {es : List Event} {e : Event} {r r' : Run σ} (h : Goes a s start es r)
      (he : Happens a s r e r') : Goes a s start (es ++ [e]) r'

variable {a : Activity σ} {s : Server} {start r r' : Run σ} {es es' : List Event}

theorem Goes.append (h : Goes a s start es r) (h' : Goes a s r es' r') :
    Goes a s start (es ++ es') r' := by
  induction h' with
  | nil => rwa [List.append_nil]
  | snoc _ he ih =>
    rw [← List.append_assoc]
    exact ih.snoc he

theorem Goes.single {e : Event} (he : Happens a s start e r) : Goes a s start [e] r :=
  Goes.nil.snoc he

/-- Anybody may act on the page while the command is to be called. -/
theorem Goes.act (h : Goes a s start es r) (hready : r.ready = false) (actions : List PageAction) :
    Goes a s start (es ++ [.other (.act actions)])
      { r with console := r.console.act actions } := by
  obtain ⟨console, stage, lines, ready⟩ := r
  subst hready
  exact h.snoc (.other false nofun nofun trivial trivial)

/-! ### Nobody beside it -/

/-- An event of the command itself, the clock or the agenda. -/
def Event.Own : Event → Prop
  | .turn | .other (.wait _) | .other (.resume _) => True
  | _ => False

/-- A run leads to another one while nobody acts on the page. What others had planned before is
done. -/
def Alone (a : Activity σ) (s : Server) (start r : Run σ) : Prop :=
  ∃ es, Goes a s start es r ∧ ∀ e ∈ es, e.Own

theorem Alone.refl (r : Run σ) : Alone a s r r := ⟨[], .nil, nofun⟩

theorem Alone.trans (h : Alone a s start r) (h' : Alone a s r r') : Alone a s start r' := by
  obtain ⟨es, hgoes, hown⟩ := h
  obtain ⟨es', hgoes', hown'⟩ := h'
  refine ⟨es ++ es', hgoes.append hgoes', fun e he => ?_⟩
  exact (List.mem_append.1 he).elim (hown e) (hown' e)

theorem Alone.single {e : Event} (he : Happens a s start e r) (hown : e.Own) :
    Alone a s start r :=
  ⟨[e], .single he, by simpa using hown⟩

/-- What holds at the start holds wherever a command comes alone, if every event keeps it. -/
theorem Alone.keeps {P : Run σ → Prop} (h : Alone a s start r) (hstart : P start)
    (hkeeps : ∀ r r' e, Alone a s start r → P r → e.Own → Happens a s r e r' → P r') : P r := by
  obtain ⟨es, hgoes, hown⟩ := h
  induction hgoes with
  | nil => exact hstart
  | snoc hbefore he ih =>
    obtain ⟨hold, hlast⟩ := List.forall_mem_append.1 hown
    exact hkeeps _ _ _ ⟨_, hbefore, hold⟩ (ih hold) (hlast _ List.mem_cons_self) he

/-! ### The order of the program -/

/-- Turns leave a console tidy. -/
def Activity.KeepsTidy (a : Activity σ) (s : Server) : Prop :=
  ∀ c stage t, c.Tidy → a.turn? s c stage = some t → t.console.Tidy

theorem Happens.tidy (hkeeps : a.KeepsTidy s) (ht : start.console.Tidy) {e : Event}
    (he : Happens a s start e r) : r.console.Tidy := by
  cases he with
  | turn h =>
    obtain ⟨t, hturn, rfl⟩ := Option.map_eq_some_iff.1 h
    exact hkeeps _ _ _ ht hturn
  | other ready hready hwaits hm ha => exact World.tidy_move (w := ⟨start.console, []⟩) ht ha

theorem Goes.tidy (hkeeps : a.KeepsTidy s) (ht : start.console.Tidy) (h : Goes a s start es r) :
    r.console.Tidy := by
  induction h with
  | nil => exact ht
  | snoc _ he ih => exact he.tidy hkeeps ih

/-- The clock goes to the next job, and the job is done. -/
theorem alone_doJob {time : Nat} (ht : r.console.Tidy)
    (hwaits : r.ready = true → a.takeTurn? s r = none)
    (h : Activity.doJob? s time r = some r') : Alone a s r r' := by
  obtain ⟨j, hj, rfl⟩ := Option.map_eq_some_iff.1 h
  have hmem := Agenda.mem_of_next? hj
  obtain ⟨-, hmin⟩ := ht.ordered.next?_some hj
  have hdue : r.console.now ≤ j.due := ht.due j hmem
  have hwait : Happens a s r (.other (.wait j.due))
      { r with console := { r.console with now := j.due }, ready := false } :=
    .other false nofun hwaits trivial ⟨hdue, hmin⟩
  have hresume := Happens.other (a := a) (s := s)
    (r := { r with console := { r.console with now := j.due }, ready := false })
    (m := .resume j) false nofun nofun trivial ⟨hmem, Nat.le_refl _⟩
  have halone := (Alone.single hwait trivial).trans (.single hresume trivial)
  simpa only [World.move, Console.resume_wait hdue] using halone

theorem stage_doJob {time : Nat} (h : Activity.doJob? s time r = some r') :
    r'.stage = r.stage := by
  obtain ⟨j, -, rfl⟩ := Option.map_eq_some_iff.1 h
  rfl

theorem stage_wakeUp {limit : Nat} (h : a.wakeUp? limit r = some r') : r'.stage = r.stage := by
  unfold Activity.wakeUp? at h
  split at h
  · cases h
  · cases h
    rfl

theorem alone_wakeUp {limit : Nat} (ht : r.console.Tidy) (hwaits : a.takeTurn? s r = none)
    (hjobs : ∀ j ∈ r.console.agenda.jobs,
      min (limit + 1) ((a.wake? r.stage).getD (limit + 1)) ≤ j.due)
    (h : a.wakeUp? limit r = some r') : Alone a s r r' := by
  unfold Activity.wakeUp? at h
  split at h
  · cases h
  · next time htime =>
    obtain ⟨hwake, hlimit⟩ := Option.filter_eq_some_iff.1 htime
    replace hlimit : time ≤ limit := of_decide_eq_true hlimit
    cases h
    have hall : World.Allows ⟨r.console, []⟩ (.wait (max r.console.now time)) := by
      refine ⟨Nat.le_max_left _ _, fun j hj => ?_⟩
      have hdue := hjobs j hj
      have hnow := ht.due j hj
      rw [hwake, Option.getD_some] at hdue
      omega
    have hwait := Happens.other (a := a) (s := s) (m := .wait (max r.console.now time)) true
      (fun _ => by rw [hwake]; rfl) (fun _ => hwaits) trivial hall
    exact .single hwait trivial

/-- The jobs that are due are done before a command has its turn again that had to wait. -/
def Prompt (r : Run σ) : Prop :=
  r.ready = true ∨ ∀ j ∈ r.console.agenda.jobs, r.console.now < j.due

/-- The program gives a prompt command its turn, or something else happens beside it. -/
theorem next_cases {limit : Nat} (ht : r.console.Tidy) (h : a.next? s limit r = some r') :
    Prompt r ∧ a.takeTurn? s r = some r' ∨ r'.stage = r.stage ∧ Alone a s r r' := by
  unfold Activity.next? at h
  split at h
  · cases h
  cases hfirst : (if r.ready then a.takeTurn? s r else none) with
  | some r₁ =>
    rw [hfirst] at h
    cases h
    split at hfirst
    · next hready => exact .inl ⟨.inl hready, hfirst⟩
    · cases hfirst
  | none =>
    have hwaits : r.ready = true → a.takeTurn? s r = none := fun hready => by
      rwa [if_pos hready] at hfirst
    rw [hfirst] at h
    cases hdue : Activity.doJob? s (r.console.now + 1) r with
    | some r₁ =>
      rw [hdue] at h
      cases h
      exact .inr ⟨stage_doJob hdue, alone_doJob ht hwaits hdue⟩
    | none =>
      rw [hdue] at h
      cases hturn : a.takeTurn? s r with
      | some r₁ =>
        rw [hturn] at h
        cases h
        exact .inl ⟨.inr (ht.ordered.next?_none (Option.map_eq_none_iff.1 hdue)), rfl⟩
      | none =>
        rw [hturn] at h
        cases hlater : Activity.doJob? s
            (min (limit + 1) ((a.wake? r.stage).getD (limit + 1))) r with
        | some r₁ =>
          rw [hlater] at h
          cases h
          exact .inr ⟨stage_doJob hlater, alone_doJob ht (fun _ => hturn) hlater⟩
        | none =>
          rw [hlater] at h
          have hnext := Option.map_eq_none_iff.1 hlater
          exact .inr ⟨stage_wakeUp h, alone_wakeUp ht hturn (ht.ordered.next?_none hnext) h⟩

/-- What the program does next is one of the things that may happen. -/
theorem alone_next {limit : Nat} (ht : r.console.Tidy) (h : a.next? s limit r = some r') :
    Alone a s r r' := by
  rcases next_cases ht h with ⟨-, hturn⟩ | ⟨-, halone⟩
  · exact .single (.turn hturn) trivial
  · exact halone

theorem Alone.tidy (hkeeps : a.KeepsTidy s) (ht : start.console.Tidy) (h : Alone a s start r) :
    r.console.Tidy := by
  obtain ⟨es, hgoes, -⟩ := h
  exact hgoes.tidy hkeeps ht

/-- The order of the program is one of those in which things may happen by themselves. -/
theorem alone_steps (hkeeps : a.KeepsTidy s) (limit n : Nat) (ht : r.console.Tidy) :
    Alone a s r (a.steps s limit n r) := by
  induction n generalizing r with
  | zero => exact .refl r
  | succ n ih =>
    unfold Activity.steps
    cases hnext : a.next? s limit r with
    | none => exact .refl r
    | some r₁ =>
      have halone := alone_next ht hnext
      exact halone.trans (ih (halone.tidy hkeeps ht))

theorem goes_steps (hkeeps : a.KeepsTidy s) (limit n : Nat) (ht : r.console.Tidy) :
    ∃ es, Goes a s r es (a.steps s limit n r) := by
  obtain ⟨es, hgoes, -⟩ := alone_steps hkeeps limit n ht
  exact ⟨es, hgoes⟩

theorem steps_of_ended {limit n : Nat} (h : (a.ending? r.stage).isSome = true) :
    a.steps s limit n r = r := by
  cases n with
  | zero => rfl
  | succ n =>
    unfold Activity.steps Activity.next?
    rw [if_pos h]

/-- A command that the program has brought to its end had its last turn when it was prompt. -/
theorem exists_last_turn (hkeeps : a.KeepsTidy s) {limit n : Nat} (ht : r.console.Tidy)
    (hstart : a.ending? r.stage = none) (hend : (a.ending? (a.steps s limit n r).stage).isSome) :
    ∃ es r₁, Goes a s r es r₁ ∧ Prompt r₁ ∧ a.takeTurn? s r₁ = some (a.steps s limit n r) := by
  induction n generalizing r with
  | zero =>
    rw [Activity.steps, hstart] at hend
    cases hend
  | succ n ih =>
    unfold Activity.steps at hend ⊢
    cases hnext : a.next? s limit r with
    | none =>
      rw [hnext] at hend
      simp only [hstart] at hend
      cases hend
    | some r₁ =>
      rw [hnext] at hend
      simp only at hend ⊢
      obtain ⟨es, hgoes, -⟩ := alone_next ht hnext
      cases hstage : a.ending? r₁.stage with
      | none =>
        obtain ⟨es', r₂, hgoes', hprompt, hturn⟩ := ih (hgoes.tidy hkeeps ht) hstage hend
        exact ⟨es ++ es', r₂, hgoes.append hgoes', hprompt, hturn⟩
      | some ending =>
        rw [steps_of_ended (by rw [hstage]; rfl)]
        rcases next_cases ht hnext with ⟨hprompt, hturn⟩ | ⟨hsame, -⟩
        · exact ⟨[], r, .nil, hprompt, hturn⟩
        · rw [hsame, hstart] at hstage
          cases hstage

theorem run_of_ended {duration : Nat} {c : Console}
    (h : (a.ending? (a.run s duration c).stage).isSome = true) :
    a.run s duration c =
      a.steps s (c.after duration) (Activity.enough (c.after duration) c) (a.begin c) := by
  unfold Activity.run Activity.finish at h ⊢
  simp only at h ⊢
  split
  · rfl
  · next hno =>
    rw [if_neg hno] at h
    exact absurd h hno

end Cli

end ClusterConsole
