import ClusterConsole.Proofs.Console.Redirect

/-! The redirects of a dispatcher. Its handle names the way home that it armed last. That one
waits on the agenda until it is taken, at its time, or until the next dispatch that passes its
check puts another in its place; a way home that is gone never comes back. -/

namespace ClusterConsole

namespace World

variable {s : Server} {w : World} {m : Move} {ms p rest : List Move} {i k id due : Nat}

/-! ### Handles -/

/-- The dispatcher armed the way home `id` last. -/
def Holds (w : World) (i id : Nat) : Prop :=
  ∃ d, w.console.dispatchers[i]? = some d ∧ d.redirect = some id

/-- A way home that was taken or replaced. -/
def Gone (w : World) (id : Nat) : Prop :=
  id < w.console.agenda.nextId ∧ ∀ j ∈ w.console.agenda.jobs, j.task = .goHome → j.id ≠ id

/-- A redirect of the dispatcher is pending. -/
def Pending (w : World) (i : Nat) : Prop :=
  ∃ d, w.console.dispatchers[i]? = some d ∧ w.console.hasPendingRedirect d = true

theorem holds_iff : w.Holds i id ↔ redirects.Holds w.console i id := by
  show _ ↔ (w.console.dispatchers.map (·.redirect))[i]? = some (some id)
  rw [List.getElem?_map, Option.map_eq_some_iff]
  rfl

theorem Holds.unique (h : w.Holds i id) {id' : Nat} (h' : w.Holds i id') : id = id' :=
  (holds_iff.1 h).unique (holds_iff.1 h')

/-- No two dispatchers have the same handle. -/
theorem Holds.owner (h : w.Holds i id) (ht : w.console.Tidy) (h' : w.Holds k id) : i = k :=
  (holds_iff.1 h).owner ht (holds_iff.1 h')

theorem Holds.pending_iff (h : w.Holds i id) :
    w.Pending i ↔ ∃ j ∈ w.console.agenda.jobs, j.id = id := by
  obtain ⟨d, hd, he⟩ := h
  have hpending : w.console.hasPendingRedirect d = true ↔
      ∃ j ∈ w.console.agenda.jobs, j.id = id := by
    simp only [Console.hasPendingRedirect, Console.isPending, he, Option.any_some, Agenda.holds_iff]
  constructor
  · rintro ⟨d', hd', hp⟩
    rw [hd, Option.some.injEq] at hd'
    exact hpending.1 (hd' ▸ hp)
  · exact fun hj => ⟨d, hd, hpending.2 hj⟩

/-- The job that a handle names is a way home. -/
theorem Holds.goHome (h : w.Holds i id) (ht : w.console.Tidy) {j : Job Task}
    (hj : j ∈ w.console.agenda.jobs) (hid : j.id = id) : j.task = .goHome :=
  (holds_iff.1 h).kind ht hj hid

theorem Pending.holds (h : w.Pending i) (ht : w.console.Tidy) :
    ∃ id due, w.Holds i id ∧ ⟨id, due, .goHome⟩ ∈ w.console.agenda.jobs := by
  obtain ⟨d, hd, hp⟩ := h
  obtain ⟨id, he⟩ : ∃ id, d.redirect = some id := by
    cases hr : d.redirect with
    | none => simp [Console.hasPendingRedirect, Console.isPending, hr] at hp
    | some id => exact ⟨id, rfl⟩
  have hold : w.Holds i id := ⟨d, hd, he⟩
  obtain ⟨⟨id', due, task⟩, hj, hid⟩ := hold.pending_iff.1 ⟨d, hd, hp⟩
  obtain rfl : id' = id := hid
  obtain rfl : task = .goHome := hold.goHome ht hj rfl
  exact ⟨id', due, hold, hj⟩

/-- A redirect is pending as long as its way home is not gone. -/
theorem Holds.pending_iff_not_gone (h : w.Holds i id) (ht : w.console.Tidy) :
    w.Pending i ↔ ¬ w.Gone id :=
  h.pending_iff.trans ((holds_iff.1 h).mem_iff ht)

/-! ### Moves -/

/-- Only a dispatch of its own changes the handle of a dispatcher. -/
theorem Holds.move (h : w.Holds i id) (ht : w.console.Tidy) (ha : w.Allows m)
    (hm : ¬ m.Passes i) : (w.move s m).Holds i id :=
  holds_iff.2 ((holds_iff.1 h).move ht ha hm)

theorem Gone.move (h : w.Gone id) (ht : w.console.Tidy) (ha : w.Allows m) :
    (w.move s m).Gone id :=
  Owners.Gone.move (o := redirects) h ht ha

/-- A dispatch that passes its check replaces the way home of its dispatcher. -/
theorem Holds.gone (h : w.Holds i id) (ht : w.console.Tidy) (ha : w.Allows m)
    (hm : m.Passes i) : (w.move s m).Gone id :=
  (holds_iff.1 h).gone ht ha hm

/-- Nor does any other move give a dispatcher a handle. -/
theorem Holds.of_move (h : (w.move s m).Holds i id) (ht : w.console.Tidy) (ha : w.Allows m)
    (hm : ¬ m.Passes i) : w.Holds i id :=
  holds_iff.2 ((holds_iff.1 h).of_move ht ha hm)

/-- A way home stays on the agenda as long as it is neither taken nor replaced. -/
theorem Holds.mem_move (h : w.Holds i id) (ht : w.console.Tidy) (ha : w.Allows m)
    (hm : ¬ m.Passes i) (hno : m.goesHome id = false)
    (hj : ⟨id, due, .goHome⟩ ∈ w.console.agenda.jobs) :
    ⟨id, due, .goHome⟩ ∈ (w.move s m).console.agenda.jobs :=
  (holds_iff.1 h).mem_move ht ha hm hno hj

/-- A way home that is taken is gone. -/
theorem gone_of_goesHome (ht : w.console.Tidy) (ha : w.Allows m) (hm : m.goesHome id = true) :
    (w.move s m).Gone id :=
  Owners.gone_of_does (o := redirects) hm ht ha

/-! ### Runs -/

/-- Only a dispatch of its own that passes its check disturbs a dispatcher. -/
theorem undisturbed (hms : ∀ m ∈ ms, ¬ m.Passes i) : redirects.Undisturbed s i w ms := by
  induction ms generalizing w with
  | nil => trivial
  | cons m ms ih =>
    exact ⟨hms m List.mem_cons_self, ih fun x hx => hms x (List.mem_cons_of_mem m hx)⟩

theorem Gone.run (h : w.Gone id) (ht : w.console.Tidy) (hl : Lawful s w ms) :
    (w.run s ms).Gone id :=
  Owners.Gone.run (o := redirects) h ht hl

theorem Holds.stays (h : w.Holds i id) (ht : w.console.Tidy) (hl : Lawful s w ms)
    (hms : ∀ m ∈ ms, ¬ m.Passes i) : (w.run s ms).Holds i id :=
  holds_iff.2 ((holds_iff.1 h).stays ht hl (undisturbed hms))

/-! ### Homecomings -/

/-- The times at which the way home `id` is taken. -/
def homes (s : Server) (id : Nat) : World → List Move → List Nat
  | _, [] => []
  | w, m :: ms =>
    if m.goesHome id then w.console.now :: homes s id (w.move s m) ms
    else homes s id (w.move s m) ms

theorem homes_append :
    homes s id w (p ++ rest) = homes s id w p ++ homes s id (w.run s p) rest := by
  induction p generalizing w with
  | nil => rfl
  | cons m p ih =>
    rw [List.cons_append, homes, homes, ih, run_cons]
    split <;> rfl

theorem homes_eq_times : homes s id w ms = redirects.times s id w ms := by
  induction ms generalizing w with
  | nil => rfl
  | cons m ms ih =>
    rw [homes, Owners.times, ih]
    rfl

/-- A way home that is gone is never taken. -/
theorem homes_of_gone (h : w.Gone id) (ht : w.console.Tidy) (hl : Lawful s w ms) :
    homes s id w ms = [] :=
  homes_eq_times.trans (Owners.times_of_gone h ht hl)

/-- Until the next dispatch passes its check, a way home waits on the agenda until its time
and is taken then, once. -/
theorem homes_of_holds (h : w.Holds i id) (ht : w.console.Tidy)
    (hj : ⟨id, due, .goHome⟩ ∈ w.console.agenda.jobs) (hl : Lawful s w ms)
    (hms : ∀ m ∈ ms, ¬ m.Passes i) :
    (w.run s ms).Holds i id ∧
      (homes s id w ms = [] ∧ ⟨id, due, .goHome⟩ ∈ (w.run s ms).console.agenda.jobs ∨
        homes s id w ms = [due] ∧ (w.run s ms).Gone id) := by
  rw [homes_eq_times]
  exact ⟨h.stays ht hl hms, Owners.times_of_holds (holds_iff.1 h) ht hj hl (undisturbed hms)⟩

end World

end ClusterConsole
