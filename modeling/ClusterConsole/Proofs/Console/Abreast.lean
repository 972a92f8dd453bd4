import ClusterConsole.Proofs.Console.Twins

/-! Two worlds side by side. Their servers answer submissions differently, and apart from that the
two do the same: the same users act at the same times, and of the jobs that are due the same are
done first. Each world takes the answers to its own submissions when it likes. Then the two can
never be told apart, and neither can do anything that the other cannot follow. -/

namespace ClusterConsole

/-- The same move on two consoles. Jobs are the same if they are at the same place among all
that are no answers. -/
inductive Parallel (c c' : Console) : Move → Move → Prop
  | same {m : Move} (hm : ∀ j, m ≠ .resume j) : Parallel c c' m m
  | resume {n : Nat} {j j' : Job Task} (hj : (outward c.agenda.jobs)[n]? = some j)
      (hj' : (outward c'.agenda.jobs)[n]? = some j') : Parallel c c' (.resume j) (.resume j')

namespace World

/-- The worlds that two runs lead to from the same start which do the same moves, except for
the answers of submissions. -/
inductive Abreast (s s' : Server) (start : World) : World → World → Prop
  | start : Abreast s s' start start start
  | move {w w' : World} {m m' : Move} (h : Abreast s s' start w w')
      (hm : Parallel w.console w'.console m m') (ha : w.Allows m) (ha' : w'.Allows m') :
      Abreast s s' start (w.move s m) (w'.move s' m')
  | left {w w' : World} {j : Job Task} (h : Abreast s s' start w w')
      (hj : j.task.isAnswer = true) (ha : w.Allows (.resume j)) :
      Abreast s s' start (w.move s (.resume j)) w'
  | right {w w' : World} {j : Job Task} (h : Abreast s s' start w w')
      (hj : j.task.isAnswer = true) (ha : w'.Allows (.resume j)) :
      Abreast s s' start w (w'.move s' (.resume j))

/-- Worlds that nobody can tell apart. -/
structure Twins (w w' : World) : Prop where
  console : w.console.Twins w'.console
  waiting : w.waiting = w'.waiting

variable {s s' : Server} {start w w' : World} {m m' : Move} {ms : List Move} {j : Job Task}

/-- Both runs are lawful. -/
theorem Abreast.reaches (h : Abreast s s' start w w') :
    Reaches s start w ∧ Reaches s' start w' := by
  induction h with
  | start => exact ⟨.refl _, .refl _⟩
  | move _ _ ha ha' ih => exact ⟨ih.1.trans (.move ha), ih.2.trans (.move ha')⟩
  | left _ _ ha ih => exact ⟨ih.1.trans (.move ha), ih.2⟩
  | right _ _ ha ih => exact ⟨ih.1, ih.2.trans (.move ha)⟩

/-! ### Steps -/

theorem Twins.symm (h : Twins w w') : Twins w' w := ⟨h.console.symm, h.waiting.symm⟩

theorem Twins.inquiry (h : Twins w w') (hs : s'.entitlement = s.entitlement) (purpose : Purpose) :
    w.inquiry s purpose = w'.inquiry s' purpose := by
  simp only [World.inquiry, hs, h.console.calls, h.console.after]

theorem Twins.conclude {c c' : Console} (h : c.Twins c') (purpose : Purpose)
    (result : Except String EntitlementResponse) :
    (purpose.conclude c result).Twins (purpose.conclude c' result) := by
  cases purpose with
  | dispatch i request => exact (h.conclude i request result).2
  | check => exact h
  | enforce => exact (h.enforce result).2

/-- Whatever is done in both worlds leaves them twins. -/
theorem Twins.move (h : Twins w w') (hs : s'.entitlement = s.entitlement)
    (hm : Parallel w.console w'.console m m') (ha : w.Allows m) (ha' : w'.Allows m') :
    Twins (w.move s m) (w'.move s' m') := by
  cases hm with
  | resume hj hj' =>
    refine ⟨h.console.resume h.console.tidy h.console.tidy' hs hj hj' ?_ ?_ ?_, h.waiting⟩
    · exact fun k hk => Nat.le_trans ha.2 (h.console.tidy.due k hk)
    · exact fun k hk => Nat.le_trans ha'.2 (h.console.tidy'.due k hk)
    · rw [Nat.max_eq_left ha.2, Nat.max_eq_left ha'.2, h.console.now]
  | same hm =>
    cases m with
    | resume j => exact absurd rfl (hm j)
    | wait time =>
      have halike := h.console.toAlike.clocks time time
      exact ⟨⟨halike, rfl, h.console.tidy.wait ha.2, h.console.tidy'.wait ha'.2⟩, h.waiting⟩
    | ask purpose =>
      refine ⟨h.console.record .entitlement, ?_⟩
      simp only [World.move, h.waiting, h.inquiry hs]
    | answer q =>
      refine ⟨conclude h.console q.purpose q.result, ?_⟩
      simp only [World.move, h.waiting]
    | start i request => exact ⟨h.console.schedule 0 rfl (by simp) (by simp), h.waiting⟩
    | act actions => exact ⟨h.console.act (Page.acts · actions), h.waiting⟩
    | plan delay actions => exact ⟨h.console.schedule delay rfl (by simp) (by simp), h.waiting⟩
    | view path => exact ⟨h.console.record _, h.waiting⟩
    | addController interval => exact ⟨h.console.addController interval, h.waiting⟩
    | pageLoaded i => exact ⟨h.console.pageLoaded i, h.waiting⟩
    | toggle i checked => exact ⟨h.console.toggle i checked, h.waiting⟩
    | dropController i => exact ⟨h.console.disarm i, h.waiting⟩
    | addDispatcher delay => exact ⟨h.console.addDispatcher delay, h.waiting⟩

/-- An answer changes nothing. -/
theorem Twins.left (h : Twins w w') (hj : j.task.isAnswer = true) (ha : w.Allows (.resume j)) :
    Twins (w.move s (.resume j)) w' := by
  have halike : (w.console.resume s j).Alike w.console := h.console.tidy.resume_answer ha.1 hj
  have hnow : (w.console.resume s j).now = w.console.now := by
    rw [Console.resume, Console.perform_now, Nat.max_eq_left ha.2]
  have htidy : (w.console.resume s j).Tidy := tidy_move (m := .resume j) h.console.tidy ha
  exact ⟨⟨halike.trans h.console.toAlike, hnow.trans h.console.now, htidy, h.console.tidy'⟩,
    h.waiting⟩

theorem Abreast.twins (h : Abreast s s' start w w') (ht : start.console.Tidy)
    (hs : s'.entitlement = s.entitlement) : Twins w w' := by
  induction h with
  | start => exact ⟨.refl ht, rfl⟩
  | move _ hm ha ha' ih => exact ih.move hs hm ha ha'
  | left _ hj ha ih => exact ih.left hj ha
  | right _ hj ha ih => exact (ih.symm.left hj ha).symm

/-! ### Following -/

theorem Twins.allows (h : Twins w w') (hm : ∀ j, m ≠ .resume j) (hwait : ∀ time, m ≠ .wait time)
    (ha : w.Allows m) : w'.Allows m := by
  cases m with
  | resume j => exact absurd rfl (hm j)
  | wait time => exact absurd rfl (hwait time)
  | answer q => exact ⟨h.waiting ▸ ha.1, h.console.now ▸ ha.2⟩
  | _ => exact trivial

/-- The clock of the other world can go on once the answers are taken that come before. -/
theorem Abreast.follow_wait (h : Abreast s s' start w w') (ht : start.console.Tidy)
    (hs : s'.entitlement = s.entitlement) {time : Nat} (ha : w.Allows (.wait time)) :
    ∃ w'', Abreast s s' start (w.move s (.wait time)) w'' := by
  -- Each answer that is taken on the way leaves less work in the other world.
  induction hwork : w'.console.work using Nat.strongRecOn generalizing w w' with
  | ind work ih =>
    have htwins := h.twins ht hs
    have ht' := htwins.console.tidy'
    cases hnext : w'.console.agenda.next? time with
    | none =>
      have ha' : w'.Allows (.wait time) :=
        ⟨htwins.console.now ▸ ha.1, ht'.ordered.next?_none hnext⟩
      exact ⟨_, h.move (.same nofun) ha ha'⟩
    | some j =>
      obtain ⟨hlt, hmin⟩ := ht'.ordered.next?_some hnext
      have hj := Agenda.mem_of_next? hnext
      -- A duty would be due in this world as well, which waits for all that is due.
      have hanswer : j.task.isAnswer = true := by
        by_contra hno
        obtain ⟨n, j', -, hj', hdue⟩ := htwins.console.symm.counterpart hj (eq_false_of_ne_true hno)
        have hle := ha.2 j' (mem_outward.1 (List.mem_of_getElem? hj')).1
        omega
      have hnow : w.console.now ≤ j.due := htwins.console.now ▸ ht'.due j hj
      have hwait : Abreast s s' start (w.move s (.wait j.due)) (w'.move s' (.wait j.due)) := by
        refine h.move (.same nofun) ⟨hnow, fun k hk => ?_⟩ ⟨ht'.due j hj, hmin⟩
        exact Nat.le_trans (Nat.le_of_lt hlt) (ha.2 k hk)
      have hresume := hwait.right hanswer ⟨hj, Nat.le_refl _⟩
      have hless : ((w'.move s' (.wait j.due)).move s' (.resume j)).console.work < work := by
        rw [← hwork]
        exact Console.work_resume_lt s' (c := { w'.console with now := j.due }) hj
      have hlater : (w.move s (.wait j.due)).Allows (.wait time) := ⟨Nat.le_of_lt hlt, ha.2⟩
      obtain ⟨w'', hfollow⟩ := ih _ hless hresume hlater rfl
      exact ⟨w'', hfollow⟩

/-- Whatever is done in one world can be done in the other. -/
theorem Abreast.follow_move (h : Abreast s s' start w w') (ht : start.console.Tidy)
    (hs : s'.entitlement = s.entitlement) (ha : w.Allows m) :
    ∃ w'', Abreast s s' start (w.move s m) w'' := by
  have htwins := h.twins ht hs
  by_cases hwait : ∃ time, m = .wait time
  · obtain ⟨time, rfl⟩ := hwait
    exact h.follow_wait ht hs ha
  by_cases hresume : ∃ j, m = .resume j
  · obtain ⟨j, rfl⟩ := hresume
    by_cases hanswer : j.task.isAnswer = true
    · exact ⟨_, h.left hanswer ha⟩
    · obtain ⟨n, j', hj, hj', hdue⟩ := htwins.console.counterpart ha.1 (eq_false_of_ne_true hanswer)
      have ha' : w'.Allows (.resume j') :=
        ⟨(mem_outward.1 (List.mem_of_getElem? hj')).1, by rw [hdue, ← htwins.console.now]; exact ha.2⟩
      exact ⟨_, h.move (.resume hj hj') ha ha'⟩
  · have hm : ∀ j, m ≠ .resume j := fun j hj => hresume ⟨j, hj⟩
    have ha' := htwins.allows hm (fun time hm => hwait ⟨time, hm⟩) ha
    exact ⟨_, h.move (.same hm) ha ha'⟩

theorem Abreast.follow (h : Abreast s s' start w w') (ht : start.console.Tidy)
    (hs : s'.entitlement = s.entitlement) (hl : Lawful s w ms) :
    ∃ w'', Abreast s s' start (w.run s ms) w'' := by
  induction ms generalizing w w' with
  | nil => exact ⟨w', h⟩
  | cons m ms ih =>
    obtain ⟨w₁, h₁⟩ := h.follow_move ht hs hl.1
    exact ih h₁ hl.2

end World

end ClusterConsole
