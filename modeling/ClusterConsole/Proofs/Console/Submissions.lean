import ClusterConsole.Proofs.Console.Accounts
import ClusterConsole.Server.Script

/-! Every submission goes back to an answer of its own. Each move takes the undertaking
that it is about one stage further, and whatever else is in the world stays; so the ledger
is right after every run, and says which calls there are and whose they are. -/

namespace ClusterConsole

namespace World

variable {s : Server} {w : World} {m : Move} {ms : List Move} {l : List Undertaking}

/-! ### Calls that are made -/

theorem getElem?_concat {calls : List CallRecord} {r r' : CallRecord} {n : Nat}
    (h : (calls ++ [r])[n]? = some r') : calls[n]? = some r' ∨ n = calls.length ∧ r = r' := by
  rw [List.getElem?_append] at h
  split at h
  · exact .inl h
  · rw [List.getElem?_singleton] at h
    split at h
    · exact .inr ⟨by omega, Option.some.inj h⟩
    · cases h

/-- An entitlement call that is made now is answered in due time. -/
theorem answers_now (s : Server) (w : World) :
    Answers s (w.console.calls ++ [⟨w.console.now, .entitlement⟩]) w.console.calls.length
      (w.console.after (s.entitlement w.console.calls).delay)
      (s.entitlement w.console.calls).result := by
  refine ⟨w.console.now, List.getElem?_concat_length, ?_⟩
  rw [List.take_left]
  exact ⟨rfl, rfl⟩

/-! ### Moves that take no undertaking further -/

theorem progress_aside (ht : w.console.Tidy) (ha : w.Allows m) (hm : m.Aside)
    (hask : ∀ purpose, m ≠ .ask purpose) : Progress s w (w.move s m) none none := by
  have hkeeps : w.console.agenda.Keeps Task.Carried (w.move s m).console.agenda :=
    keeps_move ht hm (fun h => h) (fun _ h => h)
  have hwaiting : (w.move s m).waiting = w.waiting := by
    cases m with
    | ask purpose => exact absurd rfl (hask purpose)
    | answer q => exact hm.elim
    | _ => rfl
  have hcalls : (w.move s m).console.calls = w.console.calls ∨
      ∃ path, (w.move s m).console.calls = w.console.calls ++ [⟨w.console.now, .view path⟩] := by
    cases m with
    | ask purpose => exact absurd rfl (hask purpose)
    | answer q => exact hm.elim
    | resume j => exact hm.elim
    | view path => exact .inr ⟨path, rfl⟩
    | pageLoaded i => exact .inl (by simp [move])
    | toggle i checked => exact .inl (by simp [move])
    | dropController i => exact .inl (by simp [move, Console.dropController])
    | _ => exact .inl rfl
  constructor
  case now => exact now_le_move ha
  case calls =>
    rcases hcalls with h | ⟨path, h⟩
    · simp only [h, List.prefix_rfl]
    · rw [h]
      exact List.prefix_append _ _
  case job_stays => exact fun j hj hc _ => (hkeeps.mem j hc).2 hj
  case job_new => exact fun j hj hc => .inl ⟨(hkeeps.mem j hc).1 hj, by simp⟩
  case inquiry_stays => exact fun q hq _ => hwaiting ▸ hq
  case inquiry_new => exact fun q hq => .inl ⟨hwaiting ▸ hq, by simp⟩
  case made_new =>
    intro n r hn
    rcases hcalls with h | ⟨path, h⟩
    · exact .inl (h ▸ hn)
    · rw [h] at hn
      rcases getElem?_concat hn with hold | ⟨-, rfl⟩
      · exact .inl hold
      · exact .inr (.inl ⟨path, rfl⟩)
  all_goals simp

theorem progress_resume_other (ht : w.console.Tidy) {j : Job Task}
    (ha : w.Allows (.resume j)) (hj : ¬ j.task.Carried) :
    Progress s w (w.move s (.resume j)) none none := by
  obtain ⟨hmem, hdue⟩ := ha
  have hresume : (w.move s (.resume j)).console =
      (w.console.cancel (some j.id)).perform s j.task := Console.resume_of_due hdue
  have hperform : ((w.console.cancel (some j.id)).perform s j.task).agenda =
        (w.console.cancel (some j.id)).agenda ∧
      ((w.console.cancel (some j.id)).perform s j.task).calls = w.console.calls := by
    cases hk : j.task with
    | goHome => exact ⟨Console.navigate_agenda _ _, Console.navigate_calls _ _⟩
    | submit request => exact absurd (by rw [hk]; trivial) hj
    | dispatch i request => exact absurd (by rw [hk]; trivial) hj
    | conclude i request result => exact absurd (by rw [hk]; trivial) hj
    | _ => exact ⟨rfl, rfl⟩
  have hkeeps : w.console.agenda.Keeps Task.Carried (w.move s (.resume j)).console.agenda := by
    rw [hresume]
    refine (Console.keeps_cancel fun k hk he => ?_).trans (.of_eq hperform.1)
    rwa [ht.ordered.eq_of_id_eq hk hmem (Option.some.inj he)]
  constructor
  case now => exact now_le_move ⟨hmem, hdue⟩
  case calls =>
    simp only [hresume, hperform.2, List.prefix_rfl]
  case job_stays => exact fun k hk hc _ => (hkeeps.mem k hc).2 hk
  case job_new => exact fun k hk hc => .inl ⟨(hkeeps.mem k hc).1 hk, by simp⟩
  case inquiry_stays => exact fun q hq _ => hq
  case inquiry_new => exact fun q hq => .inl ⟨hq, by simp⟩
  case made_new =>
    intro n r hn
    rw [hresume, hperform.2] at hn
    exact .inl hn
  all_goals simp

/-! ### Beginnings -/

theorem progress_ask (purpose : Purpose) : Progress s w (w.move s (.ask purpose)) none
    (some ⟨purpose, .asked w.console.calls.length none⟩) := by
  constructor
  case now => exact Nat.le_refl _
  case calls => exact List.prefix_append _ _
  case job_stays => exact fun j hj _ _ => hj
  case job_new => exact fun j hj _ => .inl ⟨hj, by simp⟩
  case job_fresh => simp [Stage.job?]
  case inquiry_stays => exact fun q hq _ => List.mem_append_left _ hq
  case inquiry_new =>
    intro q hq
    rcases List.mem_append.1 hq with hq | hq
    · exact .inl ⟨hq, by simp⟩
    · rw [List.mem_singleton.1 hq]
      exact .inr ⟨answers_now s w, _, rfl, rfl, rfl⟩
  case made_stays => simp
  case made_new =>
    intro n r hn
    rcases getElem?_concat hn with hold | ⟨rfl, rfl⟩
    · exact .inl hold
    · exact .inr (.inr rfl)
  case made_fresh =>
    intro call n hn
    cases call with
    | entitlement => exact .inr (Nat.le_of_eq (Option.some.inj hn))
    | submit request => cases hn
    | view path => cases hn
  case stands =>
    rintro _ ⟨⟩
    exact ⟨w.inquiry s purpose, List.mem_append_right _ (List.mem_singleton_self _), rfl⟩

theorem progress_start (i : Nat) (request : CommandRequest) :
    Progress s w (w.move s (.start i request)) none
      (some ⟨.dispatch i request, .begun w.console.agenda.nextId⟩) := by
  constructor
  case now => exact Nat.le_refl _
  case calls => exact List.prefix_refl _
  case job_stays => exact fun j hj _ _ => Agenda.mem_schedule.2 (.inr hj)
  case job_new =>
    intro j hj _
    rcases Agenda.mem_schedule.1 hj with rfl | hj
    · exact .inr rfl
    · exact .inl ⟨hj, by simp⟩
  case job_fresh => exact fun id hid => Nat.le_of_eq (Option.some.inj hid)
  case inquiry_stays => exact fun q hq _ => hq
  case inquiry_new => exact fun q hq => .inl ⟨hq, by simp⟩
  case made_stays => simp
  case made_new => exact fun n r hn => .inl hn
  case made_fresh => intro call n hn; cases call <;> cases hn
  case stands =>
    rintro _ ⟨⟩
    refine ⟨i, request, w.console.after 0, rfl, ?_, Agenda.mem_schedule.2 (.inl rfl)⟩
    exact Nat.le_of_eq (by simp [Console.after, move])

/-! ### Jobs -/

theorem progress_dispatch (id due i : Nat) (request : CommandRequest)
    (hdue : due ≤ w.console.now) :
    Progress s w (w.move s (.resume ⟨id, due, .dispatch i request⟩))
      (some ⟨.dispatch i request, .begun id⟩)
      (some ⟨.dispatch i request,
        .asked w.console.calls.length (some w.console.agenda.nextId)⟩) := by
  have hresume : (w.move s (.resume ⟨id, due, .dispatch i request⟩)).console =
      ((w.console.cancel (some id)).record .entitlement).schedule
        (s.entitlement w.console.calls).delay
        (.conclude i request (s.entitlement w.console.calls).result) :=
    Console.resume_of_due (j := ⟨id, due, .dispatch i request⟩) hdue
  constructor
  case now => rw [hresume]; exact Nat.le_refl _
  case calls => rw [hresume]; exact List.prefix_append _ _
  case job_stays =>
    intro j hj _ hne
    rw [hresume]
    refine Agenda.mem_schedule.2 (.inr (Agenda.mem_cancel.2 ⟨hj, fun he => hne ?_⟩))
    exact congrArg some he.symm
  case job_new =>
    intro j hj _
    rw [hresume] at hj
    rcases Agenda.mem_schedule.1 hj with rfl | hj
    · exact .inr rfl
    · obtain ⟨hj, hne⟩ := Agenda.mem_cancel.1 hj
      exact .inl ⟨hj, fun he => hne (Option.some.inj he).symm⟩
  case job_fresh => exact fun id hid => Nat.le_of_eq (Option.some.inj hid)
  case inquiry_stays => exact fun q hq _ => hq
  case inquiry_new => exact fun q hq => .inl ⟨hq, by simp [Stage.inquiry?]⟩
  case made_stays => intro call n hn; cases call <;> cases hn
  case made_new =>
    intro n r hn
    rw [hresume] at hn
    rcases getElem?_concat hn with hold | ⟨rfl, rfl⟩
    · exact .inl hold
    · exact .inr (.inr rfl)
  case made_fresh =>
    intro call n hn
    cases call with
    | entitlement => exact .inr (Nat.le_of_eq (Option.some.inj hn))
    | submit request => cases hn
    | view path => cases hn
  case stands =>
    rintro _ ⟨⟩
    refine ⟨i, request, w.console.after (s.entitlement w.console.calls).delay,
      (s.entitlement w.console.calls).result, rfl, ?_, ?_⟩
    · rw [hresume]
      exact answers_now s w
    · rw [hresume]
      exact Agenda.mem_schedule.2 (.inl rfl)

/-- An answer is gone by, whether somebody waited for it or it was a job to go by it. -/
theorem progress_hear {purpose : Purpose} {call due : Nat} {before : Option Nat}
    {result : Except String EntitlementResponse}
    (hanswers : Answers s w.console.calls call due result) (hdue : due ≤ w.console.now)
    (hnow : (w.move s m).console.now = w.console.now)
    (hcalls : (w.move s m).console.calls = w.console.calls)
    (hwaiting : ∀ q, q ∈ (w.move s m).waiting ↔
      q ∈ w.waiting ∧ (Stage.asked call before).inquiry? ≠ some q.call)
    (hjobs : ∀ k : Job Task, k.task.Carried → (k ∈ (w.move s m).console.agenda.jobs ↔
      k ∈ w.console.agenda.jobs ∧ before ≠ some k.id ∨
        ∃ i request, purpose = .dispatch i request ∧ Entitled result ∧
          k = ⟨w.console.agenda.nextId, w.console.now, .submit request⟩))
    (hnew : w.console.agenda.nextId < (w.move s m).console.agenda.nextId ↔
      Granted purpose result) :
    Progress s w (w.move s m) (some ⟨purpose, .asked call before⟩)
      (some ⟨purpose, .answered call w.console.now result (newJob? s w m)⟩) := by
  have hheard : (w.move s m).Heard s call w.console.now result := by
    refine ⟨due, ?_, hdue, Nat.le_of_eq hnow.symm⟩
    rwa [hcalls]
  constructor
  case now => exact Nat.le_of_eq hnow.symm
  case calls => simp only [hcalls, List.prefix_rfl]
  case job_stays => exact fun k hk hc hne => (hjobs k hc).2 (.inl ⟨hk, hne⟩)
  case job_new =>
    intro k hk hc
    refine ((hjobs k hc).1 hk).imp_right ?_
    rintro ⟨i, request, rfl, ha, rfl⟩
    exact if_pos (hnew.2 ⟨⟨i, request, rfl⟩, ha⟩)
  case job_fresh =>
    intro id hid
    replace hid : newJob? s w m = some id := hid
    unfold newJob? at hid
    split at hid
    · exact Nat.le_of_eq (Option.some.inj hid)
    · cases hid
  case inquiry_stays => exact fun q hq hne => (hwaiting q).2 ⟨hq, hne⟩
  case inquiry_new => exact fun q hq => .inl ((hwaiting q).1 hq)
  case made_stays =>
    intro c n hn
    cases c with
    | entitlement => exact hn
    | submit request => cases hn
    | view path => cases hn
  case made_new => exact fun n r hn => .inl (hcalls ▸ hn)
  case made_fresh =>
    intro c n hn
    cases c with
    | entitlement => exact .inl hn
    | submit request => cases hn
    | view path => cases hn
  case stands =>
    rintro _ ⟨⟩
    by_cases hg : Granted purpose result
    · obtain ⟨⟨i, request, rfl⟩, ha⟩ := hg
      rw [show newJob? s w m = some w.console.agenda.nextId from
        if_pos (hnew.2 ⟨⟨i, request, rfl⟩, ha⟩)]
      refine ⟨hheard, i, request, w.console.now, rfl, ha, Nat.le_of_eq hnow.symm, ?_⟩
      exact (hjobs ⟨w.console.agenda.nextId, w.console.now, .submit request⟩ trivial).2
        (.inr ⟨i, request, rfl, ha, rfl⟩)
    · rw [show newJob? s w m = none from if_neg fun h => hg (hnew.1 h)]
      exact ⟨hheard, hg⟩

theorem progress_conclude (ht : w.console.Tidy) {id due call i : Nat} {request : CommandRequest}
    {result : Except String EntitlementResponse} (hdue : due ≤ w.console.now)
    (hanswers : Answers s w.console.calls call due result) :
    let m := Move.resume ⟨id, due, .conclude i request result⟩
    Progress s w (w.move s m) (some ⟨.dispatch i request, .asked call (some id)⟩)
      (some ⟨.dispatch i request, .answered call w.console.now result (newJob? s w m)⟩) := by
  intro m
  have hresume : (w.move s m).console =
      (w.console.cancel (some id)).perform s (.conclude i request result) :=
    Console.resume_of_due (j := ⟨id, due, .conclude i request result⟩) hdue
  have hagenda : (w.move s m).console.agenda =
      ((w.console.cancel (some id)).conclude i request result).2.agenda := by
    rw [hresume]
    rfl
  refine progress_hear hanswers hdue ?_ ?_ ?_ ?_ ?_
  · rw [hresume, Console.perform_now, Console.cancel_now]
  · rw [hresume]
    exact Console.conclude_calls _ i request result
  · exact fun q => (and_iff_left (by simp [Stage.inquiry?])).symm
  · intro k hk
    rw [hagenda, (ht.cancel (some id)).mem_conclude (fun h => h) hk, Console.mem_cancel]
    refine or_congr (and_congr_right fun _ => ⟨Ne.symm, Ne.symm⟩) ?_
    constructor
    · rintro ⟨ha, hk⟩
      exact ⟨i, request, rfl, ha, hk⟩
    · rintro ⟨_, _, ⟨⟩, ha, hk⟩
      exact ⟨ha, hk⟩
  · rw [hagenda, ← Console.cancel_nextId w.console (some id), Console.nextId_lt_conclude]
    exact (and_iff_right ⟨i, request, rfl⟩).symm

theorem progress_answer (ht : w.console.Tidy) {q : Inquiry} (hdue : q.due ≤ w.console.now)
    (hanswers : Answers s w.console.calls q.call q.due q.result) :
    Progress s w (w.move s (.answer q)) (some ⟨q.purpose, .asked q.call none⟩)
      (some ⟨q.purpose, .answered q.call w.console.now q.result (newJob? s w (.answer q))⟩) := by
  have hconclude : (w.move s (.answer q)).console = q.purpose.conclude w.console q.result := rfl
  refine progress_hear hanswers hdue ?_ ?_ ?_ ?_ ?_
  · rw [hconclude]
    cases q.purpose <;> simp [Purpose.conclude]
  · rw [hconclude]
    cases q.purpose <;> simp [Purpose.conclude]
  · intro p
    simp only [move, List.mem_filter, bne_iff_ne, Stage.inquiry?]
    exact and_congr_right fun _ =>
      ⟨fun h he => h (Option.some.inj he).symm, fun h he => h (he ▸ rfl)⟩
  · intro k hk
    rw [hconclude]
    cases hp : q.purpose with
    | dispatch i request =>
      rw [Purpose.conclude, ht.mem_conclude (fun h => h) hk]
      refine or_congr (by simp) ?_
      constructor
      · rintro ⟨ha, hk⟩
        exact ⟨i, request, rfl, ha, hk⟩
      · rintro ⟨_, _, ⟨⟩, ha, hk⟩
        exact ⟨ha, hk⟩
    | check => simp [Purpose.conclude]
    | enforce => simp [Purpose.conclude]
  · rw [hconclude]
    cases hp : q.purpose with
    | dispatch i request =>
      rw [Purpose.conclude, Console.nextId_lt_conclude]
      exact (and_iff_right ⟨i, request, rfl⟩).symm
    | check => simp [Purpose.conclude, Granted]
    | enforce => simp [Purpose.conclude, Granted]

theorem progress_submit {id due call time i : Nat} {request : CommandRequest}
    {result : Except String EntitlementResponse} (hdue : due ≤ w.console.now)
    (hheard : w.Heard s call time result) (ha : Entitled result) :
    Progress s w (w.move s (.resume ⟨id, due, .submit request⟩))
      (some ⟨.dispatch i request, .answered call time result (some id)⟩)
      (some ⟨.dispatch i request, .submitted call time result w.console.calls.length⟩) := by
  have hresume : (w.move s (.resume ⟨id, due, .submit request⟩)).console =
      (w.console.cancel (some id)).submit s request :=
    Console.resume_of_due (j := ⟨id, due, .submit request⟩) hdue
  have hcalls : (w.move s (.resume ⟨id, due, .submit request⟩)).console.calls =
      w.console.calls ++ [⟨w.console.now, .submit request⟩] := by
    rw [hresume, Console.submit_calls, Console.cancel_calls, Console.cancel_now]
  have hnow : (w.move s (.resume ⟨id, due, .submit request⟩)).console.now = w.console.now := by
    rw [hresume, Console.submit_now, Console.cancel_now]
  have hjobs : ∀ k : Job Task, k.task.Carried →
      (k ∈ (w.move s (.resume ⟨id, due, .submit request⟩)).console.agenda.jobs ↔
        k ∈ w.console.agenda.jobs ∧ some k.id ≠ some id) := by
    intro k hk
    rw [hresume, (Console.keeps_submit (fun _ h => h) request).mem k hk, Console.mem_cancel]
  have hprefix : w.console.calls <+:
      (w.move s (.resume ⟨id, due, .submit request⟩)).console.calls := by
    rw [hcalls]
    exact List.prefix_append _ _
  constructor
  case now => exact Nat.le_of_eq hnow.symm
  case calls => exact hprefix
  case job_stays => exact fun k hk hc hne => (hjobs k hc).2 ⟨hk, hne.symm⟩
  case job_new => exact fun k hk hc => .inl (((hjobs k hc).1 hk).imp_right Ne.symm)
  case job_fresh => simp [Stage.job?]
  case inquiry_stays => exact fun q hq _ => hq
  case inquiry_new => exact fun q hq => .inl ⟨hq, by simp [Stage.inquiry?]⟩
  case made_stays =>
    intro c n hn
    cases c with
    | entitlement => exact hn
    | submit request => cases hn
    | view path => cases hn
  case made_new =>
    intro n r hn
    rw [hcalls] at hn
    rcases getElem?_concat hn with hold | ⟨rfl, rfl⟩
    · exact .inl hold
    · exact .inr (.inr rfl)
  case made_fresh =>
    intro c n hn
    cases c with
    | entitlement => exact .inl hn
    | submit request => exact .inr (Nat.le_of_eq (Option.some.inj hn))
    | view path => cases hn
  case stands =>
    rintro _ ⟨⟩
    obtain ⟨asked, hanswers, hle, hnot⟩ := hheard
    have hlt : call < w.console.calls.length := by
      obtain ⟨_, hcall, -⟩ := hanswers
      exact (List.getElem?_eq_some_iff.1 hcall).1
    refine ⟨⟨asked, hanswers.mono hprefix, hle, hnow ▸ hnot⟩, hlt, i, request, w.console.now, rfl,
      ha, hnot, ?_⟩
    rw [hcalls, List.getElem?_concat_length]

/-- Whoever has a job goes on when it is done. -/
theorem progress_resume (ht : w.console.Tidy) {j : Job Task} (ha : w.Allows (.resume j))
    {u : Undertaking} (hu : w.Stands s u.purpose u.stage) (hid : u.stage.job? = some j.id) :
    Progress s w (w.move s (.resume j)) (some u)
      (some { u with stage := u.stage.next w.console j.task (newJob? s w (.resume j)) }) := by
  obtain ⟨hmem, hdue⟩ := ha
  have same : ∀ {k : Job Task}, k ∈ w.console.agenda.jobs → k.id = j.id → j = k :=
    fun hk he => ht.ordered.eq_of_id_eq hmem hk he.symm
  obtain ⟨purpose, stage⟩ := u
  match stage, hu, hid with
  | .begun id, ⟨i, request, due, hp, _, hk⟩, hid =>
    cases hp
    obtain rfl := same hk (Option.some.inj hid)
    have hnew : newJob? s w (.resume ⟨id, due, .dispatch i request⟩) =
        some w.console.agenda.nextId := by
      refine if_pos ?_
      simp [move, Console.resume_of_due hdue, Console.perform, Console.ask]
    rw [hnew]
    exact progress_dispatch _ due i request hdue
  | .asked call (some _), ⟨i, request, due, result, hp, hanswers, hk⟩, hid =>
    cases hp
    obtain rfl := same hk (Option.some.inj hid)
    exact progress_conclude ht hdue hanswers
  | .answered call time result (some _), ⟨hheard, i, request, due, hp, hyes, _, hk⟩, hid =>
    cases hp
    obtain rfl := same hk (Option.some.inj hid)
    exact progress_submit hdue hheard hyes

/-! ### The ledger -/

theorem Kept.note (h : Kept s w l) (ht : w.console.Tidy) (ha : w.Allows m) :
    Kept s (w.move s m) (w.note s l m) := by
  have aside : Progress s w (w.move s m) none none → Kept s (w.move s m) l :=
    fun hp => Kept.progress h ht hp
  have begun : ∀ u, Progress s w (w.move s m) none (some u) → Kept s (w.move s m) (l ++ [u]) :=
    fun u hp => (Kept.progress h ht hp).perm
      (List.perm_append_singleton u l).symm
  cases m with
  | ask purpose => exact begun _ (progress_ask purpose)
  | start i request => exact begun _ (progress_start i request)
  | answer q =>
    obtain ⟨hanswers, u, hu, hpurpose, hstage⟩ := h.inquiry_owned q ha.1
    obtain ⟨rest, hperm, hnote⟩ := perm_map_once (c := fun u => u.stage.inquiry? = some q.call)
      (fun u =>
        { u with stage := .answered q.call w.console.now q.result (newJob? s w (.answer q)) })
      (h.calls .entitlement) (fun v _ hv => made_of_inquiry hv) hu (by rw [hstage]; rfl)
    refine Kept.perm ?_ hnote.symm
    have hp := progress_answer ht ha.2 hanswers
    rw [← hpurpose, ← hstage] at hp
    exact Kept.progress (h.perm hperm) ht hp
  | resume j =>
    by_cases hj : j.task.Carried
    case neg =>
      have hsame : w.note s l (.resume j) = l := by
        refine (List.map_congr_left fun u hu => if_neg fun hid => hj ?_).trans (List.map_id' l)
        obtain ⟨k, hk, he, hc⟩ := (h.stands u hu).job hid
        rwa [← ht.ordered.eq_of_id_eq hk ha.1 he]
      rw [hsame]
      exact aside (progress_resume_other ht ha hj)
    case pos =>
      obtain ⟨u, hu, hid⟩ := h.job_owned j ha.1 hj
      obtain ⟨rest, hperm, hnote⟩ := perm_map_once (c := fun u => u.stage.job? = some j.id)
        (fun u =>
          { u with stage := u.stage.next w.console j.task (newJob? s w (.resume j)) })
        h.jobs (fun v _ hv => hv) hu hid
      refine Kept.perm ?_ hnote.symm
      exact Kept.progress (h.perm hperm) ht
        (progress_resume ht ha (h.stands u hu) hid)
  | wait time => exact aside (progress_aside ht ha trivial (by simp))
  | act actions => exact aside (progress_aside ht ha trivial (by simp))
  | plan delay actions => exact aside (progress_aside ht ha trivial (by simp))
  | view path => exact aside (progress_aside ht ha trivial (by simp))
  | addController interval => exact aside (progress_aside ht ha trivial (by simp))
  | pageLoaded i => exact aside (progress_aside ht ha trivial (by simp))
  | toggle i checked => exact aside (progress_aside ht ha trivial (by simp))
  | dropController i => exact aside (progress_aside ht ha trivial (by simp))
  | addDispatcher delay => exact aside (progress_aside ht ha trivial (by simp))

theorem Kept.ledger (h : Kept s w l) (ht : w.console.Tidy) (hl : Lawful s w ms) :
    Kept s (w.run s ms) (ledger s w l ms) := by
  induction ms generalizing w l with
  | nil => exact h
  | cons m ms ih => exact ih (h.note ht hl.1) (tidy_move ht hl.1) hl.2

/-- All that is due is done, and everybody whose answer is there has gone by it. -/
def Quiet (w : World) : Prop :=
  (∀ j ∈ w.console.agenda.jobs, w.console.now < j.due) ∧ ∀ q ∈ w.waiting, w.console.now < q.due

/-- The calls of a world are those of the undertakings in a ledger. -/
structure Accounted (s : Server) (w : World) (l : List Undertaking) : Prop where
  /-- No call is made for two undertakings, and none for nobody. -/
  call_once : (l.filterMap (·.stage.call?)).Nodup
  mem_calls : ∀ n, n ∈ l.filterMap (·.stage.call?) ↔
    ∃ time, w.console.calls[n]? = some ⟨time, .entitlement⟩
  submission_once : (l.filterMap (·.stage.submission?)).Nodup
  mem_submissions : ∀ n, n ∈ l.filterMap (·.stage.submission?) ↔
    ∃ time request, w.console.calls[n]? = some ⟨time, .submit request⟩
  /-- An undertaking goes by the answer to its own call, when that is there. -/
  heard : ∀ u ∈ l, ∀ time result, u.stage.heard? = some (time, result) →
    ∃ call due, u.stage.call? = some call ∧ Answers s w.console.calls call due result ∧ due ≤ time
  /-- A submission is that of a dispatch that went by an entitled answer before. -/
  submitted : ∀ u ∈ l, ∀ n, u.stage.submission? = some n →
    ∃ i request call time result sent, u.purpose = .dispatch i request ∧
      u.stage.call? = some call ∧ call < n ∧ u.stage.heard? = some (time, result) ∧
      Entitled result ∧ time ≤ sent ∧ w.console.calls[n]? = some ⟨sent, .submit request⟩
  /-- Once nothing is due every undertaking has asked, and has made a submission exactly if
  it is a dispatch whose answer is there and entitled. -/
  settled : w.Quiet → ∀ u ∈ l, ∃ call due result, u.stage.call? = some call ∧
    Answers s w.console.calls call due result ∧
    (u.stage.submission?.isSome ↔ due ≤ w.console.now ∧ Granted u.purpose result)

theorem Kept.mem_calls (h : Kept s w l) (n : Nat) : n ∈ l.filterMap (·.stage.call?) ↔
    ∃ time, w.console.calls[n]? = some ⟨time, .entitlement⟩ := by
  rw [List.mem_filterMap]
  constructor
  · rintro ⟨u, hu, hn⟩
    obtain ⟨_, _, time, hcall, -⟩ := h.answers hu hn
    exact ⟨time, hcall⟩
  · rintro ⟨time, hcall⟩
    rcases h.call_owned n _ hcall with ⟨_, ⟨⟩⟩ | ⟨u, hu, hn⟩
    exact ⟨u, hu, hn⟩

theorem Kept.mem_submissions (h : Kept s w l) (n : Nat) :
    n ∈ l.filterMap (·.stage.submission?) ↔
      ∃ time request, w.console.calls[n]? = some ⟨time, .submit request⟩ := by
  rw [List.mem_filterMap]
  constructor
  · rintro ⟨u, hu, hn⟩
    obtain ⟨_, request, _, _, _, sent, -, -, -, -, -, -, hsent⟩ := h.submits hu hn
    exact ⟨sent, request, hsent⟩
  · rintro ⟨time, request, hsent⟩
    rcases h.call_owned n _ hsent with ⟨_, ⟨⟩⟩ | ⟨u, hu, hn⟩
    exact ⟨u, hu, hn⟩

theorem Kept.heard (h : Kept s w l) {u : Undertaking} (hu : u ∈ l) {time : Nat}
    {result : Except String EntitlementResponse} (hh : u.stage.heard? = some (time, result)) :
    ∃ call due, u.stage.call? = some call ∧ Answers s w.console.calls call due result ∧
      due ≤ time := by
  have hstands := h.stands u hu
  obtain ⟨purpose, stage⟩ := u
  match stage, hstands, hh with
  | .answered call _ _ none, ⟨⟨due, ha, hle, _⟩, _⟩, rfl => exact ⟨call, due, rfl, ha, hle⟩
  | .answered call _ _ (some _), ⟨⟨due, ha, hle, _⟩, _⟩, rfl => exact ⟨call, due, rfl, ha, hle⟩
  | .submitted call _ _ _, ⟨⟨due, ha, hle, _⟩, _⟩, rfl => exact ⟨call, due, rfl, ha, hle⟩

theorem Kept.settled (h : Kept s w l) (hquiet : w.Quiet) {u : Undertaking} (hu : u ∈ l) :
    ∃ call due result, u.stage.call? = some call ∧ Answers s w.console.calls call due result ∧
      (u.stage.submission?.isSome ↔ due ≤ w.console.now ∧ Granted u.purpose result) := by
  have hstands := h.stands u hu
  obtain ⟨purpose, stage⟩ := u
  match stage, hstands with
  | .begun _, ⟨_, _, _, _, hdue, hj⟩ => exact absurd hdue (Nat.not_le.2 (hquiet.1 _ hj))
  | .asked call none, ⟨q, hq, hcall⟩ =>
    refine ⟨call, q.due, q.result, rfl, hcall ▸ (h.inquiry_owned q hq).1, ?_⟩
    exact iff_of_false (by simp [Stage.submission?])
      fun hdue => Nat.not_le.2 (hquiet.2 q hq) hdue.1
  | .asked call (some _), ⟨_, _, due, result, _, ha, hj⟩ =>
    refine ⟨call, due, result, rfl, ha, ?_⟩
    exact iff_of_false (by simp [Stage.submission?])
      fun hdue => Nat.not_le.2 (hquiet.1 _ hj) hdue.1
  | .answered call _ result none, ⟨⟨due, ha, _⟩, hno⟩ =>
    exact ⟨call, due, result, rfl, ha, iff_of_false (by simp [Stage.submission?]) fun h => hno h.2⟩
  | .answered _ _ _ (some _), ⟨_, _, _, _, _, _, hdue, hj⟩ =>
    exact absurd hdue (Nat.not_le.2 (hquiet.1 _ hj))
  | .submitted call _ result _, ⟨⟨due, ha, hle, hnow⟩, _, i, request, _, hp, hyes, _⟩ =>
    refine ⟨call, due, result, rfl, ha, iff_of_true rfl ?_⟩
    exact ⟨Nat.le_trans hle hnow, ⟨i, request, hp⟩, hyes⟩

/-- Whatever the order in which dispatches, checks and enforcements go on and answers come,
each of them asks once for itself, and the submissions are those of the dispatches whose own
answer is entitled. -/
theorem accounted_run {page : Page} (hl : Lawful s (ofPage page) ms) :
    let l := ledger s (ofPage page) [] ms
    l.map (·.purpose) = ms.filterMap Move.begins? ∧ Accounted s ((ofPage page).run s ms) l := by
  intro l
  have h : Kept s ((ofPage page).run s ms) l :=
    (kept_ofPage page).ledger (Console.tidy_ofPage page) hl
  refine ⟨purposes_ledger, ?_⟩
  exact {
    call_once := h.calls .entitlement
    mem_calls := h.mem_calls
    submission_once := h.calls (.submit default)
    mem_submissions := h.mem_submissions
    heard := fun _ hu _ _ hh => h.heard hu hh
    submitted := fun _ hu _ hn => h.submits hu hn
    settled := fun hquiet _ hu => h.settled hquiet hu }

/-- A dispatch is answered before a check that began earlier. -/
def crossing (request : CommandRequest) : List Move :=
  let inquiry (purpose : Purpose) (call : Nat) : Inquiry := ⟨purpose, call, 5, .ok .entitled⟩
  [.addDispatcher 1000, .ask .check, .ask (.dispatch 0 request), .wait 5,
    .answer (inquiry (.dispatch 0 request) 1), .resume ⟨0, 5, .submit request⟩,
    .resume ⟨2, 5, .submitted (.ok ())⟩, .answer (inquiry .check 0)]

theorem accounted_run_crossing :
    let s := Script.server { entitlements := [⟨5, .ok .entitled⟩] }
    let w := ofPage default
    let l := ledger s w [] (crossing default)
    Lawful s w (crossing default) ∧ (w.run s (crossing default)).Quiet ∧
      l.map (·.stage.submission?) = [none, some 2] ∧
      Accounted s (w.run s (crossing default)) l := by
  intro s w l
  have hl : Lawful s w (crossing default) :=
    ⟨trivial, trivial, trivial, ⟨Nat.zero_le _, nofun⟩, ⟨.tail _ (.head _), Nat.le_refl _⟩,
      ⟨.head _, Nat.le_refl _⟩, ⟨.head _, Nat.le_refl _⟩, ⟨.head _, Nat.le_refl _⟩, trivial⟩
  have hquiet : (w.run s (crossing default)).Quiet := by
    refine ⟨fun j hj => ?_, nofun⟩
    obtain rfl : j = ⟨1, 1005, .goHome⟩ := List.mem_singleton.1 hj
    exact show 5 < 1005 by decide
  exact ⟨hl, hquiet, rfl, (accounted_run hl).2⟩

end World

end ClusterConsole
