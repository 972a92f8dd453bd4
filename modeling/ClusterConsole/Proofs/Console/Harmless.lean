import ClusterConsole.Proofs.Console.Footprint

/-! An operation whose check fails, beside all that goes on in a world. It returns the error of its
call, and the run without it goes on in the same way: the same is done by others at the same times,
and the worlds differ in nothing but the footprint of the operation. -/

namespace ClusterConsole

/-- Somebody who waited for an answer goes on with an error. -/
def Purpose.Returns (c : Console) (result : Except String EntitlementResponse) (e : ConsoleError) :
    Purpose → Prop
  | dispatch i request => (c.conclude i request result).1 = .error e
  | check => Decision.ofAnswer result = .error e
  | enforce => (c.enforce result).1 = .error e

/-- Without a call, those after it have the number before theirs. -/
def Inquiry.without (call : Nat) (q : Inquiry) : Inquiry :=
  { q with call := if call < q.call then q.call - 1 else q.call }

/-- What is done without the operation. Nobody waits for its answer, and its job does nothing. -/
def Move.without? (x : Footprint) : Move → Option Move
  | .answer q => if q.call = x.call then none else some (.answer (q.without x.call))
  | .resume j => some (.resume (x.idle j))
  | m => some m

/-- The answers that others wait for. -/
def Footprint.others (x : Footprint) (waiting : List Inquiry) : List Inquiry :=
  (waiting.filter (·.call != x.call)).map (Inquiry.without x.call)

namespace World

/-- The world on which the operation has left nothing. -/
def without (x : Footprint) (w : World) : World where
  console := w.console.without x
  waiting := x.others w.waiting

/-- The answer to the operation is on the way and will be an error, or it was one. -/
structure Failing (x : Footprint) (record : CallRecord) (purpose : Purpose) (source : String)
    (w : World) : Prop where
  on : x.On record w.console
  inquiry : ∀ q ∈ w.waiting, q.call = x.call → q.purpose = purpose ∧ q.result = .error source
  job : ∀ j ∈ w.console.agenda.jobs, x.job? = some j.id → x.completion? = none ∧
    ∃ i request, purpose = .dispatch i request ∧ j.task = .conclude i request (.error source)
  completion : ∀ k, x.completion? = some k → ∃ time i request, purpose = .dispatch i request ∧
    w.console.completed[k]? = some ⟨time, request.command, .error (.entitlementCheck source)⟩

/-- The same happens in a world, if anything happens. -/
def Follows (s : Server) (w w' : World) : Option Move → Prop
  | none => w' = w
  | some m => w.Allows m ∧ w' = w.move s m

variable {x : Footprint} {record : CallRecord} {purpose : Purpose} {source : String}
  {s : Server} {w : World} {m : Move} {ms : List Move} {c : Console} {q : Inquiry} {j : Job Task}

/-! ### Errors -/

theorem returns_error (c : Console) (purpose : Purpose) (source : String) :
    purpose.Returns c (.error source) (.entitlementCheck source) := by
  cases purpose with
  | dispatch i request => exact rfl
  | check => exact rfl
  | enforce => exact rfl

/-- Nothing is done with an error. -/
theorem conclude_error (c : Console) (purpose : Purpose) (source : String) :
    purpose.conclude c (.error source) = c := by
  cases purpose with
  | dispatch i request => rfl
  | check => rfl
  | enforce => rfl

/-! ### Inquiries -/

theorem without_call_inj {q q' : Inquiry} {call : Nat} (hq : q.call ≠ call) (hq' : q'.call ≠ call) :
    (q.without call).call = (q'.without call).call ↔ q.call = q'.call := by
  simp only [Inquiry.without]
  split <;> split <;> omega

theorem mem_others {waiting : List Inquiry} : q ∈ x.others waiting ↔
    ∃ q' ∈ waiting, q'.call ≠ x.call ∧ q'.without x.call = q := by
  simp only [Footprint.others, List.mem_map, List.mem_filter, bne_iff_ne, and_assoc]

theorem others_ask (waiting : List Inquiry) (hq : q.call ≠ x.call) :
    x.others (waiting ++ [q]) = x.others waiting ++ [q.without x.call] := by
  have hkept : [q].filter (·.call != x.call) = [q] :=
    List.filter_cons_of_pos (bne_iff_ne.2 hq)
  rw [Footprint.others, List.filter_append, hkept, List.map_append, List.map_singleton,
    Footprint.others]

theorem others_own_ask (waiting : List Inquiry) (hq : q.call = x.call) :
    x.others (waiting ++ [q]) = x.others waiting := by
  have hdropped : [q].filter (·.call != x.call) = [] :=
    List.filter_cons_of_neg (by simp [hq])
  rw [Footprint.others, List.filter_append, hdropped, List.append_nil, Footprint.others]

/-- To take the operation's own answer is no loss to others. -/
theorem others_own (waiting : List Inquiry) (hq : q.call = x.call) :
    x.others (waiting.filter (·.call != q.call)) = x.others waiting := by
  rw [Footprint.others, hq, List.filter_filter]
  simp only [Bool.and_self, Footprint.others]

/-- An answer that is taken is no longer waited for. -/
theorem others_answer (waiting : List Inquiry) (hq : q.call ≠ x.call) :
    x.others (waiting.filter (·.call != q.call)) =
      (x.others waiting).filter (·.call != (q.without x.call).call) := by
  rw [Footprint.others, Footprint.others, List.filter_map, List.filter_filter, List.filter_filter]
  refine congrArg _ (List.filter_congr fun q' _ => ?_)
  rw [Bool.eq_iff_iff]
  simp only [Function.comp_apply, Bool.and_eq_true, bne_iff_ne]
  constructor
  · rintro ⟨hx, hne⟩
    exact ⟨fun he => hne ((without_call_inj hx hq).1 he), hx⟩
  · rintro ⟨hne, hx⟩
    exact ⟨hx, fun he => hne ((without_call_inj hx hq).2 he)⟩

/-- What is asked without the operation is answered in the same way. -/
theorem without_inquiry (h : x.On record w.console) (s : Server) (purpose : Purpose) :
    (w.inquiry s purpose).call ≠ x.call ∧ (w.inquiry s purpose).without x.call =
      (w.without x).inquiry (s.askedBefore x.call record) purpose := by
  have hlt : x.call < w.console.calls.length := (List.getElem?_eq_some_iff.1 h.call).1
  have htold : (s.askedBefore x.call record).entitlement (w.without x).console.calls =
      s.entitlement w.console.calls := congrArg s.entitlement (Console.insertIdx_without h)
  have hlength : (w.without x).console.calls.length = w.console.calls.length - 1 :=
    List.length_eraseIdx_of_lt hlt
  have hcall : (w.inquiry s purpose).without x.call =
      { w.inquiry s purpose with call := (w.without x).console.calls.length } :=
    congrArg (fun call => { w.inquiry s purpose with call }) ((if_pos hlt).trans hlength.symm)
  refine ⟨Nat.ne_of_gt hlt, ?_⟩
  rw [hcall]
  simp only [World.inquiry, htold]
  rfl

theorem without_purpose (h : x.On record c) (result : Except String EntitlementResponse)
    (purpose : Purpose) :
    (purpose.conclude c result).without x = purpose.conclude (c.without x) result := by
  cases purpose with
  | dispatch i request => exact (Console.without_conclude h i request result).2
  | check => rfl
  | enforce => exact (Console.without_enforce x c result).2

/-! ### Steps -/

theorem extends_purpose (c : Console) (result : Except String EntitlementResponse)
    (purpose : Purpose) : c.Extends (purpose.conclude c result) := by
  cases purpose with
  | dispatch i request => exact Console.extends_conclude c i request result
  | check => exact .of_eq rfl rfl rfl
  | enforce => exact Console.extends_enforce c result

theorem extends_move (s : Server) (w : World) (m : Move) :
    w.console.Extends (w.move s m).console := by
  cases m with
  | wait time => exact .of_eq rfl rfl rfl
  | resume j => exact Console.extends_resume _ s j
  | ask purpose => exact Console.extends_record _ _
  | answer q => exact extends_purpose _ _ _
  | start i request => exact Console.extends_schedule _ _ _
  | act actions => exact .of_eq rfl rfl rfl
  | plan delay actions => exact Console.extends_schedule _ _ _
  | view path => exact Console.extends_record _ _
  | addController interval => exact .of_eq rfl rfl rfl
  | pageLoaded i => exact Console.extends_pageLoaded _ i
  | toggle i checked => exact Console.extends_toggle _ i checked
  | dropController i => exact Console.extends_disarm _ i
  | addDispatcher delay => exact .of_eq rfl rfl rfl

theorem Failing.step (h : Failing x record purpose source w) (s : Server) (m : Move) :
    Failing x record purpose source (w.move s m) := by
  have hextends := extends_move s w m
  constructor
  case on => exact h.on.extends hextends
  case inquiry =>
    intro q hq hcall
    cases m with
    | ask purpose' =>
      rcases List.mem_append.1 hq with hq | hq
      · exact h.inquiry q hq hcall
      · have hlt : x.call < w.console.calls.length := (List.getElem?_eq_some_iff.1 h.on.call).1
        cases List.mem_singleton.1 hq
        exact absurd hcall (Nat.ne_of_gt hlt)
    | answer q' => exact h.inquiry q (List.mem_filter.1 hq).1 hcall
    | _ => exact h.inquiry q hq hcall
  case job =>
    intro j hj hid
    have hlt := h.on.job j.id hid
    rcases hextends.jobs j hj with hold | hnew
    · exact h.job j hold hid
    · omega
  case completion =>
    intro k hk
    obtain ⟨time, i, request, hpurpose, hcompleted⟩ := h.completion k hk
    obtain ⟨more, hmore⟩ := hextends.completed
    have hlt : k < w.console.completed.length := (List.getElem?_eq_some_iff.1 hcompleted).1
    exact ⟨time, i, request, hpurpose, by rw [← hmore, List.getElem?_append_left hlt, hcompleted]⟩

/-- What is done by others is done without the operation as well. -/
theorem Failing.follows (h : Failing x record purpose source w) (ha : w.Allows m)
    (hm : ∀ j, m = .resume j → x.job? ≠ some j.id) :
    Follows (s.askedBefore x.call record) (w.without x) ((w.move s m).without x)
      (m.without? x) := by
  have hon := h.on
  cases m with
  | wait time =>
    refine ⟨⟨ha.1, fun j hj => ?_⟩, rfl⟩
    obtain ⟨k, hk, rfl⟩ := Footprint.mem_idleAll.1 hj
    rw [Footprint.idle_due]
    exact ha.2 k hk
  | resume j =>
    have hidle : x.idle j = j := Footprint.idle_of_ne (hm j rfl)
    refine ⟨⟨Footprint.mem_idleAll.2 ⟨j, ha.1, rfl⟩, ?_⟩, ?_⟩
    · rw [Footprint.idle_due]
      exact ha.2
    · rw [hidle]
      exact congrArg (World.mk · _) (Console.without_resume hon s j)
  | ask purpose' =>
    obtain ⟨hne, hinquiry⟩ := without_inquiry hon s purpose'
    have hothers := others_ask w.waiting hne
    rw [hinquiry] at hothers
    exact ⟨trivial, congrArg₂ World.mk (Console.without_record hon .entitlement) hothers⟩
  | answer q =>
    by_cases hq : q.call = x.call
    · have hnone : Move.without? x (.answer q) = none := if_pos hq
      obtain ⟨-, hresult⟩ := h.inquiry q ha.1 hq
      have hsame : q.purpose.conclude w.console q.result = w.console := by
        rw [hresult, conclude_error]
      rw [hnone]
      exact congrArg₂ World.mk (congrArg (Console.without x) hsame) (others_own w.waiting hq)
    · have hsome : Move.without? x (.answer q) = some (.answer (q.without x.call)) := if_neg hq
      rw [hsome]
      exact ⟨⟨mem_others.2 ⟨q, ha.1, hq, rfl⟩, ha.2⟩,
        congrArg₂ World.mk (without_purpose hon q.result q.purpose) (others_answer w.waiting hq)⟩
  | start i request =>
    exact ⟨trivial, congrArg (World.mk · _) (Console.without_schedule hon 0 _)⟩
  | act actions => exact ⟨trivial, rfl⟩
  | plan delay actions =>
    exact ⟨trivial, congrArg (World.mk · _) (Console.without_schedule hon delay _)⟩
  | view path => exact ⟨trivial, congrArg (World.mk · _) (Console.without_record hon _)⟩
  | addController interval => exact ⟨trivial, rfl⟩
  | pageLoaded i => exact ⟨trivial, congrArg (World.mk · _) (Console.without_pageLoaded hon i)⟩
  | toggle i checked =>
    exact ⟨trivial, congrArg (World.mk · _) (Console.without_toggle hon i checked)⟩
  | dropController i => exact ⟨trivial, congrArg (World.mk · _) (Console.without_disarm x _ i)⟩
  | addDispatcher delay => exact ⟨trivial, rfl⟩

/-- The job of the operation brings its error, which is kept with the completed dispatches. -/
theorem Failing.ends (h : Failing x record purpose source w) (ha : w.Allows (.resume j))
    (hid : x.job? = some j.id) :
    let x' := { x with completion? := some w.console.completed.length }
    Failing x' record purpose source (w.move s (.resume j)) ∧
      Follows (s.askedBefore x.call record) (w.without x) ((w.move s (.resume j)).without x')
        (some (.resume (x.idle j))) := by
  intro x'
  obtain ⟨hnone, i, request, hpurpose, htask⟩ := h.job j ha.1 hid
  have hstep := h.step s (.resume j)
  have hresume := Console.resume_error w.console s htask
  have hmove : (w.move s (.resume j)).console = w.console.resume s j := rfl
  rw [hresume] at hmove
  constructor
  case left =>
    constructor
    case on =>
      refine ⟨hstep.on.call, hstep.on.job, ?_⟩
      rintro _ ⟨⟩
      rw [hmove]
      simp
    case inquiry => exact hstep.inquiry
    case job =>
      intro k hk hid'
      rw [hmove] at hk
      have hne := (Agenda.mem_cancel.1 hk).2
      exact absurd (Option.some.inj (hid'.symm.trans hid)) hne
    case completion =>
      rintro _ ⟨⟩
      rw [hmove]
      exact ⟨_, i, request, hpurpose, List.getElem?_concat_length⟩
  case right =>
    refine ⟨⟨Footprint.mem_idleAll.2 ⟨j, ha.1, rfl⟩, ?_⟩, ?_⟩
    · rw [Footprint.idle_due]
      exact ha.2
    · exact congrArg (World.mk · _) (Console.without_resume_error s htask hid hnone)

/-! ### Runs -/

theorem Reaches.extends {w' : World} (h : Reaches s w w') : w.console.Extends w'.console := by
  obtain ⟨ms, hl, rfl⟩ := h
  exact run_keeps (P := fun w' => w.console.Extends w'.console)
    (fun w' m hextends _ => hextends.trans (extends_move s w' m)) (.of_eq rfl rfl rfl) hl

theorem without?_completion (x : Footprint) (completion? : Option Nat) :
    Move.without? { x with completion? } = Move.without? x := rfl

theorem Failing.next (h : Failing x record purpose source w) (ha : w.Allows m) :
    ∃ completion?, Failing { x with completion? } record purpose source (w.move s m) ∧
      Follows (s.askedBefore x.call record) (w.without x)
        ((w.move s m).without { x with completion? }) (m.without? x) ∧
      (completion? = x.completion? ∨ ∃ j, m = .resume j ∧ x.job? = some j.id) := by
  by_cases hown : ∃ j, m = .resume j ∧ x.job? = some j.id
  · obtain ⟨j, rfl, hid⟩ := hown
    obtain ⟨hfailing, hfollows⟩ := h.ends (s := s) ha hid
    exact ⟨_, hfailing, hfollows, .inr ⟨j, rfl, hid⟩⟩
  · exact ⟨x.completion?, h.step s m, h.follows ha fun j hm hid => hown ⟨j, hm, hid⟩, .inl rfl⟩

/-- Whatever happens, the same run without the operation differs in nothing but its footprint. -/
theorem Failing.run (h : Failing x record purpose source w) (hl : Lawful s w ms) :
    ∃ completion?, Failing { x with completion? } record purpose source (w.run s ms) ∧
      Lawful (s.askedBefore x.call record) (w.without x) (ms.filterMap (Move.without? x)) ∧
      (w.run s ms).without { x with completion? } =
        (w.without x).run (s.askedBefore x.call record) (ms.filterMap (Move.without? x)) ∧
      (completion? = x.completion? ∨ ∃ j, .resume j ∈ ms ∧ x.job? = some j.id) := by
  induction ms generalizing w x with
  | nil => exact ⟨x.completion?, h, trivial, rfl, .inl rfl⟩
  | cons m ms ih =>
    obtain ⟨completion₁, hfailing₁, hfollows, hends⟩ := h.next (s := s) hl.1
    obtain ⟨completion₂, hfailing, hlawful, hrun, hends'⟩ := ih hfailing₁ hl.2
    rw [without?_completion] at hlawful hrun
    have hends₂ : completion₂ = x.completion? ∨ ∃ j, .resume j ∈ m :: ms ∧ x.job? = some j.id := by
      rcases hends' with rfl | ⟨j, hj, hid⟩
      · exact hends.imp_right fun ⟨j, hm, hid⟩ => ⟨j, hm ▸ List.mem_cons_self, hid⟩
      · exact .inr ⟨j, List.mem_cons_of_mem m hj, hid⟩
    cases hm : m.without? x with
    | none =>
      have hsame : (w.move s m).without { x with completion? := completion₁ } = w.without x := by
        rwa [hm] at hfollows
      rw [hsame] at hlawful hrun
      rw [List.filterMap_cons_none hm]
      exact ⟨completion₂, hfailing, hlawful, hrun, hends₂⟩
    | some m' =>
      obtain ⟨ha', hmove⟩ : (w.without x).Allows m' ∧ _ = _ := by
        rwa [hm] at hfollows
      rw [hmove] at hlawful hrun
      rw [List.filterMap_cons_some hm]
      exact ⟨completion₂, hfailing, ⟨ha', hlawful⟩, hrun, hends₂⟩

/-! ### Beginnings -/

/-- The answers that are waited for are those to calls that were made. -/
def Numbered (w : World) : Prop := ∀ q ∈ w.waiting, q.call < w.console.calls.length

theorem Numbered.move (h : Numbered w) (s : Server) (m : Move) : Numbered (w.move s m) := by
  have hlength := (extends_move s w m).calls.length_le
  intro q hq
  cases m with
  | ask purpose =>
    rcases List.mem_append.1 hq with hq | hq
    · exact Nat.lt_of_lt_of_le (h q hq) hlength
    · cases List.mem_singleton.1 hq
      have hcalls : (w.move s (.ask purpose)).console.calls.length =
          w.console.calls.length + 1 := List.length_append
      rw [hcalls]
      exact Nat.lt_succ_self _
  | answer q' => exact Nat.lt_of_lt_of_le (h q (List.mem_filter.1 hq).1) hlength
  | _ => exact Nat.lt_of_lt_of_le (h q hq) hlength

theorem numbered_reaches {page : Page} (h : Reaches s (ofPage page) w) : Numbered w := by
  obtain ⟨ms, hl, rfl⟩ := h
  exact run_keeps (P := Numbered) (fun w m h _ => h.move s m) nofun hl

theorem others_of_numbered {waiting : List Inquiry} (h : ∀ q ∈ waiting, q.call < x.call) :
    x.others waiting = waiting := by
  have hall : waiting.filter (·.call != x.call) = waiting :=
    List.filter_eq_self.2 fun q hq => bne_iff_ne.2 (Nat.ne_of_lt (h q hq))
  have hsame : ∀ q ∈ waiting, Inquiry.without x.call q = q := by
    intro q hq
    unfold Inquiry.without
    rw [if_neg (Nat.not_lt_of_le (Nat.le_of_lt (h q hq)))]
  rw [Footprint.others, hall, List.map_congr_left hsame, List.map_id']

/-- Somebody asks, and will get an error. -/
theorem failing_ask (h : Numbered w)
    (hresult : (s.entitlement w.console.calls).result = .error source) (purpose : Purpose) :
    Failing { call := w.console.calls.length } ⟨w.console.now, .entitlement⟩ purpose source
      (w.move s (.ask purpose)) where
  on := ⟨List.getElem?_concat_length, nofun, nofun⟩
  inquiry q hq hcall := by
    rcases List.mem_append.1 hq with hq | hq
    · exact absurd hcall (Nat.ne_of_lt (h q hq))
    · cases List.mem_singleton.1 hq
      exact ⟨rfl, hresult⟩
  job := nofun
  completion := nofun

theorem without_ask (h : Numbered w) (s : Server) (purpose : Purpose) :
    (w.move s (.ask purpose)).without { call := w.console.calls.length } = w := by
  have hwaiting : Footprint.others { call := w.console.calls.length }
      (w.waiting ++ [w.inquiry s purpose]) = w.waiting :=
    (others_own_ask w.waiting rfl).trans (others_of_numbered h)
  exact congrArg₂ World.mk (Console.without_own_record w.console .entitlement) hwaiting

/-- A dispatch that nobody waits for asks, and its job will bring an error. -/
theorem failing_dispatch (h : Numbered w) (ht : w.console.Tidy)
    (hresult : (s.entitlement w.console.calls).result = .error source) (id due i : Nat)
    (request : CommandRequest) :
    Failing { call := w.console.calls.length, job? := some w.console.agenda.nextId }
      ⟨max w.console.now due, .entitlement⟩ (.dispatch i request) source
      (w.move s (.resume ⟨id, due, .dispatch i request⟩)) where
  on := ⟨List.getElem?_concat_length, by rintro _ ⟨⟩; exact Nat.lt_succ_self _, nofun⟩
  inquiry q hq hcall := absurd hcall (Nat.ne_of_lt (h q hq))
  job j hj hid := by
    refine ⟨rfl, i, request, rfl, ?_⟩
    rcases Agenda.mem_schedule.1 hj with rfl | hj
    · exact congrArg (Task.conclude i request) hresult
    · have hlt := ht.ordered.fresh j (Agenda.mem_cancel.1 hj).1
      exact absurd (Option.some.inj hid) (Nat.ne_of_gt hlt)
  completion := nofun

/-- Without it, its jobs do nothing. -/
def withoutDispatch (s : Server) (w : World) (id : Nat) : World :=
  { w with
    console := (w.console.cancel (some id)).schedule (s.entitlement w.console.calls).delay
      (.act []) }

theorem without_dispatch (h : Numbered w) (ht : w.console.Tidy) {id due i : Nat}
    {request : CommandRequest} (hdue : due ≤ w.console.now) :
    (w.move s (.resume ⟨id, due, .dispatch i request⟩)).without
        { call := w.console.calls.length, job? := some w.console.agenda.nextId } =
      withoutDispatch s w id := by
  have hresume : w.console.resume s ⟨id, due, .dispatch i request⟩ =
      ((w.console.cancel (some id)).record .entitlement).schedule
        (s.entitlement w.console.calls).delay
        (.conclude i request (s.entitlement w.console.calls).result) :=
    Console.resume_of_due (j := ⟨id, due, .dispatch i request⟩) hdue
  refine congrArg₂ World.mk ?_ (others_of_numbered h)
  show Console.without _ (w.console.resume s ⟨id, due, .dispatch i request⟩) = _
  have hagenda := Footprint.idleAll_schedule_own (a := w.console.agenda.cancel id)
    (x := { call := w.console.calls.length, job? := some w.console.agenda.nextId })
    (ht.ordered.cancel id) rfl (w.console.after (s.entitlement w.console.calls).delay)
    (.conclude i request (s.entitlement w.console.calls).result)
  have hcalls := eraseIdx_concat_length w.console.calls ⟨w.console.now, .entitlement⟩
  rw [hresume]
  exact congrArg₂ (fun agenda calls => { w.console with agenda, calls }) hagenda hcalls

/-! ### Without the operation -/

/-- The run of the moves `ms` from the world `w` is one from `w₀` in which nobody began the
operation, and its call was recorded. -/
structure Unharmed (s : Server) (x : Footprint) (record : CallRecord) (w w₀ : World)
    (ms : List Move) : Prop where
  lawful : Lawful (s.askedBefore x.call record) w₀ (ms.filterMap (Move.without? x))
  /-- The page, the controllers, the dispatchers, their jobs and all other calls are the same. -/
  same : (w.run s ms).without x =
    w₀.run (s.askedBefore x.call record) (ms.filterMap (Move.without? x))
  recorded : (w.run s ms).console.calls[x.call]? = some record

theorem Failing.unharmed {w₀ : World} (h : Failing x record purpose source w)
    (hw : w.without x = w₀) (hl : Lawful s w ms) : ∃ completion?,
      Unharmed s { x with completion? } record w w₀ ms ∧
      Failing { x with completion? } record purpose source (w.run s ms) ∧
      (completion? = x.completion? ∨ ∃ j, .resume j ∈ ms ∧ x.job? = some j.id) := by
  obtain ⟨completion?, hfailing, hlawful, hsame, hends⟩ := h.run hl
  rw [hw] at hlawful hsame
  exact ⟨completion?, ⟨hlawful, hsame, hfailing.on.call⟩, hfailing, hends⟩

/-- Somebody asks and waits, and it comes to nothing. -/
structure AskHarmless (s : Server) (w : World) (purpose : Purpose) (source : String)
    (ms : List Move) : Prop where
  unharmed : Unharmed s { call := w.console.calls.length } ⟨w.console.now, .entitlement⟩
    (w.move s (.ask purpose)) w ms
  /-- Whoever waits for the answer goes on with the error. -/
  returns : ∀ pre q post, ms = pre ++ .answer q :: post → q.call = w.console.calls.length →
    q.purpose = purpose ∧
      purpose.Returns (w.run s (.ask purpose :: pre)).console q.result (.entitlementCheck source)

/-- A dispatch that nobody waits for begins, and it comes to nothing. -/
structure DispatchHarmless (s : Server) (w : World) (id due i : Nat) (request : CommandRequest)
    (source : String) (ms : List Move) : Prop where
  /-- If its job is among the moves, then its end is kept with those of the other dispatches. -/
  unharmed : ∃ completion?,
    Unharmed s { call := w.console.calls.length, job? := some w.console.agenda.nextId, completion? }
      ⟨w.console.now, .entitlement⟩ (w.move s (.resume ⟨id, due, .dispatch i request⟩))
      (withoutDispatch s w id) ms ∧
    (completion? = none ∨ ∃ j, .resume j ∈ ms ∧ j.id = w.console.agenda.nextId) ∧
    ∀ k, completion? = some k → ∃ time,
      (w.run s (.resume ⟨id, due, .dispatch i request⟩ :: ms)).console.completed[k]? =
        some ⟨time, request.command, .error (.entitlementCheck source)⟩
  /-- Its job brings the error. -/
  returns : ∀ pre j post, ms = pre ++ .resume j :: post → j.id = w.console.agenda.nextId →
    let before := w.run s (.resume ⟨id, due, .dispatch i request⟩ :: pre)
    (before.move s (.resume j)).console.completed = before.console.completed ++
      [⟨before.console.now, request.command, .error (.entitlementCheck source)⟩]

theorem ask_harmless {page : Page} (hw : Reaches s (ofPage page) w)
    (hresult : (s.entitlement w.console.calls).result = .error source)
    (hl : Lawful s w (.ask purpose :: ms)) : AskHarmless s w purpose source ms := by
  have hnumbered := numbered_reaches hw
  have hfailing := failing_ask (s := s) hnumbered hresult purpose
  constructor
  case unharmed =>
    obtain ⟨completion?, hunharmed, -, rfl | ⟨j, -, hid⟩⟩ :=
      hfailing.unharmed (without_ask hnumbered s purpose) hl.2
    · exact hunharmed
    · cases hid
  case returns =>
    rintro pre q post rfl hcall
    obtain ⟨hpre, ha, -⟩ := lawful_append.1 hl.2
    obtain ⟨completion?, hfailing', -⟩ := hfailing.run hpre
    obtain ⟨hpurpose, hresult'⟩ := hfailing'.inquiry q ha.1 hcall
    rw [hresult']
    exact ⟨hpurpose, returns_error _ purpose source⟩

theorem dispatch_harmless {page : Page} {id due i : Nat} {request : CommandRequest}
    (hw : Reaches s (ofPage page) w)
    (hresult : (s.entitlement w.console.calls).result = .error source)
    (hl : Lawful s w (.resume ⟨id, due, .dispatch i request⟩ :: ms)) :
    DispatchHarmless s w id due i request source ms := by
  have hnumbered := numbered_reaches hw
  have htidy := hw.tidy (Console.tidy_ofPage page)
  have hfailing := failing_dispatch hnumbered htidy hresult id due i request
  rw [Nat.max_eq_left hl.1.2] at hfailing
  constructor
  case unharmed =>
    obtain ⟨completion?, hunharmed, hfailing', hends⟩ :=
      hfailing.unharmed (without_dispatch hnumbered htidy hl.1.2) hl.2
    refine ⟨completion?, hunharmed, ?_, fun k hk => ?_⟩
    · exact hends.imp_right fun ⟨j, hj, hid⟩ => ⟨j, hj, (Option.some.inj hid).symm⟩
    · obtain ⟨time, i', request', hpurpose, hcompleted⟩ := hfailing'.completion k hk
      cases hpurpose
      exact ⟨time, hcompleted⟩
  case returns =>
    rintro pre j post rfl hid before
    obtain ⟨hpre, ha, -⟩ := lawful_append.1 hl.2
    obtain ⟨completion?, hfailing', -⟩ := hfailing.run hpre
    obtain ⟨-, i', request', hpurpose, htask⟩ := hfailing'.job j ha.1 (congrArg some hid.symm)
    cases hpurpose
    have hdue : j.due ≤ before.console.now := ha.2
    have hcompleted := congrArg Console.completed (Console.resume_error before.console s htask)
    rwa [Nat.max_eq_left hdue] at hcompleted

end World

end ClusterConsole
