import ClusterConsole.Proofs.Console.Undertaking

/-! The ledger is right. Whatever is on the agenda, is waited for or was called belongs to
exactly one undertaking, and what an undertaking has done is what its stage says. Each move
takes at most one undertaking further, from which the rest follows by induction over the
run: every undertaking asks exactly once and goes by the answer to its own call, and the
submissions are those of the dispatches whose own answer is entitled. -/

namespace ClusterConsole

/-! ### Tokens -/

section Tokens

variable {α β : Type} {f g : α → Option β} {u v : α} {l : List α}

theorem nodup_filterMap_cons : ((u :: l).filterMap f).Nodup ↔
    (∀ b, f u = some b → ∀ v ∈ l, f v ≠ some b) ∧ (l.filterMap f).Nodup := by
  cases hu : f u with
  | none => simp [hu]
  | some b => simp [hu, List.mem_filterMap]

/-- No two members have a token in common. Only the one with a token is changed. -/
theorem perm_map_once {c : α → Prop} [DecidablePred c] (change : α → α) {b : β}
    (hn : (l.filterMap f).Nodup) (hf : ∀ v ∈ l, c v → f v = some b) (hu : u ∈ l) (hc : c u) :
    ∃ rest, l.Perm (u :: rest) ∧
      (l.map fun v => if c v then change v else v).Perm (change u :: rest) := by
  obtain ⟨before, after, rfl⟩ := List.append_of_mem hu
  refine ⟨before ++ after, List.perm_middle, ?_⟩
  have hperm : (before ++ u :: after).Perm (u :: (before ++ after)) := List.perm_middle
  have hother : ∀ v ∈ before ++ after, ¬ c v := by
    intro v hv hcv
    rw [(hperm.filterMap f).nodup_iff, nodup_filterMap_cons] at hn
    exact hn.1 b (hf u hu hc) v hv (hf v (hperm.mem_iff.2 (List.mem_cons_of_mem _ hv)) hcv)
  refine (hperm.map _).trans ?_
  rw [List.map_cons, if_pos hc, List.map_congr_left fun v hv => if_neg (hother v hv), List.map_id']

end Tokens

/-! ### Answers -/

/-- A call for an entitlement, the result that the server has for it, and when that is
there. The server is told the calls made before. -/
def Answers (s : Server) (calls : List CallRecord) (call due : Nat)
    (result : Except String EntitlementResponse) : Prop :=
  ∃ time, calls[call]? = some ⟨time, .entitlement⟩ ∧
    due = time + min (s.entitlement (calls.take call)).delay Console.longestWait ∧
    result = (s.entitlement (calls.take call)).result

variable {s : Server} {calls : List CallRecord} {call due time : Nat}
  {result : Except String EntitlementResponse}

/-- Later calls do not matter. -/
theorem Answers.mono {later : List CallRecord} (h : Answers s calls call due result)
    (hl : calls <+: later) : Answers s later call due result := by
  obtain ⟨more, rfl⟩ := hl
  obtain ⟨time, hcall, hdue, hresult⟩ := h
  have hlt : call < calls.length := (List.getElem?_eq_some_iff.1 hcall).1
  refine ⟨time, ?_, ?_⟩
  · rw [List.getElem?_append_left hlt, hcall]
  · rw [List.take_append_of_le_length (Nat.le_of_lt hlt)]
    exact ⟨hdue, hresult⟩

theorem getElem?_prefix {later : List CallRecord} (hl : calls <+: later) {n : Nat}
    {r : CallRecord} (h : calls[n]? = some r) : later[n]? = some r := by
  obtain ⟨more, rfl⟩ := hl
  rw [List.getElem?_append_left (List.getElem?_eq_some_iff.1 h).1, h]

/-- The result grants a submission: it is that of a dispatch, and entitled. -/
def Granted (purpose : Purpose) (result : Except String EntitlementResponse) : Prop :=
  (∃ i request, purpose = .dispatch i request) ∧ Entitled result

/-! ### The invariant -/

/-- The tasks of undertakings. -/
def Task.Carried : Task → Prop
  | .dispatch _ _ => True
  | .conclude _ _ _ => True
  | .submit _ => True
  | _ => False

namespace World

/-- An answer to a call was there by a time, which is not in the future. -/
def Heard (s : Server) (w : World) (call time : Nat)
    (result : Except String EntitlementResponse) : Prop :=
  ∃ due, Answers s w.console.calls call due result ∧ due ≤ time ∧ time ≤ w.console.now

/-- What a stage says is so. -/
def Stands (s : Server) (w : World) (purpose : Purpose) : Stage → Prop
  | .begun id => ∃ i request due, purpose = .dispatch i request ∧ due ≤ w.console.now ∧
    ⟨id, due, .dispatch i request⟩ ∈ w.console.agenda.jobs
  | .asked call none => ∃ q ∈ w.waiting, q.call = call
  | .asked call (some id) => ∃ i request due result, purpose = .dispatch i request ∧
    Answers s w.console.calls call due result ∧
    ⟨id, due, .conclude i request result⟩ ∈ w.console.agenda.jobs
  | .answered call time result none => w.Heard s call time result ∧ ¬ Granted purpose result
  | .answered call time result (some id) => w.Heard s call time result ∧ ∃ i request due,
    purpose = .dispatch i request ∧ Entitled result ∧ due ≤ w.console.now ∧
    ⟨id, due, .submit request⟩ ∈ w.console.agenda.jobs
  | .submitted call time result submission => w.Heard s call time result ∧ call < submission ∧
    ∃ i request sent, purpose = .dispatch i request ∧ Entitled result ∧ time ≤ sent ∧
    w.console.calls[submission]? = some ⟨sent, .submit request⟩

/-- Everything in a world is some undertaking's, and of one only. -/
structure Kept (s : Server) (w : World) (l : List Undertaking) : Prop where
  stands : ∀ u ∈ l, w.Stands s u.purpose u.stage
  jobs : (l.filterMap (·.stage.job?)).Nodup
  calls : ∀ call, (l.filterMap (·.stage.made? call)).Nodup
  job_owned : ∀ j ∈ w.console.agenda.jobs, j.task.Carried → ∃ u ∈ l, u.stage.job? = some j.id
  inquiry_owned : ∀ q ∈ w.waiting, Answers s w.console.calls q.call q.due q.result ∧
    ∃ u ∈ l, u.purpose = q.purpose ∧ u.stage = .asked q.call none
  call_owned : ∀ n r, w.console.calls[n]? = some r →
    (∃ path, r.call = .view path) ∨ ∃ u ∈ l, u.stage.made? r.call = some n

variable {w w' : World} {l l' rest : List Undertaking} {purpose : Purpose} {stage : Stage}

theorem kept_ofPage (page : Page) : Kept s (ofPage page) [] := by
  constructor <;> simp [ofPage, Console.ofPage]

theorem Kept.perm (h : Kept s w l) (hp : l.Perm l') : Kept s w l' where
  stands u hu := h.stands u (hp.mem_iff.2 hu)
  jobs := (hp.filterMap _).nodup_iff.1 h.jobs
  calls call := (hp.filterMap _).nodup_iff.1 (h.calls call)
  job_owned j hj hc := by simpa only [hp.mem_iff] using h.job_owned j hj hc
  inquiry_owned q hq := by simpa only [hp.mem_iff] using h.inquiry_owned q hq
  call_owned n r hn := by simpa only [hp.mem_iff] using h.call_owned n r hn

/-! ### Tokens that are known -/

theorem Stands.job (h : w.Stands s purpose stage) {id : Nat} (hid : stage.job? = some id) :
    ∃ j ∈ w.console.agenda.jobs, j.id = id ∧ j.task.Carried := by
  match stage, h, hid with
  | .begun _, ⟨_, _, _, _, _, hj⟩, rfl => exact ⟨_, hj, rfl, trivial⟩
  | .asked _ (some _), ⟨_, _, _, _, _, _, hj⟩, rfl => exact ⟨_, hj, rfl, trivial⟩
  | .answered _ _ _ (some _), ⟨_, _, _, _, _, _, _, hj⟩, rfl => exact ⟨_, hj, rfl, trivial⟩

/-- The answer to the call that an undertaking made. -/
theorem Kept.answers (h : Kept s w l) {u : Undertaking} (hu : u ∈ l) {call : Nat}
    (hcall : u.stage.call? = some call) :
    ∃ due result, Answers s w.console.calls call due result := by
  have hstands := h.stands u hu
  obtain ⟨purpose, stage⟩ := u
  match stage, hstands, hcall with
  | .asked _ none, ⟨q, hq, rfl⟩, rfl => exact ⟨q.due, q.result, (h.inquiry_owned q hq).1⟩
  | .asked _ (some _), ⟨_, _, due, result, _, ha, _⟩, rfl => exact ⟨due, result, ha⟩
  | .answered _ _ result none, ⟨⟨due, ha, _⟩, _⟩, rfl => exact ⟨due, result, ha⟩
  | .answered _ _ result (some _), ⟨⟨due, ha, _⟩, _⟩, rfl => exact ⟨due, result, ha⟩
  | .submitted _ _ result _, ⟨⟨due, ha, _⟩, _⟩, rfl => exact ⟨due, result, ha⟩

/-- The submission that an undertaking made, and what it went by. -/
theorem Kept.submits (h : Kept s w l) {u : Undertaking} (hu : u ∈ l) {n : Nat}
    (hn : u.stage.submission? = some n) :
    ∃ i request call time result sent, u.purpose = .dispatch i request ∧
      u.stage.call? = some call ∧ call < n ∧ u.stage.heard? = some (time, result) ∧
      Entitled result ∧ time ≤ sent ∧ w.console.calls[n]? = some ⟨sent, .submit request⟩ := by
  have hstands := h.stands u hu
  obtain ⟨purpose, stage⟩ := u
  match stage, hstands, hn with
  | .submitted call time result _, ⟨_, hlt, i, request, sent, hp, ha, hle, hsent⟩, rfl =>
    exact ⟨i, request, call, time, result, sent, hp, rfl, hlt, rfl, ha, hle, hsent⟩

theorem Kept.made_lt (h : Kept s w l) {u : Undertaking} (hu : u ∈ l) {call : Call} {n : Nat}
    (hn : u.stage.made? call = some n) : n < w.console.calls.length := by
  cases call with
  | entitlement =>
    obtain ⟨_, _, _, hcall, -⟩ := h.answers hu hn
    exact (List.getElem?_eq_some_iff.1 hcall).1
  | submit request =>
    obtain ⟨_, _, _, _, _, _, -, -, -, -, -, -, hsent⟩ := h.submits hu hn
    exact (List.getElem?_eq_some_iff.1 hsent).1
  | view path => cases hn

/-- What a stage says remains so as long as its own job and its own inquiry stay. -/
theorem Stands.frame (h : w.Stands s purpose stage) (hn : w.console.now ≤ w'.console.now)
    (hc : w.console.calls <+: w'.console.calls)
    (hj : ∀ j ∈ w.console.agenda.jobs, j.task.Carried → stage.job? = some j.id →
      j ∈ w'.console.agenda.jobs)
    (hq : ∀ q ∈ w.waiting, stage.inquiry? = some q.call → q ∈ w'.waiting) :
    w'.Stands s purpose stage := by
  have heard : ∀ {call time result}, w.Heard s call time result → w'.Heard s call time result := by
    rintro call time result ⟨due, ha, hle, hnow⟩
    exact ⟨due, ha.mono hc, hle, Nat.le_trans hnow hn⟩
  match stage, h with
  | .begun _, ⟨i, r, due, hp, hdue, hjob⟩ =>
    exact ⟨i, r, due, hp, Nat.le_trans hdue hn, hj _ hjob trivial rfl⟩
  | .asked _ none, ⟨q, hmem, hcall⟩ => exact ⟨q, hq q hmem (by rw [hcall]; rfl), hcall⟩
  | .asked _ (some _), ⟨i, r, due, result, hp, ha, hjob⟩ =>
    exact ⟨i, r, due, result, hp, ha.mono hc, hj _ hjob trivial rfl⟩
  | .answered _ _ _ none, ⟨ha, hno⟩ => exact ⟨heard ha, hno⟩
  | .answered _ _ _ (some _), ⟨ha, i, r, due, hp, hyes, hdue, hjob⟩ =>
    exact ⟨heard ha, i, r, due, hp, hyes, Nat.le_trans hdue hn, hj _ hjob trivial rfl⟩
  | .submitted _ _ _ _, ⟨ha, hlt, i, r, sent, hp, hyes, hle, hcall⟩ =>
    exact ⟨heard ha, hlt, i, r, sent, hp, hyes, hle, getElem?_prefix hc hcall⟩

/-! ### One undertaking goes on -/

/-- From one world to the next the undertaking `u` becomes `u'`. It is none before it
begins, and both are none if none goes on. Only its own job and its own inquiry go, and
only its own come. -/
structure Progress (s : Server) (w w' : World) (u u' : Option Undertaking) : Prop where
  now : w.console.now ≤ w'.console.now
  calls : w.console.calls <+: w'.console.calls
  job_stays : ∀ j ∈ w.console.agenda.jobs, j.task.Carried →
    u.bind (·.stage.job?) ≠ some j.id → j ∈ w'.console.agenda.jobs
  job_new : ∀ j ∈ w'.console.agenda.jobs, j.task.Carried →
    j ∈ w.console.agenda.jobs ∧ u.bind (·.stage.job?) ≠ some j.id ∨
      u'.bind (·.stage.job?) = some j.id
  job_fresh : ∀ id, u'.bind (·.stage.job?) = some id → w.console.agenda.nextId ≤ id
  inquiry_stays : ∀ q ∈ w.waiting, u.bind (·.stage.inquiry?) ≠ some q.call → q ∈ w'.waiting
  inquiry_new : ∀ q ∈ w'.waiting,
    q ∈ w.waiting ∧ u.bind (·.stage.inquiry?) ≠ some q.call ∨
      Answers s w'.console.calls q.call q.due q.result ∧
        ∃ v, u' = some v ∧ v.purpose = q.purpose ∧ v.stage = .asked q.call none
  made_stays : ∀ call n, u.bind (·.stage.made? call) = some n →
    u'.bind (·.stage.made? call) = some n
  made_new : ∀ n r, w'.console.calls[n]? = some r → w.console.calls[n]? = some r ∨
    (∃ path, r.call = .view path) ∨ u'.bind (·.stage.made? r.call) = some n
  made_fresh : ∀ call n, u'.bind (·.stage.made? call) = some n →
    u.bind (·.stage.made? call) = some n ∨ w.console.calls.length ≤ n
  stands : ∀ v, u' = some v → w'.Stands s v.purpose v.stage

theorem nodup_filterMap_toList_append {f : Undertaking → Option Nat} {u : Option Undertaking} :
    ((u.toList ++ l).filterMap f).Nodup ↔
      (∀ n, u.bind f = some n → ∀ v ∈ l, f v ≠ some n) ∧ (l.filterMap f).Nodup := by
  cases u with
  | none => simp
  | some u => exact nodup_filterMap_cons

theorem mem_toList_append {u : Option Undertaking} {v : Undertaking} :
    v ∈ u.toList ++ l ↔ u = some v ∨ v ∈ l := by
  rw [List.mem_append, Option.mem_toList]

theorem made_of_inquiry {n : Nat} (h : stage.inquiry? = some n) :
    stage.made? .entitlement = some n := by
  match stage, h with
  | .asked _ none, rfl => rfl

theorem Kept.progress {u u' : Option Undertaking} (h : Kept s w (u.toList ++ rest))
    (ht : w.console.Tidy) (hp : Progress s w w' u u') : Kept s w' (u'.toList ++ rest) := by
  have hjobs := nodup_filterMap_toList_append.1 h.jobs
  have hcalls := fun call => nodup_filterMap_toList_append.1 (h.calls call)
  have hrest : ∀ v ∈ rest, v ∈ u.toList ++ rest := fun v hv => mem_toList_append.2 (.inr hv)
  constructor
  case stands =>
    intro v hv
    rcases mem_toList_append.1 hv with hv | hv
    · exact hp.stands v hv
    · refine (h.stands v (hrest v hv)).frame hp.now hp.calls (fun j hj hc hid => ?_)
        fun q hq hid => ?_
      · exact hp.job_stays j hj hc fun hu => hjobs.1 _ hu v hv hid
      · refine hp.inquiry_stays q hq fun hu => ?_
        obtain ⟨x, hx, hu⟩ := Option.bind_eq_some_iff.1 hu
        refine (hcalls .entitlement).1 q.call ?_ v hv (made_of_inquiry hid)
        rw [hx, Option.bind_some, made_of_inquiry hu]
  case jobs =>
    refine nodup_filterMap_toList_append.2 ⟨fun id hid v hv hv' => ?_, hjobs.2⟩
    obtain ⟨j, hj, rfl, -⟩ := (h.stands v (hrest v hv)).job hv'
    exact Nat.lt_irrefl _ (Nat.lt_of_lt_of_le (ht.ordered.fresh j hj) (hp.job_fresh _ hid))
  case calls =>
    refine fun call => nodup_filterMap_toList_append.2 ⟨fun n hn v hv hv' => ?_, (hcalls call).2⟩
    rcases hp.made_fresh call n hn with hold | hnew
    · exact (hcalls call).1 n hold v hv hv'
    · exact Nat.lt_irrefl _ (Nat.lt_of_lt_of_le (h.made_lt (hrest v hv) hv') hnew)
  case job_owned =>
    intro j hj hc
    rcases hp.job_new j hj hc with ⟨hold, hne⟩ | hnew
    · obtain ⟨v, hv, hid⟩ := h.job_owned j hold hc
      rcases mem_toList_append.1 hv with rfl | hv
      · exact absurd hid hne
      · exact ⟨v, mem_toList_append.2 (.inr hv), hid⟩
    · obtain ⟨v, hv, hid⟩ := Option.bind_eq_some_iff.1 hnew
      exact ⟨v, mem_toList_append.2 (.inl hv), hid⟩
  case inquiry_owned =>
    intro q hq
    rcases hp.inquiry_new q hq with ⟨hold, hne⟩ | ⟨ha, v, hv, hpur, hst⟩
    · obtain ⟨ha, v, hv, hpur, hst⟩ := h.inquiry_owned q hold
      refine ⟨ha.mono hp.calls, v, ?_, hpur, hst⟩
      rcases mem_toList_append.1 hv with rfl | hv
      · exact absurd (by rw [Option.bind_some, hst]; rfl) hne
      · exact mem_toList_append.2 (.inr hv)
    · exact ⟨ha, v, mem_toList_append.2 (.inl hv), hpur, hst⟩
  case call_owned =>
    intro n r hn
    rcases hp.made_new n r hn with hold | hview | hnew
    · refine (h.call_owned n r hold).imp_right ?_
      rintro ⟨v, hv, hid⟩
      rcases mem_toList_append.1 hv with rfl | hv
      · obtain ⟨x, hx, hid⟩ := Option.bind_eq_some_iff.1 (hp.made_stays r.call n hid)
        exact ⟨x, mem_toList_append.2 (.inl hx), hid⟩
      · exact ⟨v, mem_toList_append.2 (.inr hv), hid⟩
    · exact .inl hview
    · obtain ⟨v, hv, hid⟩ := Option.bind_eq_some_iff.1 hnew
      exact .inr ⟨v, mem_toList_append.2 (.inl hv), hid⟩

end World

end ClusterConsole
