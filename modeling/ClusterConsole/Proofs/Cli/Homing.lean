import ClusterConsole.Proofs.Cli.Course
import ClusterConsole.Proofs.Cli.Steps

/-! How a command that is sent comes to its end. It waits for the page to be left, and when that has
happened it ends as soon as all is done that is due. If only answers are due that nobody reads, it
ends without anything else having happened. -/

namespace ClusterConsole

namespace Page

variable {page : Page} {target : String} {u : Url}

/-- A page that is left says so in its feed. -/
theorem leaves_navigate {position : Nat} (h : page.location.join target = .ok u)
    (hcapacity : 0 < page.feed.capacity) (hposition : position ≤ page.feed.sent.length) :
    (page.navigate target).feed.Leaves position := by
  have hfeed : (page.navigate target).feed = page.feed.send (.navigated u) := by
    unfold navigate
    rw [h]
  rw [hfeed]
  refine ⟨page.feed.sent.length, u, hposition, ?_, List.getElem?_concat_length⟩
  simp only [Feed.oldest, Feed.send, List.length_append, List.length_singleton]
  omega

end Page

namespace Cli.Send

/-- The command has ended, and this is where it left the clock, the page and the server. -/
structure Over (e : Ending) (time : Nat) (page : Page) (calls : List CallRecord)
    (r : Run SendStage) : Prop where
  stage : r.stage = .ended e
  now : r.console.now = time
  page : r.console.page = page
  calls : r.console.calls = calls

/-- A job that does nothing: the answer to a submission is there, and nobody reads it. -/
def Unread (j : Job Task) : Prop := ∃ result, j.task = .submitted result

variable {p : Send} {s : Server} {limit n position : Nat} {r : Run SendStage}
  {rest : List (Job Task)}

/-- What is left of a tidy console when its first job is taken. -/
theorem take_first {c : Console} {j : Job Task} (ht : c.Tidy) (hjobs : c.agenda.jobs = j :: rest) :
    (c.resume s j).Tidy ∧ c.resume s j = Console.perform s
      { c with now := j.due, agenda := c.agenda.cancel j.id } j.task ∧
      (c.agenda.cancel j.id).jobs = rest := by
  have hmem : j ∈ c.agenda.jobs := by
    rw [hjobs]
    exact List.mem_cons_self
  refine ⟨ht.resume s (ht.ordered.first_due_le hjobs), ?_, ht.ordered.cancel_head hjobs⟩
  rw [Console.resume, Nat.max_eq_right (ht.due j hmem)]

/-- The page has gone home, and the command is still to see it. -/
structure Home (position : Nat) (rest : List (Job Task)) (r : Run SendStage) : Prop where
  stage : r.stage = .leaving position
  ready : r.ready = false
  tidy : r.console.Tidy
  jobs : r.console.agenda.jobs = rest
  unread : ∀ j ∈ rest, r.console.now < j.due ∨ Unread j
  leaves : r.console.page.feed.Leaves position

theorem Home.ends (h : Home position rest r)
    (hlate : ∀ j ∈ r.console.agenda.jobs, r.console.now < j.due) :
    Over (.ok .done) r.console.now r.console.page r.console.calls
      (p.activity.steps s limit (n + 1) r) := by
  have hlook : p.turn? s r.console r.stage = some
      { console := r.console
        stage := .ended (.ok .done)
        lines := [.sent p.command p.cluster r.console.page.location] } := by
    rw [h.stage]
    show p.look? r.console position = _
    unfold look?
    rw [Feed.nextNavigation_of_leaves h.leaves]
  have hending : p.activity.ending? r.stage = none := by
    rw [h.stage]
    rfl
  obtain ⟨r', hturn, hconsole, hstage, -⟩ := Activity.takeTurn?_of_turn (a := p.activity) hlook
  have hended : (p.activity.ending? r'.stage).isSome = true := by
    rw [hstage]
    rfl
  rw [Activity.steps_of_next (Activity.next?_of_turn hending (.inr hlate) hturn),
    steps_of_ended hended]
  refine ⟨hstage, ?_, ?_, ?_⟩ <;> rw [hconsole]

/-- The answers that are due are there before the command ends. -/
theorem Home.steps (h : Home position rest r) (hn : rest.length < n) :
    Over (.ok .done) r.console.now r.console.page r.console.calls
      (p.activity.steps s limit n r) := by
  obtain ⟨m, rfl⟩ : ∃ m, n = m + 1 := ⟨n - 1, by omega⟩
  induction rest generalizing r m with
  | nil => exact h.ends (by rw [h.jobs]; nofun)
  | cons j rest ih =>
    obtain ⟨htidy, hresume, hrest⟩ := take_first (s := s) h.tidy h.jobs
    by_cases hdue : j.due ≤ r.console.now
    · have hending : p.activity.ending? r.stage = none := by
        rw [h.stage]
        rfl
      have hnow : j.due = r.console.now :=
        Nat.le_antisymm hdue (h.tidy.due j (by rw [h.jobs]; exact List.mem_cons_self))
      obtain ⟨result, htask⟩ :=
        (h.unread j List.mem_cons_self).resolve_left (Nat.not_lt_of_le hdue)
      rw [htask, hnow] at hresume
      have hhome : Home position rest
          { r with console := r.console.resume s j, ready := false } := by
        refine ⟨h.stage, rfl, htidy, ?_, fun k hk => ?_, ?_⟩
        · rw [hresume]
          exact hrest
        · rw [hresume]
          exact h.unread k (List.mem_cons_of_mem j hk)
        · rw [hresume]
          exact h.leaves
      rw [Activity.steps_of_next (Activity.next?_of_due hending
        (fun hready => by rw [h.ready] at hready; cases hready) h.jobs hdue)]
      obtain ⟨m, rfl⟩ : ∃ k, m = k + 1 := ⟨m - 1, by simp only [List.length_cons] at hn; omega⟩
      have hover := ih hhome m (by simpa using hn)
      rw [hresume] at hover ⊢
      exact hover
    · exact h.ends fun k hk =>
        Nat.lt_of_lt_of_le (Nat.lt_of_not_le hdue) (h.tidy.ordered.first_due_le h.jobs k hk)

end Cli.Send

end ClusterConsole
