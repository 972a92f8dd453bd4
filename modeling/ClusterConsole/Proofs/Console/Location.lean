import ClusterConsole.Proofs.Console.Work
import ClusterConsole.Proofs.Url.Join

/-! Where the page of a console is. A console does to its page what any user could do, so
that the page of a web address stays one with a rooted path; and only few moves lead it
elsewhere than to the page for those who are not entitled. -/

namespace ClusterConsole

/-! ### Pages -/

namespace Page

variable {p : Page} {target : String} {u : Url}

theorem navigate_of_join (h : p.location.join target = .ok u) :
    (p.navigate target).location = u ∧ (p.navigate target).past = p.past ++ [p.location] := by
  unfold navigate
  rw [h]
  exact ⟨rfl, rfl⟩

theorem rooted_act (h : p.location.Rooted) (action : PageAction) :
    (p.act action).location.Rooted := by
  cases action with
  | navigate target =>
    show (p.navigate target).location.Rooted
    unfold navigate
    split
    · exact h
    · next hj => exact h.join hj
  | replace target =>
    show (p.replace target).location.Rooted
    unfold replace
    split
    · exact h
    · next hj => exact h.join hj
  | reload => exact h
  | setChecked checked => exact h

theorem rooted_acts (h : p.location.Rooted) (actions : List PageAction) :
    (p.acts actions).location.Rooted := by
  induction actions generalizing p with
  | nil => exact h
  | cons action actions ih => exact ih (rooted_act h action)

theorem open_of_parse {url : String} (h : (Url.parse url).toOption = some u) :
    Page.open url = .ok (.at u) := by
  unfold Page.open
  cases hp : Url.parse url with
  | error e =>
    rw [hp] at h
    cases h
  | ok v =>
    rw [hp] at h
    cases h
    rfl

theorem rooted_open {url : String} (h : Page.open url = .ok p) : p.location.Rooted := by
  unfold Page.open at h
  split at h
  · next hu =>
    cases h
    exact Url.rooted_parse hu
  · cases h

end Page

/-! ### Operations -/

namespace Console

variable (s : Server) (c : Console)

theorem conclude_acts (i : Nat) (request : CommandRequest)
    (result : Except String EntitlementResponse) :
    ∃ actions, (c.conclude i request result).2.page = c.page.acts actions := by
  rcases conclude_page c i request result with h | h
  · exact ⟨[], h⟩
  · exact ⟨[.navigate Route.unauthorized], h⟩

theorem enforce_acts (result : Except String EntitlementResponse) :
    ∃ actions, (c.enforce result).2.page = c.page.acts actions := by
  rcases enforce_page c result with h | h
  · exact ⟨[], h⟩
  · exact ⟨[.navigate Route.unauthorized], h⟩

theorem perform_acts (task : Task) : ∃ actions, (c.perform s task).page = c.page.acts actions := by
  cases task with
  | reload => exact ⟨[.reload], rfl⟩
  | goHome => exact ⟨[.navigate Route.home], navigate_page c _⟩
  | submit request => exact ⟨[], submit_page c request s⟩
  | submitted result => exact ⟨[], rfl⟩
  | dispatch i request => exact ⟨[], rfl⟩
  | conclude i request result => exact conclude_acts c i request result
  | act actions => exact ⟨actions, rfl⟩

theorem pageLoaded_acts (i : Nat) : ∃ actions, (c.pageLoaded i).page = c.page.acts actions := by
  rw [pageLoaded_page]
  split
  · exact ⟨[.setChecked true], rfl⟩
  · exact ⟨[], rfl⟩

theorem toggle_acts (i : Nat) (checked : Bool) :
    ∃ actions, (c.toggle i checked).page = c.page.acts actions := by
  refine ⟨[.replace (if checked then "#" ++ autoReloadFragment else Route.home)], ?_⟩
  rw [toggle_page, Page.acts, List.foldl_cons, List.foldl_nil, Page.act]

end Console

/-! ### Moves -/

namespace World

variable {s : Server} {w : World} {m : Move} {ms : List Move}

/-- Whatever happens on a console, its page could do by itself. -/
theorem move_acts (s : Server) (w : World) (m : Move) :
    ∃ actions, (w.move s m).console.page = w.console.page.acts actions := by
  cases m with
  | resume j => exact Console.perform_acts s _ j.task
  | answer q =>
    obtain ⟨purpose, call, due, result⟩ := q
    cases purpose with
    | dispatch i request => exact Console.conclude_acts _ i request result
    | check => exact ⟨[], rfl⟩
    | enforce => exact Console.enforce_acts _ result
  | act actions => exact ⟨actions, rfl⟩
  | pageLoaded i => exact Console.pageLoaded_acts _ i
  | toggle i checked => exact Console.toggle_acts _ i checked
  | dropController i => exact ⟨[], Console.disarm_page _ i⟩
  | _ => exact ⟨[], rfl⟩

theorem rooted_run (h : w.console.page.location.Rooted) :
    (w.run s ms).console.page.location.Rooted := by
  induction ms generalizing w with
  | nil => exact h
  | cons m ms ih =>
    obtain ⟨actions, ha⟩ := move_acts s w m
    exact ih (ha ▸ Page.rooted_acts h actions)

end World

end ClusterConsole
