import ClusterConsole.Proofs.Console.Denial
import ClusterConsole.Proofs.Console.Fragment
import ClusterConsole.Proofs.Page.Replay

/-! The places that a console leads its page to. It asks for few targets of its own accord, and
from a web address these lead in a circle: to the home page, to the page for those who are not
entitled, and to either of them or the address itself with auto-reload on. -/

namespace ClusterConsole

/-! ### Places -/

/-- A place that belongs to a URL: the URL itself, its home page, or the page for those who are
not entitled; each may be on. -/
inductive Url.Place (u : Url) : Url → Prop
  | opened : Place u u
  | openedOn : Place u { u with fragment := some autoReloadFragment.toList }
  | page {name : List Char} {fragment : Option (List Char)}
      (hname : name = [] ∨ name = "unauthorized".toList)
      (hfragment : fragment = none ∨ fragment = some autoReloadFragment.toList) :
      Place u { u.pageNamed name with fragment }

namespace Url.Place

variable {u v : Url}

/-- All places are on one server. -/
theorem site (h : u.Place v) : v.scheme = u.scheme ∧ v.authority = u.authority := by
  cases h <;> exact ⟨rfl, rfl⟩

theorem hasPath (h : u.Place v) (hu : u.hasPath = true) : v.hasPath = true := by
  cases h with
  | opened => exact hu
  | openedOn => exact hu
  | page => rfl

/-- A page with a name is the same from everywhere on its server. -/
theorem pageNamed (h : u.Place v) (name : List Char) : v.pageNamed name = u.pageNamed name := by
  simp only [Url.pageNamed, h.site]

theorem home (h : u.Place v) : u.Place (v.pageNamed []) := by
  rw [h.pageNamed]
  exact .page (.inl rfl) (.inl rfl)

theorem unauthorized (h : u.Place v) : u.Place (v.pageNamed "unauthorized".toList) := by
  rw [h.pageNamed]
  exact .page (.inr rfl) (.inl rfl)

theorem on (h : u.Place v) : u.Place { v with fragment := some autoReloadFragment.toList } := by
  cases h with
  | opened => exact .openedOn
  | openedOn => exact .openedOn
  | page hname hfragment => exact .page hname (.inr rfl)

end Url.Place

/-! ### What a console asks its page for -/

/-- What a console does to its page of its own accord. -/
inductive PageAction.Own : PageAction → Prop
  | home : Own (.navigate Route.home)
  | unauthorized : Own (.navigate Route.unauthorized)
  | switch (checked : Bool) : Own (.replace (switchTarget checked))
  | reload : Own .reload
  | setChecked (checked : Bool) : Own (.setChecked checked)

namespace Page

variable {p q r : Page} {u v : Url} {action : PageAction} {target : String}

/-- The console has led the page from one state to the other. -/
def Led (p q : Page) : Prop := ∃ actions, (∀ a ∈ actions, PageAction.Own a) ∧ q = p.acts actions

theorem Led.refl (p : Page) : p.Led p := ⟨[], nofun, rfl⟩

theorem Led.of_eq (h : q = p) : p.Led q := h ▸ .refl p

theorem Led.trans (h : p.Led q) (h' : q.Led r) : p.Led r := by
  obtain ⟨actions, hown, rfl⟩ := h
  obtain ⟨actions', hown', rfl⟩ := h'
  refine ⟨actions ++ actions', ?_, acts_append.symm⟩
  intro a ha
  exact (List.mem_append.1 ha).elim (hown a) (hown' a)

theorem led_act (p : Page) (h : action.Own) : p.Led (p.act action) :=
  ⟨[action], by simpa using h, rfl⟩

/-- Every location of the page is a place of the URL. -/
def Within (u : Url) (p : Page) : Prop := ∀ v ∈ p.history, u.Place v

theorem Within.location (h : p.Within u) : u.Place p.location := h _ (by simp [history])

theorem within_at (u : Url) : (Page.at u).Within u := by
  intro v hv
  obtain rfl : v = u := List.mem_singleton.1 hv
  exact .opened

theorem Within.navigate (h : p.Within u) (hjoin : p.location.join target = .ok v)
    (hv : u.Place v) : (p.navigate target).Within u := by
  obtain ⟨hlocation, hpast⟩ := navigate_of_join hjoin
  intro w hw
  rw [history, hlocation, hpast] at hw
  rcases List.mem_append.1 hw with hold | hnew
  · exact h w hold
  · exact List.mem_singleton.1 hnew ▸ hv

theorem Within.replace (h : p.Within u) (hv : u.Place (p.replace target).location) :
    (p.replace target).Within u := by
  intro w hw
  rw [history, replace_past] at hw
  rcases List.mem_append.1 hw with hold | hnew
  · exact h w (List.mem_append_left _ hold)
  · exact List.mem_singleton.1 hnew ▸ hv

/-- What the console asks for leads from place to place. -/
theorem Within.act (h : p.Within u) (hu : u.hasPath = true) (hfile : isFileScheme u.scheme = false)
    (hown : action.Own) : (p.act action).Within u := by
  obtain ⟨segments, hpath⟩ := Url.hasPath_iff.1 (h.location.hasPath hu)
  have hscheme : isFileScheme p.location.scheme = false := by rwa [h.location.site.1]
  cases hown with
  | home =>
    show (p.navigate Route.home).Within u
    exact h.navigate (Url.join_home hpath hscheme) h.location.home
  | unauthorized =>
    show (p.navigate Route.unauthorized).Within u
    exact h.navigate (Url.join_unauthorized hpath hscheme) h.location.unauthorized
  | switch checked =>
    show (p.replace (switchTarget checked)).Within u
    apply h.replace
    rw [replace_location]
    cases checked with
    | true =>
      rw [Url.switched_true]
      exact h.location.on
    | false =>
      have hhome : p.location.switched false = p.location.pageNamed [] := by
        rw [Url.switched, show switchTarget false = Route.home from rfl,
          Url.join_home hpath hscheme]
        rfl
      rw [hhome]
      exact h.location.home
  | reload => exact h
  | setChecked checked => exact h

theorem Within.led (h : p.Within u) (hu : u.hasPath = true) (hfile : isFileScheme u.scheme = false)
    (hled : p.Led q) : q.Within u := by
  obtain ⟨actions, hown, rfl⟩ := hled
  induction actions generalizing p with
  | nil => exact h
  | cons action actions ih =>
    apply ih (h.act hu hfile (hown action List.mem_cons_self))
    intro a ha
    exact hown a (List.mem_cons_of_mem action ha)

end Page

/-! ### Operations -/

namespace Console

variable (s : Server) (c : Console)

theorem led_conclude (i : Nat) (request : CommandRequest)
    (result : Except String EntitlementResponse) :
    c.page.Led (c.conclude i request result).2.page := by
  rcases conclude_page c i request result with h | h
  · exact .of_eq h
  · rw [h]
    exact Page.led_act _ .unauthorized

theorem led_enforce (result : Except String EntitlementResponse) :
    c.page.Led (c.enforce result).2.page := by
  rcases enforce_page c result with h | h
  · exact .of_eq h
  · rw [h]
    exact Page.led_act _ .unauthorized

theorem led_pageLoaded (i : Nat) : c.page.Led (c.pageLoaded i).page := by
  rw [pageLoaded_page]
  split
  · exact Page.led_act _ (.setChecked true)
  · exact .refl _

theorem led_toggle (i : Nat) (checked : Bool) : c.page.Led (c.toggle i checked).page := by
  have hreplace : c.page.Led (c.page.act (.replace (switchTarget checked))) :=
    Page.led_act _ (.switch checked)
  rw [toggle_page]
  exact hreplace

end Console

/-! ### Moves -/

/-- Somebody else acts on the page, now or at a time that was planned. -/
def Move.Foreign : Move → Prop
  | .act _ | .plan _ _ | .resume ⟨_, _, .act _⟩ => True
  | _ => False

namespace World

variable {s : Server} {w : World} {m : Move} {ms : List Move}

theorem led_resume {j : Job Task} (h : ¬ (Move.resume j).Foreign) :
    w.console.page.Led (w.move s (.resume j)).console.page := by
  obtain ⟨id, due, task⟩ := j
  simp only [move, Console.resume]
  cases task with
  | reload => exact Page.led_act _ .reload
  | goHome =>
    rw [Console.perform, Console.navigate_page]
    exact Page.led_act _ .home
  | submit request =>
    rw [Console.perform, Console.submit_page]
    exact .refl _
  | conclude i request result => exact Console.led_conclude _ i request result
  | act actions => exact absurd trivial h
  | _ => exact .refl _

/-- Unless somebody else acts, the console leads its page. -/
theorem led_move (h : ¬ m.Foreign) : w.console.page.Led (w.move s m).console.page := by
  cases m with
  | resume j => exact led_resume h
  | answer q =>
    obtain ⟨purpose, call, due, result⟩ := q
    cases purpose with
    | dispatch i request => exact Console.led_conclude _ i request result
    | check => exact .refl _
    | enforce => exact Console.led_enforce _ result
  | act actions => exact absurd trivial h
  | plan delay actions => exact absurd trivial h
  | pageLoaded i => exact Console.led_pageLoaded _ i
  | toggle i checked => exact Console.led_toggle _ i checked
  | dropController i => exact .of_eq (Console.disarm_page _ i)
  | _ => exact .refl _

theorem led_run (h : ∀ m ∈ ms, ¬ m.Foreign) : w.console.page.Led (w.run s ms).console.page := by
  induction ms generalizing w with
  | nil => exact .refl _
  | cons m ms ih =>
    apply (led_move (h m List.mem_cons_self)).trans
    apply ih
    intro x hx
    exact h x (List.mem_cons_of_mem m hx)

end World

end ClusterConsole
