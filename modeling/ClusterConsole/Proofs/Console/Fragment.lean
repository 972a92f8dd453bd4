import ClusterConsole.Proofs.Console.Homecoming
import ClusterConsole.Proofs.Console.Location

/-! What a page remembers of auto-reload. Its controllers share nothing but the fragment, which
the last one that was switched leaves behind: a page with a path takes it or goes home
without it. From a URL that has no path nothing leads home, so that once it has the fragment it
keeps it. -/

namespace ClusterConsole

/-! ### Switching -/

/-- What a switch of a controller asks the page for. -/
def switchTarget (checked : Bool) : String :=
  if checked then "#" ++ autoReloadFragment else Route.home

namespace Url

variable {u : Url}

/-- The location of a page on which a controller was switched. -/
def switched (u : Url) (checked : Bool) : Url := (u.join (switchTarget checked)).toOption.getD u

/-- The fragment is the one that keeps auto-reload on. -/
def isOn (u : Url) : Bool := u.fragmentText = some autoReloadFragment

/-- The page that is left when its controllers were switched one after the other. With a path the
last switch counts. Without one no switch off does. -/
def leftOn (u : Url) (switches : List Bool) : Bool :=
  if u.hasPath then switches.getLast?.getD u.isOn else u.isOn || switches.any id

theorem switched_true (u : Url) :
    u.switched true = { u with fragment := some autoReloadFragment.toList } := by
  unfold switched
  rw [show switchTarget true = "#" ++ autoReloadFragment from rfl, join_autoReload]
  rfl

theorem switched_false (h : u.hasPath = false) : u.switched false = u := by
  unfold switched
  rw [show switchTarget false = Route.home from rfl, join_home_rootless h]
  rfl

theorem hasPath_switched (u : Url) (checked : Bool) : (u.switched checked).hasPath = u.hasPath := by
  cases checked with
  | true =>
    rw [switched_true]
    rfl
  | false =>
    cases h : u.hasPath with
    | false => rw [switched_false h, h]
    | true =>
      obtain ⟨v, hjoin, hv, -⟩ := exists_join_home h
      rw [switched, show switchTarget false = Route.home from rfl, hjoin]
      exact hv

theorem isOn_switched_true (u : Url) : (u.switched true).isOn = true := by
  have htext : (u.switched true).fragmentText = some autoReloadFragment := by
    rw [switched_true, fragmentText, Option.map_some, String.ofList_toList]
  rw [isOn, htext]
  exact decide_eq_true rfl

theorem isOn_switched_false (h : u.hasPath = true) : (u.switched false).isOn = false := by
  obtain ⟨v, hjoin, -, hv⟩ := exists_join_home h
  have htext : (u.switched false).fragmentText = none := by
    rw [switched, show switchTarget false = Route.home from rfl, hjoin]
    show v.fragmentText = none
    rw [fragmentText, hv]
    rfl
  rw [isOn, htext]
  exact decide_eq_false nofun

theorem leftOn_cons (u : Url) (checked : Bool) (switches : List Bool) :
    (u.switched checked).leftOn switches = u.leftOn (checked :: switches) := by
  unfold leftOn
  rw [hasPath_switched]
  cases h : u.hasPath with
  | true =>
    have hon : (u.switched checked).isOn = checked := by
      cases checked with
      | true => exact isOn_switched_true u
      | false => exact isOn_switched_false h
    rw [if_pos rfl, if_pos rfl, List.getLast?_cons, hon]
    rfl
  | false =>
    have hon : (u.switched checked).isOn = (u.isOn || checked) := by
      cases checked with
      | true => rw [isOn_switched_true, Bool.or_true]
      | false => rw [switched_false h, Bool.or_false]
    rw [if_neg Bool.false_ne_true, if_neg Bool.false_ne_true, List.any_cons, hon, Bool.or_assoc]
    rfl

/-- What the switches leave behind is whether the fragment stands in the end. -/
theorem isOn_foldl (u : Url) (switches : List Bool) :
    (switches.foldl switched u).isOn = u.leftOn switches := by
  induction switches generalizing u with
  | nil =>
    unfold leftOn
    cases u.hasPath <;> simp
  | cons checked switches ih => rw [List.foldl_cons, ih, leftOn_cons]

end Url

theorem Page.replace_location (p : Page) (checked : Bool) :
    (p.replace (switchTarget checked)).location = p.location.switched checked := by
  unfold replace Url.switched
  cases p.location.join (switchTarget checked) <;> rfl

theorem Page.replace_past (p : Page) (target : String) : (p.replace target).past = p.past := by
  unfold replace
  cases p.location.join target <;> rfl

/-! ### Moves of controllers -/

namespace Move

/-- A move that only the controllers have a part in. -/
def OfControllers : Move → Prop
  | .wait _ | .addController _ | .pageLoaded _ | .toggle _ _ | .dropController _ => True
  | .resume ⟨_, _, .reload⟩ => True
  | _ => False

def switch? : Move → Option Bool
  | .toggle _ checked => some checked
  | _ => none

/-- The switches of a run, in their order. -/
def switches (ms : List Move) : List Bool := ms.filterMap switch?

end Move

namespace Console

variable (c : Console) (i : Nat)

theorem pageLoaded_location : (c.pageLoaded i).page.location = c.page.location := by
  rw [pageLoaded_page]
  split
  · rfl
  · rfl

theorem pageLoaded_past : (c.pageLoaded i).page.past = c.page.past := by
  rw [pageLoaded_page]
  split
  · rfl
  · rfl

/-- A controller that is switched says so. -/
theorem reloadState_toggle (hi : i < c.controllers.length) (checked : Bool) :
    (c.toggle i checked).reloadState i = if checked then .on else .off := by
  cases checked with
  | true => exact reloadState_setState _ i _ (by rwa [arm_length])
  | false => exact reloadState_setState _ i _ (by rwa [disarm_length])

end Console

namespace World

variable {s : Server} {w : World} {m : Move} {ms : List Move} {u : Url}

/-- Only a switch changes the location, and nothing the history before it. -/
theorem location_of_controllers (s : Server) (w : World) (hm : m.OfControllers) :
    (w.move s m).console.page.location =
        m.switch?.elim w.console.page.location w.console.page.location.switched ∧
      (w.move s m).console.page.past = w.console.page.past := by
  match m, hm with
  | .wait _, _ | .addController _, _ | .resume ⟨_, _, .reload⟩, _ => exact ⟨rfl, rfl⟩
  | .pageLoaded i, _ => exact ⟨Console.pageLoaded_location _ i, Console.pageLoaded_past _ i⟩
  | .dropController i, _ =>
    have hpage : (w.console.dropController i).page = w.console.page := Console.disarm_page _ i
    exact ⟨congrArg Page.location hpage, congrArg Page.past hpage⟩
  | .toggle i checked, _ =>
    have hpage : (w.move s (.toggle i checked)).console.page =
        w.console.page.replace (switchTarget checked) := Console.toggle_page _ i checked
    have hswitch : (Move.toggle i checked).switch? = some checked := rfl
    rw [hpage, Page.replace_location, Page.replace_past, hswitch, Option.elim_some]
    exact ⟨rfl, rfl⟩

theorem location_run (h : ∀ m ∈ ms, m.OfControllers) :
    (w.run s ms).console.page.location =
        (Move.switches ms).foldl Url.switched w.console.page.location ∧
      (w.run s ms).console.page.past = w.console.page.past := by
  induction ms generalizing w with
  | nil => exact ⟨rfl, rfl⟩
  | cons m ms ih =>
    obtain ⟨hlocation, hpast⟩ := location_of_controllers s w (h m List.mem_cons_self)
    obtain ⟨hlocation', hpast'⟩ := ih (w := w.move s m) fun x hx => h x (List.mem_cons_of_mem m hx)
    rw [run_cons, hlocation', hpast', hlocation, hpast]
    refine ⟨?_, rfl⟩
    unfold Move.switches
    cases hswitch : m.switch? with
    | none => rw [List.filterMap_cons_none hswitch, Option.elim_none]
    | some checked =>
      rw [List.filterMap_cons_some hswitch, List.foldl_cons, Option.elim_some]

theorem isOn_run (h : ∀ m ∈ ms, m.OfControllers) :
    (w.run s ms).console.page.location.isOn =
      w.console.page.location.leftOn (Move.switches ms) := by
  rw [(location_run h).1, Url.isOn_foldl]

/-! ### Fresh controllers -/

/-- The state that a fresh controller has once it is told that the page was loaded. -/
def freshState (w : World) (interval : Nat) : ReloadState :=
  ((w.console.addController interval).pageLoaded w.console.controllers.length).reloadState
    w.console.controllers.length

/-- A fresh controller is on exactly if the fragment says so. -/
theorem freshState_eq (w : World) (interval : Nat) :
    w.freshState interval = if w.console.page.location.isOn then .on else .off := by
  have hnew : (w.console.addController interval).controllers[w.console.controllers.length]? =
      some { interval } := List.getElem?_concat_length
  have hlt : w.console.controllers.length <
      (w.console.addController interval).controllers.length :=
    (List.getElem?_eq_some_iff.1 hnew).1
  have hpage : (w.console.addController interval).page.fragment = some autoReloadFragment ↔
      w.console.page.location.isOn = true := decide_eq_true_iff.symm
  unfold freshState Console.pageLoaded
  by_cases hon : w.console.page.location.isOn = true
  · rw [if_pos (hpage.2 hon), if_pos hon]
    exact Console.reloadState_setState _ _ _ (by rwa [Console.arm_length])
  · rw [if_neg (mt hpage.1 hon), if_neg hon, Console.reloadState, hnew]
    rfl

/-- What a run `ms` of its controllers alone leaves behind on a page that was opened at `u`. -/
structure LeavesBehind (s : Server) (u : Url) (ms : List Move) : Prop where
  /-- The fragment stands exactly if the switches leave the page on. -/
  fragment : ((ofPage (.at u)).run s ms).console.page.fragment = some autoReloadFragment ↔
    u.leftOn (Move.switches ms) = true
  /-- A fresh controller goes on with that. -/
  state : ∀ interval, ((ofPage (.at u)).run s ms).freshState interval =
    if u.leftOn (Move.switches ms) then .on else .off
  /-- So it takes over what the last switch said, unless that one was switched off
  on a page without a path that had the fragment before. -/
  fresh : ∀ pre i checked post interval, ms = pre ++ .toggle i checked :: post →
    Move.switches post = [] → i < ((ofPage (.at u)).run s pre).console.controllers.length →
      (((ofPage (.at u)).run s ms).freshState interval =
          (((ofPage (.at u)).run s pre).move s (.toggle i checked)).console.reloadState i ↔
        u.hasPath = true ∨ checked = true ∨ u.leftOn (Move.switches pre) = false)
  /-- No entry comes to the history. -/
  history : ((ofPage (.at u)).run s ms).console.page.history.length = 1

theorem leftOn_append (u : Url) (switches : List Bool) (checked : Bool) :
    u.leftOn (switches ++ [checked]) = (checked || !u.hasPath && u.leftOn switches) := by
  unfold Url.leftOn
  cases u.hasPath with
  | true => simp
  | false => cases checked <;> simp

theorem leavesBehind_run (h : ∀ m ∈ ms, m.OfControllers) : LeavesBehind s u ms := by
  have hon : ((ofPage (.at u)).run s ms).console.page.location.isOn =
      u.leftOn (Move.switches ms) := isOn_run h
  have hstate : ∀ interval, ((ofPage (.at u)).run s ms).freshState interval =
      if u.leftOn (Move.switches ms) then .on else .off := by
    intro interval
    rw [freshState_eq, hon]
  constructor
  case fragment =>
    rw [← hon]
    exact decide_eq_true_iff.symm
  case state => exact hstate
  case fresh =>
    rintro pre i checked post interval rfl hpost hi
    have hswitches : Move.switches (pre ++ .toggle i checked :: post) =
        Move.switches pre ++ [checked] := by
      have hswitch : (Move.toggle i checked).switch? = some checked := rfl
      unfold Move.switches at hpost ⊢
      rw [List.filterMap_append, List.filterMap_cons_some hswitch, hpost]
    have hreturned : (((ofPage (.at u)).run s pre).move s (.toggle i checked)).console.reloadState i =
        if checked then .on else .off := Console.reloadState_toggle _ i hi checked
    rw [hstate, hreturned, hswitches, leftOn_append]
    cases checked <;> cases u.hasPath <;> cases u.leftOn (Move.switches pre) <;> simp
  case history =>
    have hpast : ((ofPage (.at u)).run s ms).console.page.past = [] := (location_run h).2
    rw [Page.history, hpast]
    rfl

/-- A page that has no path. -/
def mailbox : Url := { scheme := "mailto".toList, path := .rootless "x".toList }

theorem open_mailbox : Page.open "mailto:x" = .ok (.at mailbox) :=
  Page.open_of_parse (by decide +kernel)

/-- A controller that is switched on and off again. -/
def switchedOff : List Move := [.addController 1, .toggle 0 true, .toggle 0 false]

theorem leavesBehind_run_mailbox :
    Page.open "mailto:x" = .ok (.at mailbox) ∧ mailbox.leftOn (Move.switches switchedOff) = true ∧
      LeavesBehind entitling mailbox switchedOff := by
  refine ⟨open_mailbox, by decide, leavesBehind_run fun m hm => ?_⟩
  rcases hm with _ | ⟨_, _ | ⟨_, _ | ⟨_, ⟨⟩⟩⟩⟩ <;> trivial

end World

end ClusterConsole
