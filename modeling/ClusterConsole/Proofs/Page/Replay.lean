import ClusterConsole.Proofs.Page.Growth

/-! What the feed of a page tells. A reader who has all that was sent since the page was opened
knows its locations and its reloads without ever seeing the page, since every action sends
what it does. Only the check mark is not told. -/

namespace ClusterConsole

/-! ### Replaying events -/

/-- What events tell of a page: its locations, oldest first, and its reloads. -/
structure Journal where
  history : List Url
  reloads : Nat := 0
  deriving DecidableEq, Repr

namespace Journal

/-- The journal after an event. There is a last location to replace, and no other one can be
reloaded. -/
def replay? (j : Journal) : PageEvent → Option Journal
  | .navigated u => some { j with history := j.history ++ [u] }
  | .replaced u =>
    if j.history = [] then none else some { j with history := j.history.dropLast ++ [u] }
  | .reloaded u =>
    if j.history.getLast? = some u then some { j with reloads := j.reloads + 1 } else none

end Journal

/-! ### Single actions -/

namespace PageAction

def target? : PageAction → Option String
  | navigate target | replace target => some target
  | _ => none

/-- The event of an action at a location. A target that leads nowhere makes none. -/
def event? (location : Url) : PageAction → Option PageEvent
  | navigate target => (location.join target).toOption.map .navigated
  | replace target => (location.join target).toOption.map .replaced
  | reload => some (.reloaded location)
  | setChecked _ => none

/-- The action writes the check mark: it sets it, or a page that is loaded anew has none. -/
def writesMark (location : Url) : PageAction → Bool
  | navigate target => (location.join target).toOption.isSome
  | replace _ => false
  | reload => true
  | setChecked _ => true

end PageAction

namespace Page

variable {p : Page} {action : PageAction} {actions pre post : List PageAction} {target : String}
  {e : UrlError}

def journal (p : Page) : Journal := ⟨p.history, p.reloads⟩

@[simp] theorem acts_nil : p.acts [] = p := rfl

@[simp] theorem acts_cons : p.acts (action :: actions) = (p.act action).acts actions := rfl

theorem acts_append : p.acts (pre ++ post) = (p.acts pre).acts post := List.foldl_append

theorem history_ne_nil (p : Page) : p.history ≠ [] := by simp [history]

theorem getLast?_history (p : Page) : p.history.getLast? = some p.location := by simp [history]

theorem dropLast_history (p : Page) : p.history.dropLast = p.past := by simp [history]

/-- A target that leads nowhere changes nothing. -/
theorem act_of_refused (htarget : action.target? = some target)
    (hjoin : p.location.join target = .error e) : p.act action = p := by
  cases action with
  | navigate t =>
    obtain rfl : t = target := Option.some.inj htarget
    simp only [act, navigate, hjoin]
  | replace t =>
    obtain rfl : t = target := Option.some.inj htarget
    simp only [act, replace, hjoin]
  | reload => cases htarget
  | setChecked checked => cases htarget

/-- An action sends its event, which tells what becomes of the page. -/
theorem replay_act (p : Page) (action : PageAction) :
    (p.act action).feed.sent = p.feed.sent ++ (action.event? p.location).toList ∧
      (action.event? p.location).toList.foldlM Journal.replay? p.journal =
        some (p.act action).journal := by
  cases action with
  | navigate target =>
    cases hjoin : p.location.join target with
    | error e => simp [act, navigate, PageAction.event?, hjoin, Except.toOption]
    | ok u =>
      simp [act, navigate, PageAction.event?, hjoin, Except.toOption, Feed.send, Journal.replay?,
        journal, history]
  | replace target =>
    cases hjoin : p.location.join target with
    | error e => simp [act, replace, PageAction.event?, hjoin, Except.toOption]
    | ok u =>
      simp [act, replace, PageAction.event?, hjoin, Except.toOption, Feed.send, Journal.replay?,
        journal, history]
  | reload => simp [act, reload, PageAction.event?, Feed.send, Journal.replay?, journal, history]
  | setChecked checked => simp [act, setChecked, PageAction.event?, journal, history]

/-- The locations before the current one stay, and at most the current one joins them. -/
theorem past_act (p : Page) (action : PageAction) :
    (p.act action).past = p.past ∨ (p.act action).past = p.history := by
  cases action with
  | navigate target =>
    cases hjoin : p.location.join target with
    | error e => simp [act, navigate, hjoin]
    | ok u => simp [act, navigate, hjoin, history]
  | replace target =>
    cases hjoin : p.location.join target <;> simp [act, replace, hjoin]
  | reload => exact .inl rfl
  | setChecked checked => exact .inl rfl

/-- An action that does not write the check mark leaves it. -/
theorem checked_act (p : Page) (action : PageAction) : (p.act action).checked =
    if action.writesMark p.location then decide (action = .setChecked true) else p.checked := by
  cases action with
  | navigate target =>
    cases hjoin : p.location.join target <;>
      simp [act, navigate, PageAction.writesMark, hjoin, Except.toOption]
  | replace target =>
    cases hjoin : p.location.join target <;> simp [act, replace, PageAction.writesMark, hjoin]
  | reload => simp [act, reload, PageAction.writesMark]
  | setChecked checked => simp [act, setChecked, PageAction.writesMark]

/-! ### Runs of actions -/

/-- The events of actions that a page takes one after the other. -/
def events (p : Page) : List PageAction → List PageEvent
  | [] => []
  | action :: actions => (action.event? p.location).toList ++ events (p.act action) actions

/-- The actions that write the check mark, in their order. -/
def marking (p : Page) : List PageAction → List PageAction
  | [] => []
  | action :: actions =>
    if action.writesMark p.location then action :: marking (p.act action) actions
    else marking (p.act action) actions

theorem sent_acts (p : Page) (actions : List PageAction) :
    (p.acts actions).feed.sent = p.feed.sent ++ p.events actions := by
  induction actions generalizing p with
  | nil => simp [events]
  | cons action actions ih => rw [acts_cons, ih, (replay_act p action).1, events, List.append_assoc]

theorem replay_acts (p : Page) (actions : List PageAction) :
    (p.events actions).foldlM Journal.replay? p.journal = some (p.acts actions).journal := by
  induction actions generalizing p with
  | nil => rfl
  | cons action actions ih =>
    rw [events, List.foldlM_append, (replay_act p action).2]
    exact ih (p.act action)

theorem past_prefix_acts (p : Page) (actions : List PageAction) :
    p.past <+: (p.acts actions).past := by
  induction actions generalizing p with
  | nil => exact List.prefix_refl _
  | cons action actions ih =>
    apply List.IsPrefix.trans _ (ih (p.act action))
    rcases past_act p action with h | h
    · simp only [h, List.prefix_refl]
    · rw [h]
      exact List.prefix_append _ _

/-- The last action that writes the check mark decides. -/
theorem checked_acts (p : Page) (actions : List PageAction) :
    (p.acts actions).checked = (p.marking actions).getLast?.elim p.checked
      fun action => decide (action = .setChecked true) := by
  induction actions generalizing p with
  | nil => rfl
  | cons action actions ih =>
    rw [acts_cons, ih, marking, checked_act]
    split
    · rw [List.getLast?_cons]
      cases (marking (p.act action) actions).getLast? <;> rfl
    · rfl

/-- What a page that was opened at `u` shows after some actions. -/
structure Told (u : Url) (actions : List PageAction) : Prop where
  /-- All that was sent, replayed from the opening, gives history and reloads. -/
  replayed : ((Page.at u).acts actions).feed.sent.foldlM Journal.replay? ⟨[u], 0⟩ =
    some ⟨((Page.at u).acts actions).history, ((Page.at u).acts actions).reloads⟩
  /-- The history is never empty, and the page is at its last location. -/
  nonempty : ((Page.at u).acts actions).history ≠ []
  location : ((Page.at u).acts actions).history.getLast? =
    some ((Page.at u).acts actions).location
  /-- Every location but the last stays where it is. -/
  kept : ∀ pre post, actions = pre ++ post →
    ((Page.at u).acts pre).history.dropLast <+: ((Page.at u).acts actions).history.dropLast
  /-- A target that leads somewhere and a reload each make one event, a replacement by the same
  URL too. A target that leads nowhere and the check mark make none. -/
  sends : ∀ pre action post, actions = pre ++ action :: post →
    let before := (Page.at u).acts pre
    (before.act action).feed.sent = before.feed.sent ++ (action.event? before.location).toList
  /-- An action whose target leads nowhere leaves the page and its feed as they are. -/
  refused : ∀ pre action post target e, actions = pre ++ action :: post →
    action.target? = some target → ((Page.at u).acts pre).location.join target = .error e →
      ((Page.at u).acts pre).act action = (Page.at u).acts pre
  /-- The check mark is there exactly if it was set by the last action that writes it. -/
  checked : ((Page.at u).acts actions).checked = true ↔
    ((Page.at u).marking actions).getLast? = some (.setChecked true)

theorem told_acts (u : Url) (actions : List PageAction) : Told u actions where
  replayed := by
    have hsent := sent_acts (Page.at u) actions
    have hopened : (Page.at u).feed.sent = [] := rfl
    rw [hsent, hopened, List.nil_append]
    exact replay_acts (Page.at u) actions
  nonempty := history_ne_nil _
  location := getLast?_history _
  kept := by
    rintro pre post rfl
    rw [dropLast_history, dropLast_history, acts_append]
    exact past_prefix_acts _ post
  sends _ action _ _ := (replay_act _ action).1
  refused _ _ _ _ _ _ htarget hjoin := act_of_refused htarget hjoin
  checked := by
    have hopened : (Page.at u).checked = false := rfl
    rw [checked_acts, hopened]
    cases (marking (Page.at u) actions).getLast? <;> simp

end Page

end ClusterConsole
