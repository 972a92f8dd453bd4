import Mathlib.Data.List.Induction
import ClusterConsole.Form.Editing
import ClusterConsole.Proofs.Form.Document

/-! What editing does to the forms of a document. Forms are only appended, and an edit changes at
most one of them: the first with its identifier. Its classes grow at the end, and the mark of a
validated form is on exactly those that somebody marked. Several guards may be about, each
installed at a time of its own, so that the edits of a run are given with their guards. -/

namespace ClusterConsole

namespace Edit

/-- The identifier of the form that an edit is for. -/
def form? : Edit → Option FormId
  | submit id => some id
  | intercept id _ => some id
  | addClass id _ => some id
  | setValue id _ _ => some id
  | _ => none

/-- What an edit does to its form. -/
def change : Edit → Form → Form
  | submit _, f => f.addClass wasValidated
  | intercept _ _, f => f.addClass wasValidated
  | addClass _ name, f => f.addClass name
  | setValue _ field value, f => f.setValue field value
  | _, f => f

/-- The form that is appended got its classes one after the other. -/
def Built : Edit → Prop
  | addForm f => f.Built
  | _ => True

variable {e : Edit} {f : Form}

@[simp] theorem change_id : (e.change f).id = f.id := by cases e <;> simp [change, Form.setValue]

theorem prefix_change (e : Edit) (f : Form) : f.classes <+: (e.change f).classes := by
  cases e with
  | submit id => exact f.prefix_addClass wasValidated
  | intercept id event => exact f.prefix_addClass wasValidated
  | addClass id name => exact f.prefix_addClass name
  | _ => exact List.prefix_refl _

theorem nodup_change (h : f.classes.Nodup) (e : Edit) : (e.change f).classes.Nodup := by
  cases e with
  | submit id => exact Form.nodup_addClass h wasValidated
  | intercept id event => exact Form.nodup_addClass h wasValidated
  | addClass id name => exact Form.nodup_addClass h name
  | _ => exact h

end Edit

namespace Document

variable {d d₀ : Document} {g : FormGuard} {e : Edit} {id : FormId} {f f' : Form} {i k : Nat}
  {es es' : List (FormGuard × Edit)}

/-! ### One edit -/

/-- The form at a position is the first with the identifier. -/
def First (d : Document) (id : FormId) (i : Nat) (f : Form) : Prop :=
  FirstAt (·.id == id) d.forms i f

/-- An edit under a guard. -/
def edited (d : Document) (g : FormGuard) (e : Edit) : Document :=
  ((⟨d, g⟩ : Editor).apply e).1.document

/-- The edit gets at the form at a position. A submission does if the guard guards it. -/
def Reaches (d : Document) (g : FormGuard) (e : Edit) (i : Nat) : Prop :=
  ∃ id f, e.form? = some id ∧ d.First id i f ∧ (e = .submit id → g.guards id = true)

/-- What an edit may make of the forms. -/
inductive Change (d : Document) (g : FormGuard) : Edit → List Form → Prop
  | none {e : Edit} (hnew : ∀ f, e ≠ .addForm f) (h : ∀ i, ¬ d.Reaches g e i) :
      Change d g e d.forms
  | new (f : Form) : Change d g (.addForm f) (d.forms ++ [f])
  | one {e : Edit} {i : Nat} {f : Form} (hf : d.forms[i]? = some f) (h : d.Reaches g e i) :
      Change d g e (d.forms.set i (e.change f))

theorem First.id_eq (h : d.First id i f) : f.id = id := by simpa using h.holds

/-- An edit reaches one form at most. -/
theorem Reaches.unique (h : d.Reaches g e i) (h' : d.Reaches g e k) : i = k := by
  obtain ⟨id, f, he, hfirst, -⟩ := h
  obtain ⟨id', f', he', hfirst', -⟩ := h'
  obtain rfl : id = id' := Option.some.inj (he.symm.trans he')
  exact (hfirst.unique hfirst').1

theorem not_reaches_of_none (hid : e.form? = some id) (h : d.form? id = none) (i : Nat) :
    ¬ d.Reaches g e i := by
  rintro ⟨id', f, he, hfirst, -⟩
  obtain rfl : id = id' := Option.some.inj (hid.symm.trans he)
  have hfind : d.form? id = some f := hfirst.find?
  rw [h] at hfind
  cases hfind

theorem change_onForm {s : Editor} {result : Form → EditResult} (hid : e.form? = some id)
    (hsubmit : ∀ id, e ≠ .submit id) (hnew : ∀ f, e ≠ .addForm f) :
    s.document.Change g e (s.onForm id e.change result).1.document.forms := by
  unfold Editor.onForm
  split
  · next hnone => exact .none hnew (not_reaches_of_none hid hnone)
  · next f hsome =>
    obtain ⟨i, hfirst⟩ := exists_firstAt hsome
    have hforms : (s.document.modifyForm id e.change).forms = s.document.forms.set i (e.change f) :=
      hfirst.modifyFirst_eq
    dsimp only
    rw [hforms]
    exact .one hfirst.here ⟨id, f, hid, hfirst, fun he => absurd he (hsubmit id)⟩

theorem change_edited (d : Document) (g : FormGuard) (e : Edit) :
    d.Change g e (d.edited g e).forms := by
  cases e with
  | install => exact .none nofun (by rintro i ⟨id, f, ⟨⟩, -⟩)
  | addForm f => exact .new f
  | intercept id event => exact change_onForm (s := ⟨d, g⟩) rfl nofun nofun
  | addClass id name => exact change_onForm (s := ⟨d, g⟩) rfl nofun nofun
  | setValue id field value => exact change_onForm (s := ⟨d, g⟩) rfl nofun nofun
  | submit id =>
    simp only [edited, Editor.apply, FormGuard.submit]
    cases hform : d.form? id with
    | none => exact .none nofun (not_reaches_of_none rfl hform)
    | some f =>
      obtain ⟨i, hfirst⟩ := exists_firstAt hform
      cases hguards : g.guards id with
      | true =>
        have hforms : (d.modifyForm id fun f => (FormGuard.intercept f {}).1).forms =
            d.forms.set i (f.addClass wasValidated) := hfirst.modifyFirst_eq
        simp only [if_true, hforms]
        exact .one (e := .submit id) hfirst.here ⟨id, f, rfl, hfirst, fun _ => hguards⟩
      | false =>
        simp only [Bool.false_eq_true, if_false]
        refine .none nofun ?_
        rintro k ⟨id', f', ⟨⟩, -, hyes⟩
        rw [hyes rfl] at hguards
        cases hguards

/-- A form that is there stays, changed or not. -/
theorem getElem?_edited (h : d.forms[i]? = some f) :
    d.Reaches g e i ∧ (d.edited g e).forms[i]? = some (e.change f) ∨
      ¬ d.Reaches g e i ∧ (d.edited g e).forms[i]? = some f := by
  have hlt : i < d.forms.length := (List.getElem?_eq_some_iff.1 h).1
  have hchange := change_edited d g e
  generalize (d.edited g e).forms = forms at hchange
  cases hchange with
  | none hnew hno => exact .inr ⟨hno i, h⟩
  | new f' =>
    refine .inr ⟨?_, ?_⟩
    · rintro ⟨id, f, ⟨⟩, -⟩
    · rw [List.getElem?_append_left hlt, h]
  | @one _ k f' hf' hreaches =>
    by_cases hik : i = k
    · subst hik
      obtain rfl : f = f' := Option.some.inj (h.symm.trans hf')
      exact .inl ⟨hreaches, List.getElem?_set_self hlt⟩
    · refine .inr ⟨fun hi => hik (hi.unique hreaches), ?_⟩
      rw [List.getElem?_set_ne (Ne.symm hik), h]

/-- A form that was not there is the one that is appended. -/
theorem exists_of_edited (h : (d.edited g e).forms[i]? = some f') :
    (∃ f, d.forms[i]? = some f) ∨ i = d.forms.length ∧ e = .addForm f' := by
  have hchange := change_edited d g e
  generalize (d.edited g e).forms = forms at hchange h
  cases hchange with
  | none hnew hno => exact .inl ⟨f', h⟩
  | new f =>
    rw [List.getElem?_append] at h
    split at h
    · exact .inl ⟨f', h⟩
    · next hle =>
      obtain ⟨hi, rfl⟩ := List.getElem?_eq_some_iff.1 h
      rw [List.length_singleton] at hi
      exact .inr ⟨by omega, by simp⟩
  | @one _ k f hf hreaches =>
    have hlt : i < d.forms.length := by
      have := (List.getElem?_eq_some_iff.1 h).1
      rwa [List.length_set] at this
    exact .inl ⟨d.forms[i], List.getElem?_eq_getElem hlt⟩

/-! ### Marks -/

/-- By the edit somebody marks the form at a position: it gets the class from a caller, it is
intercepted, or a guarded submission gets to it. -/
def Marks (d : Document) (g : FormGuard) (i : Nat) : Edit → Prop
  | .submit id => g.guards id = true ∧ ∃ f, d.First id i f
  | .intercept id _ => ∃ f, d.First id i f
  | .addClass id name => name = wasValidated ∧ ∃ f, d.First id i f
  | .addForm f => i = d.forms.length ∧ wasValidated ∈ f.classes
  | _ => False

/-- An edit that gets at a form leaves the mark on it that was there or that it makes. -/
theorem mem_change (h : d.Reaches g e i) :
    wasValidated ∈ (e.change f).classes ↔ wasValidated ∈ f.classes ∨ d.Marks g i e := by
  obtain ⟨id, f₁, he, hfirst, hguards⟩ := h
  cases e with
  | install => cases he
  | addForm f₂ => cases he
  | submit id' =>
    cases he
    exact iff_of_true (Form.mem_addClass.2 (.inr rfl)) (.inr ⟨hguards rfl, f₁, hfirst⟩)
  | intercept id' event =>
    cases he
    exact iff_of_true (Form.mem_addClass.2 (.inr rfl)) (.inr ⟨f₁, hfirst⟩)
  | addClass id' name =>
    cases he
    have hmarks : wasValidated = name ↔ d.Marks g i (.addClass id name) :=
      ⟨fun hname => ⟨hname.symm, f₁, hfirst⟩, fun hm => hm.1.symm⟩
    rw [Edit.change, Form.mem_addClass, hmarks]
  | setValue id' field value => exact (or_iff_left fun hno : False => hno).symm

/-- An edit marks a form that it gets at, or the one that it appends. -/
theorem Marks.reaches_or (h : d.Marks g i e) : d.Reaches g e i ∨
    ∃ f, e = .addForm f ∧ i = d.forms.length ∧ wasValidated ∈ f.classes := by
  cases e with
  | install => exact h.elim
  | addForm f => exact .inr ⟨f, rfl, h⟩
  | submit id =>
    obtain ⟨hguards, f, hfirst⟩ := h
    exact .inl ⟨id, f, rfl, hfirst, fun _ => hguards⟩
  | intercept id event =>
    obtain ⟨f, hfirst⟩ := h
    exact .inl ⟨id, f, rfl, hfirst, nofun⟩
  | addClass id name =>
    obtain ⟨-, f, hfirst⟩ := h
    exact .inl ⟨id, f, rfl, hfirst, nofun⟩
  | setValue id field value => exact h.elim

/-- The form at a position is marked. -/
def IsMarked (d : Document) (i : Nat) : Prop :=
  ∃ f, d.forms[i]? = some f ∧ wasValidated ∈ f.classes

theorem isMarked_iff (h : d.forms[i]? = some f) : d.IsMarked i ↔ wasValidated ∈ f.classes := by
  simp [IsMarked, h]

theorem isMarked_edited : (d.edited g e).IsMarked i ↔ d.IsMarked i ∨ d.Marks g i e := by
  cases hform : d.forms[i]? with
  | some f =>
    have hlt : i < d.forms.length := (List.getElem?_eq_some_iff.1 hform).1
    rw [isMarked_iff hform]
    rcases getElem?_edited (g := g) (e := e) hform with ⟨hreaches, hnew⟩ | ⟨hno, hold⟩
    · rw [isMarked_iff hnew]
      exact mem_change hreaches
    · rw [isMarked_iff hold]
      refine (or_iff_left fun hmarks => ?_).symm
      rcases hmarks.reaches_or with hreaches | ⟨f', -, hi, -⟩
      · exact hno hreaches
      · omega
  | none =>
    have hle : d.forms.length ≤ i := List.getElem?_eq_none_iff.1 hform
    have hbefore : ¬ d.IsMarked i := by simp [IsMarked, hform]
    rw [or_iff_right hbefore]
    constructor
    · rintro ⟨f', hf', hmem⟩
      rcases exists_of_edited hf' with ⟨f, hf⟩ | ⟨hi, rfl⟩
      · rw [hform] at hf
        cases hf
      · exact ⟨hi, hmem⟩
    · intro hmarks
      rcases hmarks.reaches_or with ⟨id, f, -, hfirst, -⟩ | ⟨f, rfl, rfl, hmem⟩
      · have hf := hfirst.here
        rw [hform] at hf
        cases hf
      · exact ⟨f, List.getElem?_concat_length, hmem⟩

/-! ### Runs -/

/-- The document after edits, each under the guard that is given with it. -/
def after (d : Document) (es : List (FormGuard × Edit)) : Document :=
  es.foldl (fun d step => d.edited step.1 step.2) d

@[simp] theorem after_nil : d.after [] = d := rfl

theorem after_append : d.after (es ++ es') = (d.after es).after es' := List.foldl_append

theorem after_concat : d.after (es ++ [(g, e)]) = (d.after es).edited g e := after_append

/-- Somebody marked the form at a position, before the edits or by one of them. -/
def Marked (d₀ : Document) (es : List (FormGuard × Edit)) (i : Nat) : Prop :=
  d₀.IsMarked i ∨ ∃ pre g e post, es = pre ++ (g, e) :: post ∧ (d₀.after pre).Marks g i e

theorem marked_concat :
    d₀.Marked (es ++ [(g, e)]) i ↔ d₀.Marked es i ∨ (d₀.after es).Marks g i e := by
  constructor
  · rintro (hbefore | ⟨pre, g', e', post, hsplit, hmarks⟩)
    · exact .inl (.inl hbefore)
    · rcases List.eq_nil_or_concat post with rfl | ⟨post, last, rfl⟩
      · obtain ⟨rfl, hlast⟩ := List.append_inj' hsplit rfl
        cases hlast
        exact .inr hmarks
      · rw [List.concat_eq_append, ← List.cons_append, ← List.append_assoc] at hsplit
        exact .inl (.inr ⟨pre, g', e', post, (List.append_inj' hsplit rfl).1, hmarks⟩)
  · rintro ((hbefore | ⟨pre, g', e', post, rfl, hmarks⟩) | hmarks)
    · exact .inl hbefore
    · exact .inr ⟨pre, g', e', post ++ [(g, e)], by simp, hmarks⟩
    · exact .inr ⟨es, g, e, [], rfl, hmarks⟩

/-- The mark is on a form exactly if somebody marked it. -/
theorem isMarked_after (d₀ : Document) (es : List (FormGuard × Edit)) (i : Nat) :
    (d₀.after es).IsMarked i ↔ d₀.Marked es i := by
  induction es using List.reverseRecOn with
  | nil => simp [Marked]
  | append_singleton es step ih =>
    obtain ⟨g, e⟩ := step
    rw [after_concat, isMarked_edited, marked_concat, ih]

/-- A form stays, and its classes grow at the end. -/
theorem exists_after (h : d.forms[i]? = some f) (es : List (FormGuard × Edit)) :
    ∃ f', (d.after es).forms[i]? = some f' ∧ f'.id = f.id ∧ f.classes <+: f'.classes := by
  induction es using List.reverseRecOn with
  | nil => exact ⟨f, h, rfl, List.prefix_refl _⟩
  | append_singleton es step ih =>
    obtain ⟨g, e⟩ := step
    obtain ⟨f₁, hf₁, hid, hprefix⟩ := ih
    rw [after_concat]
    rcases getElem?_edited (g := g) (e := e) hf₁ with ⟨-, hnew⟩ | ⟨-, hold⟩
    · exact ⟨_, hnew, e.change_id.trans hid, hprefix.trans (e.prefix_change f₁)⟩
    · exact ⟨f₁, hold, hid, hprefix⟩

/-- No class stands twice on a form. -/
theorem nodup_after (h : ∀ f ∈ d₀.forms, f.Built) (hes : ∀ step ∈ es, step.2.Built) :
    ∀ f ∈ (d₀.after es).forms, f.classes.Nodup := by
  induction es using List.reverseRecOn with
  | nil => exact fun f hf => (h f hf).nodup
  | append_singleton es step ih =>
    obtain ⟨g, e⟩ := step
    replace ih := ih fun step hstep => hes step (List.mem_append_left _ hstep)
    intro f hf
    rw [after_concat] at hf
    obtain ⟨i, hi⟩ := List.mem_iff_getElem?.1 hf
    rcases exists_of_edited hi with ⟨f₁, hf₁⟩ | ⟨-, rfl⟩
    · have hnodup : f₁.classes.Nodup := ih f₁ (List.mem_of_getElem? hf₁)
      rcases getElem?_edited (g := g) (e := e) hf₁ with ⟨-, hnew⟩ | ⟨-, hold⟩
      · obtain rfl : e.change f₁ = f := Option.some.inj (hnew.symm.trans hi)
        exact Edit.nodup_change hnodup e
      · obtain rfl : f₁ = f := Option.some.inj (hold.symm.trans hi)
        exact hnodup
    · have hbuilt : f.Built := hes (g, .addForm f) (by simp)
      exact hbuilt.nodup

end Document

namespace FormGuard

variable {g : FormGuard} {f : Form} {id : FormId}

/-! ### Submissions -/

theorem guards_install {d : Document} : (install d).guards id = true ↔
    ∃ f ∈ d.forms, f.id = id ∧ needsValidation ∈ f.classes := by
  simp [install, guards, Form.hasClass_iff, and_assoc, and_comm]

/-- What a submission leaves of the form that it gets at. -/
def submitted (g : FormGuard) (f : Form) : Form :=
  { f with classes :=
      if g.guards f.id = true ∧ wasValidated ∉ f.classes then f.classes ++ [wasValidated]
      else f.classes }

theorem submitted_of_guarded (h : g.guards f.id = true) :
    g.submitted f = f.addClass wasValidated := by
  rw [submitted, Form.addClass_eq]
  by_cases hmem : wasValidated ∈ f.classes <;> simp [h, hmem]

theorem submitted_of_unguarded (h : g.guards f.id = false) : g.submitted f = f := by
  simp [submitted, h]

theorem submitted_submitted (g : FormGuard) (f : Form) :
    g.submitted (g.submitted f) = g.submitted f := by
  cases h : g.guards f.id with
  | true =>
    have h' : g.guards (f.addClass wasValidated).id = true := by rwa [Form.addClass_id]
    rw [submitted_of_guarded h, submitted_of_guarded h', Form.addClass_addClass]
  | false => rw [submitted_of_unguarded h, submitted_of_unguarded h]

/-- The event of a submission. -/
def verdict (g : FormGuard) (f : Form) : SubmitEvent where
  defaultPrevented := g.guards f.id && !f.isValid
  propagationStopped := g.guards f.id && !f.isValid

theorem verdict_submitted (g : FormGuard) (f : Form) : g.verdict (g.submitted f) = g.verdict f :=
  rfl

/-- Validating a form never clears what was set on the event. -/
theorem judge_flags (f : Form) (e : SubmitEvent) :
    ((judge f e).defaultPrevented = true ↔ e.defaultPrevented = true ∨ f.Invalid) ∧
      ((judge f e).propagationStopped = true ↔ e.propagationStopped = true ∨ f.Invalid) := by
  rw [← Form.isValid_eq_false_iff]
  unfold judge
  cases f.isValid <;> simp

end FormGuard

namespace Editor

variable {s : Editor} {id : FormId} {f : Form} {i : Nat}

theorem submit_unknown (h : ∀ f ∈ s.document.forms, f.id ≠ id) :
    s.apply (.submit id) = (s, .unknownForm (.unknownForm id.text)) := by
  have hnone : s.document.form? id = none := by
    refine List.find?_eq_none.2 fun f hf => ?_
    simpa using h f hf
  simp only [apply, FormGuard.submit, hnone]

theorem submit_first (h : s.document.First id i f) : s.apply (.submit id) =
    ({ s with document := ⟨s.document.forms.set i (s.guard.submitted f)⟩ },
      .event (s.guard.verdict f)) := by
  have hsome : s.document.form? id = some f := h.find?
  obtain rfl : f.id = id := h.id_eq
  simp only [apply, FormGuard.submit, hsome]
  cases hguards : s.guard.guards f.id with
  | true =>
    have hforms : (s.document.modifyForm f.id fun f => f.addClass wasValidated) =
        ⟨s.document.forms.set i (f.addClass wasValidated)⟩ :=
      congrArg Document.mk h.modifyFirst_eq
    have hevent : FormGuard.judge f {} = s.guard.verdict f := by
      unfold FormGuard.judge FormGuard.verdict
      rw [hguards]
      cases f.isValid <;> rfl
    simp only [if_true, FormGuard.intercept, hforms, FormGuard.submitted_of_guarded hguards,
      hevent]
  | false =>
    have hforms : s.document.forms.set i f = s.document.forms := by
      obtain ⟨hlt, hf⟩ := List.getElem?_eq_some_iff.1 h.here
      rw [← hf, List.set_getElem_self]
    have hevent : s.guard.verdict f = {} := by simp [FormGuard.verdict, hguards]
    simp only [Bool.false_eq_true, if_false, FormGuard.submitted_of_unguarded hguards, hforms,
      hevent]

/-- A submission that is repeated at once comes to the same and changes nothing. -/
theorem submit_submit (s : Editor) (id : FormId) :
    (s.apply (.submit id)).1.apply (.submit id) = s.apply (.submit id) := by
  cases hform : s.document.form? id with
  | none =>
    have hno : ∀ f ∈ s.document.forms, f.id ≠ id := by
      intro f hf
      simpa using List.find?_eq_none.1 hform f hf
    rw [submit_unknown hno]
    exact submit_unknown hno
  | some f =>
    obtain ⟨i, hfirst⟩ := exists_firstAt hform
    have hagain : (⟨⟨s.document.forms.set i (s.guard.submitted f)⟩, s.guard⟩ : Editor).document.First
        id i (s.guard.submitted f) := FirstAt.set hfirst hfirst.holds
    rw [submit_first hfirst, submit_first hagain]
    simp only [List.set_set, FormGuard.submitted_submitted, FormGuard.verdict_submitted]

/-! ### The law -/

/-- The edits of an editor, one after the other. -/
def run (s : Editor) (es : List Edit) : Editor := es.foldl (fun s e => (s.apply e).1) s

/-- The edits with the guards that the editor has when their turn comes. -/
def withGuards : Editor → List Edit → List (FormGuard × Edit)
  | _, [] => []
  | s, e :: es => (s.guard, e) :: withGuards (s.apply e).1 es

theorem run_document (s : Editor) (es : List Edit) :
    (s.run es).document = s.document.after (s.withGuards es) := by
  induction es generalizing s with
  | nil => rfl
  | cons e es ih => exact ih (s.apply e).1

end Editor

/-- The law of a document that is edited under guards. -/
structure Document.Guarded (d₀ : Document) : Prop where
  /-- No class stands twice on a form if classes are only ever added. -/
  distinct : ∀ es : List (FormGuard × Edit), (∀ step ∈ es, step.2.Built) →
    ∀ f ∈ (d₀.after es).forms, f.classes.Nodup
  /-- Forms stay, and their classes grow at the end. -/
  grows : ∀ (es es' : List (FormGuard × Edit)) (i : Nat) (f : Form),
    (d₀.after es).forms[i]? = some f → ∃ f' : Form,
      (d₀.after (es ++ es')).forms[i]? = some f' ∧ f'.id = f.id ∧ f.classes <+: f'.classes
  /-- A new guard guards the forms that are to be validated when it is installed. -/
  installs : ∀ (es : List (FormGuard × Edit)) (g : FormGuard) (id : FormId),
    let s := ((⟨d₀.after es, g⟩ : Editor).apply .install).1
    s.document = d₀.after es ∧
      (s.guard.guards id = true ↔ ∃ f ∈ (d₀.after es).forms, f.id = id ∧ needsValidation ∈ f.classes)
  /-- A submission of what no form is fails. -/
  unknown : ∀ (es : List (FormGuard × Edit)) (g : FormGuard) (id : FormId),
    (∀ f ∈ (d₀.after es).forms, f.id ≠ id) →
    (⟨d₀.after es, g⟩ : Editor).apply (.submit id) =
      (⟨d₀.after es, g⟩, .unknownForm (.unknownForm id.text))
  /-- Any other submission gets at the first form with the identifier, and at most marks it. It is
  stopped exactly if that form is guarded and not valid. -/
  submits : ∀ (es : List (FormGuard × Edit)) (g : FormGuard) (id : FormId) (i : Nat) (f : Form),
    (d₀.after es).First id i f →
    ∃ event, (⟨d₀.after es, g⟩ : Editor).apply (.submit id) =
        (⟨⟨(d₀.after es).forms.set i (g.submitted f)⟩, g⟩, .event event) ∧
      (event.defaultPrevented = true ↔ g.guards id = true ∧ f.Invalid) ∧
      (event.propagationStopped = true ↔ g.guards id = true ∧ f.Invalid)
  /-- Repeated at once it comes to the same, and changes nothing. -/
  again : ∀ (es : List (FormGuard × Edit)) (g : FormGuard) (id : FormId),
    let s := (⟨d₀.after es, g⟩ : Editor).apply (.submit id)
    s.1.apply (.submit id) = s
  /-- Validating a form sets what is to be set on an event, and clears nothing. -/
  flags : ∀ (f : Form) (e : SubmitEvent), let e' := (FormGuard.intercept f e).2
    (e'.defaultPrevented = true ↔ e.defaultPrevented = true ∨ f.Invalid) ∧
      (e'.propagationStopped = true ↔ e.propagationStopped = true ∨ f.Invalid)
  /-- The mark is on a form exactly if somebody marked it. -/
  marked : ∀ (es : List (FormGuard × Edit)) (i : Nat),
    (d₀.after es).IsMarked i ↔ d₀.Marked es i
  /-- The edits of an editor are some under guards. -/
  own : ∀ (g : FormGuard) (es : List Edit), ((⟨d₀, g⟩ : Editor).run es).document =
    d₀.after ((⟨d₀, g⟩ : Editor).withGuards es)

/-- A document whose classes were added obeys the law. -/
theorem Document.guarded_of_built {d₀ : Document} (h : ∀ f ∈ d₀.forms, f.Built) : d₀.Guarded := by
  constructor
  case distinct => exact fun es hes => nodup_after h hes
  case grows =>
    intro es es' i f hf
    rw [after_append]
    exact exists_after hf es'
  case installs => exact fun es g id => ⟨rfl, FormGuard.guards_install⟩
  case unknown => exact fun es g id hno => Editor.submit_unknown hno
  case submits =>
    intro es g id i f hfirst
    obtain rfl : f.id = id := hfirst.id_eq
    refine ⟨g.verdict f, Editor.submit_first hfirst, ?_, ?_⟩
    · simp [FormGuard.verdict, ← Form.isValid_eq_false_iff]
    · simp [FormGuard.verdict, ← Form.isValid_eq_false_iff]
  case again => exact fun es g id => Editor.submit_submit ⟨d₀.after es, g⟩ id
  case flags => exact FormGuard.judge_flags
  case marked => exact isMarked_after d₀
  case own => exact fun g => Editor.run_document ⟨d₀, g⟩

/-- Two forms with one identifier, of which the second is to be validated. -/
def Document.twins : Document :=
  let empty : Field := { name := "q", value := "", constraints := [.required] }
  { forms := [{ id := ⟨"search"⟩, fields := [empty] },
      { id := ⟨"search"⟩, classes := [needsValidation], fields := [empty] }] }

theorem Document.guarded_of_built_twins :
    let es : List Edit := [.install, .addClass ⟨"search"⟩ "wide", .submit ⟨"search"⟩]
    (((⟨twins, {}⟩ : Editor).run es).document.forms.map Form.classes =
      [["wide", wasValidated], [needsValidation]]) ∧ twins.Guarded := by
  intro es
  refine ⟨by decide, guarded_of_built ?_⟩
  intro f hf
  rcases List.mem_cons.1 hf with rfl | hf
  · exact ⟨[], rfl⟩
  · obtain rfl := List.mem_singleton.1 hf
    exact ⟨[needsValidation], rfl⟩

end ClusterConsole
