import Mathlib.Data.List.Forall2
import Replay.Proofs.Library.Basic

/-!
# Alerts

An action and a step have a flag each, which a failure sets. Both are looked up by id, so it is the
first action and the first step of an id that are flagged.

* `Library.FlagsStep`, `Library.FlagsAction` — exactly these flags are set
* `Library.flagsStep_raiseAlert`, `Library.flags_raiseAlert` — raising an alert sets no other flag
* `Library.AlertsRise` — nothing changes but flags, and no flag is taken back
-/

set_option autoImplicit false

namespace Replay

/-! ## The first item that passes a test -/

section ModifyFirst

variable {α : Type} {p : α → Bool} {f : α → α}

theorem modifyFirst_append {before : List α} {x : α} (after : List α)
    (first : ∀ a ∈ before, p a = false) (passes : p x = true) :
    modifyFirst p f (before ++ x :: after) = before ++ f x :: after := by
  induction before with
  | nil => simp [modifyFirst, passes]
  | cons y before ih =>
    obtain ⟨hy, hbefore⟩ := List.forall_mem_cons.mp first
    simp [modifyFirst, hy, ih hbefore]

/-- A change of the first item that passes a test relates every item to itself or to what it is
changed to. -/
theorem forall₂_modifyFirst {R : α → α → Prop} (same : ∀ a, R a a) (changed : ∀ a, R a (f a))
    (l : List α) : List.Forall₂ R l (modifyFirst p f l) := by
  induction l with
  | nil => exact .nil
  | cons x rest ih =>
    unfold modifyFirst
    split
    · exact .cons (changed x) (List.forall₂_same.mpr fun a _ => same a)
    · exact .cons (same x) ih

end ModifyFirst

theorem forall₂_trans {α : Type} {R : α → α → Prop} (trans : ∀ a b c, R a b → R b c → R a c)
    {l₁ l₂ l₃ : List α} (h : List.Forall₂ R l₁ l₂) (h' : List.Forall₂ R l₂ l₃) :
    List.Forall₂ R l₁ l₃ := by
  induction h generalizing l₃ with
  | nil => exact h'
  | cons hab _ ih =>
    cases h' with
    | cons hbc hrest => exact .cons (trans _ _ _ hab hbc) (ih hrest)

/-! ## The flags of one failure -/

namespace Library

/-- Exactly two flags are set: that of the first action with an id, and that of the first of its
steps with an id. -/
inductive FlagsStep (c : Collection) (id stepId : String) (l : Library) : Library → Prop
  | set {before action after front step behind}
      (actions : l.actions c = before ++ action :: after) (first : ∀ a ∈ before, a.id ≠ id)
      (named : action.id = id) (steps : action.steps = front ++ step :: behind)
      (firstStep : ∀ x ∈ front, x.id ≠ stepId) (bears : step.id = stepId) :
      FlagsStep c id stepId l (l.withActions c (before ++
        { action with alert := true, steps := front ++ { step with alert := true } :: behind } ::
        after))

/-- Exactly one flag is set: that of the first action with an id, none of whose steps has the id
that is to blame. -/
inductive FlagsAction (c : Collection) (id stepId : String) (l : Library) : Library → Prop
  | set {before action after}
      (actions : l.actions c = before ++ action :: after) (first : ∀ a ∈ before, a.id ≠ id)
      (named : action.id = id) (gone : ∀ x ∈ action.steps, x.id ≠ stepId) :
      FlagsAction c id stepId l
        (l.withActions c (before ++ { action with alert := true } :: after))

variable {l : Library} {c : Collection} {id stepId : String} {action : Action}

theorem actions_of_action? (found : l.action? c id = some action) :
    ∃ before after, l.actions c = before ++ action :: after ∧ (∀ a ∈ before, a.id ≠ id) ∧
      action.id = id := by
  obtain ⟨hid, before, after, hactions, hfirst⟩ := List.find?_eq_some_iff_append.mp found
  exact ⟨before, after, hactions, by simpa using hfirst, by simpa using hid⟩

theorem raiseAlert_of_actions {before after : List Action}
    (actions : l.actions c = before ++ action :: after) (first : ∀ a ∈ before, a.id ≠ id)
    (named : action.id = id) :
    l.raiseAlert c id stepId = l.withActions c (before ++ action.withAlert stepId :: after) := by
  rw [raiseAlert, modifyAction, actions,
    modifyFirst_append _ (by simpa using first) (by simpa using named)]

/-- Raising an alert at a step that is there sets two flags. -/
theorem flagsStep_raiseAlert (found : l.action? c id = some action)
    (there : ∃ x ∈ action.steps, x.id = stepId) :
    l.FlagsStep c id stepId (l.raiseAlert c id stepId) := by
  obtain ⟨before, after, hactions, hfirst, hnamed⟩ := actions_of_action? found
  obtain ⟨step, hstep⟩ : ∃ step, action.steps.find? (fun x => x.id == stepId) = some step :=
    Option.isSome_iff_exists.mp (List.find?_isSome.mpr (by simpa using there))
  obtain ⟨hbears, front, behind, hsteps, hfront⟩ := List.find?_eq_some_iff_append.mp hstep
  have hfront' : ∀ x ∈ front, x.id ≠ stepId := by simpa using hfront
  rw [raiseAlert_of_actions hactions hfirst hnamed, Action.withAlert, hsteps,
    modifyFirst_append (p := fun s => s.id == stepId) behind (by simpa using hfront') hbears]
  exact .set hactions hfirst hnamed hsteps hfront' (by simpa using hbears)

/-- Raising an alert sets the flag of the action, and that of the step if it is there. -/
theorem flags_raiseAlert (found : l.action? c id = some action) :
    l.FlagsStep c id stepId (l.raiseAlert c id stepId) ∨
      l.FlagsAction c id stepId (l.raiseAlert c id stepId) := by
  by_cases there : ∃ x ∈ action.steps, x.id = stepId
  · exact .inl (flagsStep_raiseAlert found there)
  · have gone : ∀ x ∈ action.steps, x.id ≠ stepId := fun x hx hid => there ⟨x, hx, hid⟩
    obtain ⟨before, after, hactions, hfirst, hnamed⟩ := actions_of_action? found
    rw [raiseAlert_of_actions hactions hfirst hnamed, Action.withAlert,
      modifyFirst_of_none (by simpa using gone)]
    exact .inr (.set hactions hfirst hnamed gone)

end Library

/-! ## Flags that are not taken back -/

/-- Nothing but the flag of a step may differ, and that is not taken back. -/
structure Step.AlertRises (s s' : Step) : Prop where
  same : { s with alert := s'.alert } = s'
  kept : s.alert = true → s'.alert = true

/-- Nothing but the flags of an action and of its steps may differ, and none is taken back. -/
structure Action.AlertsRise (a a' : Action) : Prop where
  same : { a with alert := a'.alert, steps := a'.steps } = a'
  kept : a.alert = true → a'.alert = true
  steps : List.Forall₂ Step.AlertRises a.steps a'.steps

/-- Nothing but the flags of actions and steps may differ, and none is taken back. -/
structure Library.AlertsRise (l l' : Library) : Prop where
  same : { l with globals := l'.globals, locals := l'.locals } = l'
  actions : ∀ c, List.Forall₂ Action.AlertsRise (l.actions c) (l'.actions c)

theorem Step.AlertRises.refl (s : Step) : s.AlertRises s := ⟨rfl, fun set => set⟩

theorem Step.AlertRises.trans {a b c : Step} (h : a.AlertRises b) (h' : b.AlertRises c) :
    a.AlertRises c :=
  ⟨by rw [← h'.same, ← h.same], fun set => h'.kept (h.kept set)⟩

theorem Action.AlertsRise.refl (a : Action) : a.AlertsRise a :=
  ⟨rfl, fun set => set, List.forall₂_same.mpr fun s _ => .refl s⟩

theorem Action.AlertsRise.trans {a b c : Action} (h : a.AlertsRise b) (h' : b.AlertsRise c) :
    a.AlertsRise c :=
  ⟨by rw [← h'.same, ← h.same], fun set => h'.kept (h.kept set),
    forall₂_trans (fun _ _ _ => .trans) h.steps h'.steps⟩

theorem Action.alertsRise_withAlert (a : Action) (stepId : String) :
    a.AlertsRise (a.withAlert stepId) :=
  ⟨rfl, fun _ => rfl, forall₂_modifyFirst .refl (fun _ => ⟨rfl, fun _ => rfl⟩) _⟩

namespace Library

theorem AlertsRise.refl (l : Library) : l.AlertsRise l :=
  ⟨rfl, fun _ => List.forall₂_same.mpr fun a _ => .refl a⟩

theorem AlertsRise.trans {a b c : Library} (h : a.AlertsRise b) (h' : b.AlertsRise c) :
    a.AlertsRise c :=
  ⟨by rw [← h'.same, ← h.same],
    fun collection => forall₂_trans (fun _ _ _ => .trans) (h.actions collection)
      (h'.actions collection)⟩

/-- **Raising an alert takes no other one back.** -/
theorem alertsRise_raiseAlert (l : Library) (c : Collection) (id stepId : String) :
    l.AlertsRise (l.raiseAlert c id stepId) := by
  have hchanged := forall₂_modifyFirst (p := fun a : Action => a.id == id) Action.AlertsRise.refl
    (fun a => a.alertsRise_withAlert stepId) (l.actions c)
  have hsame : ∀ as : List Action, List.Forall₂ Action.AlertsRise as as :=
    fun as => List.forall₂_same.mpr fun a _ => .refl a
  refine ⟨?_, fun collection => ?_⟩
  · cases c <;> rfl
  · cases c <;> cases collection
    · exact hchanged
    · exact hsame _
    · exact hsame _
    · exact hchanged

end Library

end Replay
