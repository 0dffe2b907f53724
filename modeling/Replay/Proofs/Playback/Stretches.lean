import Replay.Proofs.Library.Alerts
import Replay.Proofs.Playback.Rules

/-!
# Stretches

Waits for a render part the steps of an action into stretches, each of which ends with its wait. Two
steps of the same id, one before a failure and one after it, may differ in their flags; without
these they are the same step.

* `Step.stretch` — the steps of a number among the stretches
* `Step.stretch_append_sublist` — a stretch comes before a later one
* `Step.stretch_disjoint` — a step is in one stretch
* `Step.calm`, `Action.AlertsRise.calm_steps` — steps without their flags
-/

set_option autoImplicit false

namespace Replay

namespace Step

/-! ## Stretches between waits for a render -/

/-- The steps behind so many waits for a render, up to the next one. -/
def stretch : Nat → List Step → List Step
  | _, [] => []
  | 0, step :: rest => if step.awaitsRender then [step] else step :: stretch 0 rest
  | c + 1, step :: rest => if step.awaitsRender then stretch c rest else stretch (c + 1) rest

/-- How many waits for a render there are among some steps. -/
def renders (steps : List Step) : Nat := steps.countP awaitsRender

theorem renders_append (a b : List Step) : renders (a ++ b) = renders a + renders b :=
  List.countP_append

theorem renders_of_none {run : List Step} (plain : ∀ step ∈ run, step.awaitsRender = false) :
    renders run = 0 := by
  simpa [renders, List.countP_eq_zero] using plain

/-- The first stretch begins with the steps in front of the first wait. -/
theorem stretch_of_plain {run : List Step} (plain : ∀ step ∈ run, step.awaitsRender = false)
    (rest : List Step) : stretch 0 (run ++ rest) = run ++ stretch 0 rest := by
  induction run with
  | nil => rfl
  | cons step run ih =>
    obtain ⟨hstep, hrun⟩ := List.forall_mem_cons.mp plain
    simp [stretch, hstep, ih hrun]

/-- The first stretch ends with the first wait. -/
theorem stretch_of_render {run : List Step} (plain : ∀ step ∈ run, step.awaitsRender = false)
    {wait : Step} (renders : wait.awaitsRender = true) (rest : List Step) :
    stretch 0 (run ++ wait :: rest) = run ++ [wait] := by
  rw [stretch_of_plain plain]
  simp [stretch, renders]

/-- A stretch begins behind a wait. -/
theorem stretch_behind {wait : Step} (waits : wait.awaitsRender = true) (before rest : List Step) :
    stretch (renders before + 1) (before ++ wait :: rest) = stretch 0 rest := by
  induction before with
  | nil => simp [renders, stretch, waits]
  | cons step before ih =>
    have hrenders : renders (step :: before) =
        renders before + if step.awaitsRender then 1 else 0 := by simp [renders, List.countP_cons]
    rw [hrenders, List.cons_append]
    cases hstep : step.awaitsRender <;> simp [stretch, hstep, ih]

theorem stretch_sublist (steps : List Step) : ∀ c,
    (stretch c steps).Sublist steps := by
  induction steps with
  | nil => exact fun c => by cases c <;> exact .slnil
  | cons step rest ih =>
    intro c
    cases c with
    | zero =>
      unfold stretch
      split
      · exact List.singleton_sublist.mpr List.mem_cons_self
      · exact (ih 0).cons_cons step
    | succ c =>
      unfold stretch
      split
      · exact (ih c).cons step
      · exact (ih (c + 1)).cons step

/-- A stretch comes before a later one. -/
theorem stretch_append_sublist (steps : List Step) : ∀ {c c' : Nat}, c < c' →
    (stretch c steps ++ stretch c' steps).Sublist steps := by
  induction steps with
  | nil => intro c c' _; cases c <;> cases c' <;> exact .slnil
  | cons step rest ih =>
    intro c c' hlt
    obtain ⟨d, rfl⟩ : ∃ d, c' = d + 1 := ⟨c' - 1, by omega⟩
    cases c with
    | zero =>
      cases hstep : step.awaitsRender with
      | true => simpa [stretch, hstep] using stretch_sublist rest d
      | false => simpa [stretch, hstep] using ih hlt
    | succ c =>
      cases hstep : step.awaitsRender with
      | true => simpa [stretch, hstep] using (ih (Nat.lt_of_succ_lt_succ hlt)).cons step
      | false => simpa [stretch, hstep] using (ih hlt).cons step

/-- **A step is in one stretch.** -/
theorem stretch_disjoint {steps : List Step} (distinct : steps.Nodup) {c c' : Nat} {step : Step}
    (h : step ∈ stretch c steps) (h' : step ∈ stretch c' steps) : c = c' := by
  have apart : ∀ {c c' : Nat}, c < c' → step ∈ stretch c steps → step ∉ stretch c' steps :=
    fun hlt h h' =>
      (List.nodup_append.mp ((stretch_append_sublist steps hlt).nodup distinct)).2.2 _ h _ h' rfl
  rcases Nat.lt_trichotomy c c' with hlt | heq | hlt
  · exact absurd h' (apart hlt h)
  · exact heq
  · exact absurd h (apart hlt h')

/-- Every step is in some stretch. -/
theorem exists_stretch {steps : List Step} {step : Step} (h : step ∈ steps) :
    ∃ c, step ∈ stretch c steps := by
  induction steps with
  | nil => cases h
  | cons first rest ih =>
    cases hfirst : first.awaitsRender with
    | true =>
      rcases List.mem_cons.mp h with rfl | h
      · exact ⟨0, by simp [stretch, hfirst]⟩
      · obtain ⟨c, hc⟩ := ih h
        exact ⟨c + 1, by simpa [stretch, hfirst] using hc⟩
    | false =>
      rcases List.mem_cons.mp h with rfl | h
      · exact ⟨0, by simp [stretch, hfirst]⟩
      · obtain ⟨c, hc⟩ := ih h
        cases c with
        | zero => exact ⟨0, by simpa [stretch, hfirst] using .inr hc⟩
        | succ c => exact ⟨c + 1, by simpa [stretch, hfirst] using hc⟩

/-! ## Steps without their flags -/

/-- The step with its flag taken back. -/
def calm (step : Step) : Step := { step with alert := false }

@[simp] theorem calm_id (step : Step) : step.calm.id = step.id := rfl

@[simp] theorem calm_awaitsRender (step : Step) : step.calm.awaitsRender = step.awaitsRender := rfl

theorem renders_calm (steps : List Step) : renders (steps.map calm) = renders steps := by
  simp [renders, List.countP_map, Function.comp_def]

theorem AlertRises.calm_eq {s s' : Step} (h : s.AlertRises s') : s'.calm = s.calm := by
  rw [← h.same]
  rfl

end Step

namespace Action.AlertsRise

variable {a a' : Action}

theorem id_eq (h : a.AlertsRise a') : a'.id = a.id := by
  rw [← h.same]

theorem map_calm (h : a.AlertsRise a') : a'.steps.map Step.calm = a.steps.map Step.calm := by
  have hsteps := h.steps
  generalize a.steps = l at hsteps ⊢
  generalize a'.steps = l' at hsteps ⊢
  induction hsteps with
  | nil => rfl
  | cons hstep _ ih => rw [List.map_cons, List.map_cons, hstep.calm_eq, ih]

theorem map_id (h : a.AlertsRise a') : a'.steps.map Step.id = a.steps.map Step.id := by
  have hid : ∀ l : List Step, l.map Step.id = (l.map Step.calm).map Step.id := by
    simp [Function.comp_def]
  rw [hid, h.map_calm, ← hid]

/-- The active steps stay the same, but for their flags. -/
theorem calm_steps (h : a.AlertsRise a') :
    (a'.steps.filter Step.active).map Step.calm = (a.steps.filter Step.active).map Step.calm := by
  have hactive : ∀ l : List Step, (l.filter Step.active).map Step.calm =
      (l.map Step.calm).filter Step.active := fun l => by
    rw [List.filter_map]
    rfl
  rw [hactive, hactive, h.map_calm]

end Action.AlertsRise

/-- What is found after alerts have been raised. -/
theorem Library.AlertsRise.action? {l l' : Library} (h : l.AlertsRise l') {c : Collection}
    {id : String} {a : Action} (found : l.action? c id = some a) :
    ∃ a', l'.action? c id = some a' ∧ a.AlertsRise a' := by
  have hactions := h.actions c
  unfold Library.action? at found ⊢
  generalize l.actions c = as at hactions found
  generalize l'.actions c = as' at hactions
  induction hactions with
  | nil => cases found
  | @cons b b' _ _ hb _ ih =>
    rw [List.find?_cons] at found ⊢
    rw [hb.id_eq]
    split at found
    · cases found
      exact ⟨b', rfl, hb⟩
    · exact ih found

end Replay
