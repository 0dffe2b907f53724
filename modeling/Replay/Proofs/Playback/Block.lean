import Replay.Proofs.Playback.Rules

/-!
# Blocks

The loops among the steps of an action form a tree: each end of a loop belongs to the nearest
beginning in front of it that has no end yet. A beginning without an end and an end without a
beginning mean nothing. Waits are left out of the tree, so that it is the same with and without them.

The tree is put together from the back. What stands behind an end that has met no beginning yet is
kept apart, level by level.

* `Block.ofSteps` — the tree of some steps
* `Block.ofSteps_loop` — the end of a loop in the tree is the one that `Step.closing?` finds
* `Block.ofSteps_filter` — steps that are waits make no difference
-/

set_option autoImplicit false

namespace Replay

/-- A step, or a loop with what is in it. -/
inductive Block
  | step (s : Step)
  /-- A loop, by the step that opens it and the way it repeats, as far as that can be read. -/
  | loop (opening : Step) (repetition : Except DirectiveError Repetition) (body : List Block)
  /-- One round of a loop whose body is a level of nesting of its own. -/
  | round (opening : Step) (body : List Block)

namespace Block

/-- The blocks of some steps, of which the ends that have no beginning part those behind them. -/
structure Levels where
  /-- The blocks in front of the first such end. -/
  here : List Block
  /-- The blocks behind each such end, up to the next one. -/
  outer : List (List Block)

namespace Levels

/-- No blocks. -/
def nothing : Levels := ⟨[], []⟩

/-- The levels with one more step in front. -/
def push (step : Step) (levels : Levels) : Levels :=
  match step.instruction with
  | .ok (.directive .loopEnd) => ⟨[], levels.here :: levels.outer⟩
  | .ok (.directive (.loop l)) =>
    match levels.outer with
    | [] => levels
    | behind :: outer => ⟨.loop step l.repetition levels.here :: behind, outer⟩
  | .ok (.directive (.wait _)) => levels
  | .ok (.directive .awaitRender) => levels
  | _ => ⟨.step step :: levels.here, levels.outer⟩

/-- All the blocks in order. -/
def all (levels : Levels) : List Block := levels.here ++ levels.outer.flatten

/-- The levels of some steps. -/
def ofSteps (steps : List Step) : Levels := steps.foldr push nothing

theorem ofSteps_cons (step : Step) (rest : List Step) :
    ofSteps (step :: rest) = push step (ofSteps rest) := rfl

end Levels

/-- The blocks that some steps form. -/
def ofSteps (steps : List Step) : List Block := (Levels.ofSteps steps).all

/-! ## Ends of loops -/

namespace Levels

/-- A step that opens no loop and closes none adds to the first level only. -/
theorem push_neither {step : Step} (h : step.bracket = .neither) :
    ∃ front, ∀ here outer, push step ⟨here, outer⟩ = ⟨front ++ here, outer⟩ := by
  unfold Step.bracket at h
  unfold push
  split
  · simp_all
  · simp_all
  · exact ⟨[], fun _ _ => rfl⟩
  · exact ⟨[], fun _ _ => rfl⟩
  · exact ⟨[.step step], fun _ _ => rfl⟩

theorem push_closes {step : Step} (h : step.bracket = .closes) (levels : Levels) :
    push step levels = ⟨[], levels.here :: levels.outer⟩ := by
  unfold Step.bracket at h
  unfold push
  split at h
  · cases h
  · rename_i hi
    rw [hi]
  · cases h

/-- A step that opens a loop takes the first level, if there is an end behind it. -/
theorem push_opens {step : Step} (h : step.bracket = .opens) :
    (∀ here, push step ⟨here, []⟩ = ⟨here, []⟩) ∧
      ∃ repetition, ∀ here behind outer,
        push step ⟨here, behind :: outer⟩ = ⟨.loop step repetition here :: behind, outer⟩ := by
  unfold Step.bracket at h
  unfold push
  split at h
  · rename_i l hi
    rw [hi]
    exact ⟨fun _ => rfl, l.repetition, fun _ _ _ => rfl⟩
  · cases h
  · cases h

/-- An end that closes one loop more than are taken to be open parts the levels: those in front of
it have no beginning for so many ends, and those behind it follow. -/
theorem ofSteps_of_closingFrom {steps : List Step} :
    ∀ {n place : Nat}, Step.closingFrom n steps = some place →
      ∃ front outer, outer.length = n ∧ ofSteps (steps.take place) = ⟨front, outer⟩ ∧
        ofSteps steps = ⟨front, outer ++
          (ofSteps (steps.drop (place + 1))).here :: (ofSteps (steps.drop (place + 1))).outer⟩ := by
  induction steps with
  | nil => intro n place h; cases h
  | cons step rest ih =>
    intro n place h
    unfold Step.closingFrom at h
    split at h
    · rename_i hbracket
      cases h
      exact ⟨[], [], rfl, rfl, push_closes hbracket _⟩
    · rename_i n hbracket
      obtain ⟨place, hplace, rfl⟩ := Option.map_eq_some_iff.mp h
      obtain ⟨front, outer, hlength, htake, hall⟩ := ih hplace
      refine ⟨[], front :: outer, by simp [hlength], ?_, ?_⟩
      · rw [List.take_succ_cons, ofSteps_cons, htake, push_closes hbracket]
      · rw [ofSteps_cons, hall, push_closes hbracket]
        rfl
    · rename_i hbracket
      obtain ⟨place, hplace, rfl⟩ := Option.map_eq_some_iff.mp h
      obtain ⟨front, outer, hlength, htake, hall⟩ := ih hplace
      obtain ⟨first, outer, rfl⟩ := List.exists_cons_of_length_eq_add_one hlength
      obtain ⟨-, repetition, hpush⟩ := push_opens hbracket
      refine ⟨.loop step repetition front :: first, outer, by simpa using hlength, ?_, ?_⟩
      · rw [List.take_succ_cons, ofSteps_cons, htake, hpush]
      · rw [ofSteps_cons, hall, List.cons_append, hpush]
        rfl
    · rename_i hbracket
      obtain ⟨place, hplace, rfl⟩ := Option.map_eq_some_iff.mp h
      obtain ⟨front, outer, hlength, htake, hall⟩ := ih hplace
      obtain ⟨added, hpush⟩ := push_neither hbracket
      refine ⟨added ++ front, outer, hlength, ?_, ?_⟩
      · rw [List.take_succ_cons, ofSteps_cons, htake, hpush]
      · rw [ofSteps_cons, hall, hpush]
        rfl

/-- If no end closes one loop more than are taken to be open, no more ends than that are without a
beginning. -/
theorem outer_of_closingFrom {steps : List Step} :
    ∀ {n : Nat}, Step.closingFrom n steps = none → (ofSteps steps).outer.length ≤ n := by
  induction steps with
  | nil => exact fun _ => Nat.zero_le _
  | cons step rest ih =>
    intro n h
    unfold Step.closingFrom at h
    rw [ofSteps_cons]
    split at h
    · cases h
    · rename_i n hbracket
      rw [push_closes hbracket]
      exact Nat.succ_le_succ (ih (Option.map_eq_none_iff.mp h))
    · rename_i hbracket
      have hrest := ih (Option.map_eq_none_iff.mp h)
      obtain ⟨hnone, repetition, hpush⟩ := push_opens hbracket
      cases hlevels : ofSteps rest with
      | mk here outer =>
        rw [hlevels] at hrest
        cases outer with
        | nil => rw [hnone]; exact Nat.zero_le _
        | cons behind outer => rw [hpush]; exact Nat.le_of_succ_le_succ hrest
    · rename_i hbracket
      obtain ⟨front, hpush⟩ := push_neither hbracket
      have hrest := ih (Option.map_eq_none_iff.mp h)
      cases hlevels : ofSteps rest with
      | mk here outer =>
        rw [hlevels] at hrest
        rw [hpush]
        exact hrest

end Levels

/-! ## The tree, step by step -/

/-- A step that opens no loop and closes none adds the same blocks in front of any others. -/
theorem ofSteps_neither {step : Step} (h : step.bracket = .neither) :
    ∃ added, ∀ rest, ofSteps (step :: rest) = added ++ ofSteps rest := by
  obtain ⟨added, hpush⟩ := Levels.push_neither h
  refine ⟨added, fun rest => ?_⟩
  rw [ofSteps, Levels.ofSteps_cons, ofSteps]
  cases Levels.ofSteps rest with
  | mk here outer => rw [hpush, Levels.all, Levels.all, List.append_assoc]

theorem ofSteps_loopEnd {step : Step} (h : step.instruction = .ok (.directive .loopEnd))
    (rest : List Step) : ofSteps (step :: rest) = ofSteps rest := by
  rw [ofSteps, Levels.ofSteps_cons, Levels.push, h]
  simp [Levels.all, ofSteps]

theorem ofSteps_wait {step : Step} {t : Binary64}
    (h : step.instruction = .ok (.directive (.wait t))) (rest : List Step) :
    ofSteps (step :: rest) = ofSteps rest := by
  rw [ofSteps, Levels.ofSteps_cons, Levels.push, h]
  rfl

theorem ofSteps_awaitRender {step : Step} (h : step.instruction = .ok (.directive .awaitRender))
    (rest : List Step) : ofSteps (step :: rest) = ofSteps rest := by
  rw [ofSteps, Levels.ofSteps_cons, Levels.push, h]
  rfl

/-- A loop without an end means nothing. -/
theorem ofSteps_unmatched {step : Step} {l : Loop} {rest : List Step}
    (h : step.instruction = .ok (.directive (.loop l))) (closing : Step.closing? rest = none) :
    ofSteps (step :: rest) = ofSteps rest := by
  have houter : (Levels.ofSteps rest).outer = [] :=
    List.eq_nil_of_length_eq_zero (Nat.le_zero.mp (Levels.outer_of_closingFrom closing))
  rw [ofSteps, Levels.ofSteps_cons, Levels.push, h]
  simp only [houter]
  rfl

/-- **A loop is closed by the end that is looked up for it.** -/
theorem ofSteps_loop {step : Step} {l : Loop} {rest : List Step} {place : Nat}
    (h : step.instruction = .ok (.directive (.loop l)))
    (closing : Step.closing? rest = some place) :
    ofSteps (step :: rest) =
      .loop step l.repetition (ofSteps (rest.take place)) :: ofSteps (rest.drop (place + 1)) := by
  obtain ⟨front, outer, hlength, htake, hall⟩ := Levels.ofSteps_of_closingFrom closing
  obtain rfl := List.eq_nil_of_length_eq_zero hlength
  rw [ofSteps, Levels.ofSteps_cons, Levels.push, h, hall]
  simp [ofSteps, htake, Levels.all]

/-- A step with an effect is a block of its own. -/
theorem ofSteps_effect {σ : Type} {h : Host σ} {g : Grouping} {base : Surface} {step : Step}
    {f : σ → Except PlayError Unit × σ} (hf : step.effect? h g base = some f) (rest : List Step) :
    ofSteps (step :: rest) = .step step :: ofSteps rest := by
  have hpush : ∀ levels, Levels.push step levels = ⟨.step step :: levels.here, levels.outer⟩ := by
    intro levels
    unfold Step.effect? at hf
    unfold Levels.push
    split at hf <;> simp_all
  rw [ofSteps, Levels.ofSteps_cons, hpush]
  rfl

/-- Steps that add nothing can be left out. -/
theorem ofSteps_filter_of {keep : Step → Bool}
    (silent : ∀ step, keep step = false → ∀ levels, Levels.push step levels = levels)
    (steps : List Step) : ofSteps (steps.filter keep) = ofSteps steps := by
  have hlevels : Levels.ofSteps (steps.filter keep) = Levels.ofSteps steps := by
    induction steps with
    | nil => rfl
    | cons step rest ih =>
      rw [List.filter_cons, Levels.ofSteps_cons]
      split
      · rw [Levels.ofSteps_cons, ih]
      · rename_i hkeep
        rw [ih, silent step (Bool.eq_false_iff.mpr hkeep)]
  rw [ofSteps, hlevels, ofSteps]

/-- **Waits for a time make no difference to the tree.** -/
theorem ofSteps_filter (steps : List Step) :
    ofSteps (steps.filter fun step => !step.isTimer) = ofSteps steps := by
  refine ofSteps_filter_of (fun step htimer levels => ?_) steps
  rw [Bool.not_eq_false', Step.isTimer] at htimer
  split at htimer
  · rename_i hi
    rw [Levels.push, hi]
  · cases htimer

end Block

end Replay
