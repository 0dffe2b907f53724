import Replay.Proofs.Playback.Scenario

/-!
# The bodies of loops

What can be said of the loops among some steps, one by one: of the way each of them repeats and of
its body. A stretch of the steps has no other loops than those that are wholly inside it, so what
holds of every loop of the steps holds of every loop of a stretch.

* `Step.closing?_split` — a loop as a body, an end and the steps behind it
* `Step.closingFrom_of_append` — a loop that ends within some steps ends there without the others
* `EachLoop` — a property of every loop that has an end
* `EachLoop.within` — the same for a stretch
-/

set_option autoImplicit false

namespace Replay

/-! ## The place of an end -/

namespace Step

theorem closingFrom_split {steps : List Step} : ∀ {n place : Nat},
    closingFrom n steps = some place →
      ∃ closing, closing.bracket = .closes ∧
        steps = steps.take place ++ closing :: steps.drop (place + 1) := by
  induction steps with
  | nil => intro n place h; cases h
  | cons step rest ih =>
    intro n place h
    unfold closingFrom at h
    split at h
    · rename_i hbracket
      cases h
      exact ⟨step, hbracket, rfl⟩
    all_goals
      obtain ⟨place, hplace, rfl⟩ := Option.map_eq_some_iff.mp h
      obtain ⟨closing, hcloses, hsplit⟩ := ih hplace
      exact ⟨closing, hcloses, congrArg (step :: ·) hsplit⟩

/-- The steps behind the beginning of a loop are its body, its end and what follows. -/
theorem closing?_split {steps : List Step} {place : Nat} (h : closing? steps = some place) :
    ∃ closing, closing.bracket = .closes ∧
      steps = steps.take place ++ closing :: steps.drop (place + 1) := closingFrom_split h

theorem lt_of_closing? {steps : List Step} {place : Nat} (h : closing? steps = some place) :
    place < steps.length := (closingFrom_append [] h).2

/-- An end that is found among the first of some steps is found without the others. -/
theorem closingFrom_of_append {behind : List Step} {steps : List Step} : ∀ {n place : Nat},
    closingFrom n (steps ++ behind) = some place → place < steps.length →
      closingFrom n steps = some place := by
  induction steps with
  | nil => intro n place _ hlt; cases hlt
  | cons step rest ih =>
    intro n place h hlt
    rw [List.cons_append] at h
    unfold closingFrom at h ⊢
    split at h
    · exact h
    all_goals
      obtain ⟨place, hplace, rfl⟩ := Option.map_eq_some_iff.mp h
      simp only [ih hplace (Nat.lt_of_succ_lt_succ hlt), Option.map_some]

theorem bracket_of_loop {step : Step} {l : Loop}
    (reads : step.instruction = .ok (.directive (.loop l))) : step.bracket = .opens := by
  simp [bracket, reads]

theorem reads_of_opens {step : Step} (h : step.bracket = .opens) :
    ∃ l, step.instruction = .ok (.directive (.loop l)) := by
  unfold bracket at h
  split at h
  · exact ⟨_, ‹_›⟩
  · cases h
  · cases h

theorem reads_of_closes {step : Step} (h : step.bracket = .closes) :
    step.instruction = .ok (.directive .loopEnd) := by
  unfold bracket at h
  split at h
  · cases h
  · assumption
  · cases h

/-- The loop that a step begins. -/
def loop? (step : Step) : Option Loop :=
  match step.instruction with
  | .ok (.directive (.loop l)) => some l
  | _ => none

theorem loop?_eq_some {step : Step} {l : Loop} :
    step.loop? = some l ↔ step.instruction = .ok (.directive (.loop l)) := by
  unfold loop?
  split
  · rename_i reads
    simp [reads]
  · rename_i reads
    exact ⟨nofun, fun h => absurd h (reads l)⟩

end Step

/-! ## Every loop -/

/-- A property of every loop that has an end: of what its beginning reads and of its body. -/
def EachLoop (fit : Loop → List Step → Prop) (steps : List Step) : Prop :=
  ∀ before opening rest l place, steps = before ++ opening :: rest →
    opening.instruction = .ok (.directive (.loop l)) → Step.closing? rest = some place →
    fit l (rest.take place)

namespace EachLoop

variable {fit : Loop → List Step → Prop} {steps whole : List Step}

theorem within (h : EachLoop fit whole) (hwithin : steps <:+: whole) : EachLoop fit steps := by
  intro before opening rest l place hsteps reads hclosing
  obtain ⟨front, behind, rfl⟩ := hwithin
  obtain ⟨hclosing', hplace⟩ := Step.closingFrom_append behind hclosing
  have hwhole : front ++ steps ++ behind = (front ++ before) ++ opening :: (rest ++ behind) := by
    simp [hsteps]
  have hfit := h _ _ _ _ _ hwhole reads hclosing'
  rwa [List.take_append_of_le_length (Nat.le_of_lt hplace)] at hfit

theorem first {step : Step} {rest : List Step} (h : EachLoop fit (step :: rest)) {l : Loop}
    {place : Nat} (reads : step.instruction = .ok (.directive (.loop l)))
    (closing : Step.closing? rest = some place) : fit l (rest.take place) :=
  h [] _ _ _ _ rfl reads closing

theorem cons_iff {step : Step} {rest : List Step} :
    EachLoop fit (step :: rest) ↔
      (∀ l place, step.instruction = .ok (.directive (.loop l)) →
        Step.closing? rest = some place → fit l (rest.take place)) ∧ EachLoop fit rest := by
  constructor
  · exact fun h =>
      ⟨fun l place => h.first, h.within (List.suffix_cons step rest).isInfix⟩
  · rintro ⟨hfirst, hrest⟩ before opening rest' l place hsteps reads hclosing
    cases before with
    | nil =>
      obtain ⟨rfl, rfl⟩ := List.cons.inj hsteps
      exact hfirst l place reads hclosing
    | cons _ before =>
      obtain ⟨-, rfl⟩ := List.cons.inj hsteps
      exact hrest _ _ _ _ _ rfl reads hclosing

/-- Steps that begin no loop have no loop. -/
theorem of_no_opening (h : ∀ step ∈ steps, step.bracket ≠ .opens) : EachLoop fit steps := by
  rintro before opening rest l place rfl reads -
  exact absurd (Step.bracket_of_loop reads) (h opening (by simp))

instance decidable [∀ l body, Decidable (fit l body)] :
    (steps : List Step) → Decidable (EachLoop fit steps)
  | [] => isTrue (of_no_opening nofun)
  | step :: rest =>
    have := decidable rest
    decidable_of_iff ((∀ l ∈ step.loop?, ∀ place ∈ Step.closing? rest, fit l (rest.take place)) ∧
      EachLoop fit rest) (by simp only [cons_iff, Option.mem_def, Step.loop?_eq_some]; grind)

end EachLoop

end Replay
