import Replay.Playback.Pass

/-!
# Budgets

A run within a budget either ends or is exhausted. What has ended within one budget ends in the same
way within every larger one, so a budget decides whether a result is found, never which.

* `Run.Agrees` — a run that has ended is left as it is
* `Pass.walk_agrees` — one pass, if the bodies of its loops agree
* `Resumption.drive_agrees` — pass after pass
-/

set_option autoImplicit false

namespace Replay

variable {σ α β : Type}

namespace Run

/-- `b` is the same as `a`, unless `a` is exhausted. -/
def Agrees (a b : Run σ α) : Prop := a ≠ .exhausted → b = a

theorem Agrees.refl (a : Run σ α) : a.Agrees a := fun _ => rfl

theorem Agrees.andThen {a b : Run σ α} {f g : α → Session σ → Run σ β} (hab : a.Agrees b)
    (hfg : ∀ x s, (f x s).Agrees (g x s)) : (a.andThen f).Agrees (b.andThen g) := by
  intro h
  cases a with
  | done x s =>
    rw [hab (by simp)]
    exact hfg x s h
  | failed e s => rw [hab (by simp)]; rfl
  | exhausted => exact absurd rfl h

theorem andThen_assoc {γ : Type} (r : Run σ α) (f : α → Session σ → Run σ β)
    (g : β → Session σ → Run σ γ) :
    (r.andThen f).andThen g = r.andThen fun a s => (f a s).andThen g := by
  cases r <;> rfl

theorem times_agrees {body body' : Session σ → Run σ Unit} (hb : ∀ s, (body s).Agrees (body' s)) :
    ∀ (n : Nat) (s : Session σ), (Run.times body n s).Agrees (Run.times body' n s)
  | 0, _ => Agrees.refl _
  | n + 1, s => (hb s).andThen fun _ s => times_agrees hb n s

theorem whileTrue_agrees {test test' : Session σ → Run σ Bool} {body body' : Session σ → Run σ Unit}
    (ht : ∀ s, (test s).Agrees (test' s)) (hb : ∀ s, (body s).Agrees (body' s)) :
    ∀ {n m : Nat}, n ≤ m → ∀ s : Session σ,
      (Run.whileTrue test body n s).Agrees (Run.whileTrue test' body' m s) := by
  intro n
  induction n with
  | zero => intro m _ s h; exact absurd rfl h
  | succ n ih =>
    intro m hm s
    obtain ⟨k, rfl⟩ : ∃ k, m = k + 1 := ⟨m - 1, by omega⟩
    unfold Run.whileTrue
    refine (ht s).andThen fun holds s => ?_
    split
    · exact (hb s).andThen fun _ s => ih (by omega) s
    · exact Agrees.refl _

end Run

namespace Pass

/-- Two passes that differ in their budgets only, the second one having no smaller budget. -/
structure Widens (p q : Pass σ) : Prop where
  rig : q.rig = p.rig
  source : q.source = p.source
  grouping : q.grouping = p.grouping
  base : q.base = p.base
  budget : p.budget ≤ q.budget
  inner : ∀ r s, (p.inner r s).Agrees (q.inner r s)

theorem playBody_agrees {p q : Pass σ} (h : p.Widens q) (opening : Step) (body : List Step)
    (s : Session σ) : (p.playBody opening body s).Agrees (q.playBody opening body s) := by
  simp only [playBody, h.rig, h.source]
  split
  · exact Run.Agrees.refl _
  · exact (h.inner _ s).andThen fun _ _ => Run.Agrees.refl _

theorem walk_agrees {p q : Pass σ} (h : p.Widens q) :
    ∀ (steps : List Step) (skip : Nat) (s : Session σ),
      (p.walk skip steps s).Agrees (q.walk skip steps s) := by
  have htest : ∀ opening condition s, (p.test opening condition s).Agrees
      (q.test opening condition s) := by
    intro opening condition s
    simp only [test, h.rig, h.source]
    exact Run.Agrees.refl _
  have hact : ∀ step s effect, (p.act step s effect).Agrees (q.act step s effect) := by
    intro step s effect
    simp only [act, h.source]
    exact Run.Agrees.refl _
  intro steps
  induction steps with
  | nil =>
    intro skip s
    simp only [walk, h.source]
    exact Run.Agrees.refl _
  | cons step rest ih =>
    intro skip s
    cases skip with
    | succ skip => exact ih skip s
    | zero =>
      unfold walk
      split
      · rw [h.source]; exact Run.Agrees.refl _
      · exact Run.Agrees.refl _
      · simp only [behind, h.rig, h.source, h.base]; exact Run.Agrees.refl _
      · split
        · exact ih 0 s
        · split
          · rw [h.source]; exact Run.Agrees.refl _
          · exact (Run.whileTrue_agrees (htest step _) (playBody_agrees h step _) h.budget s).andThen
              fun _ s => ih _ s
          · split
            · rw [h.source]; exact Run.Agrees.refl _
            · exact (Run.times_agrees (playBody_agrees h step _) _ s).andThen fun _ s => ih _ s
          · split
            · simp only [entering, h.source]; exact Run.Agrees.refl _
            · exact ih _ s
      · exact ih 0 s
      · rw [h.rig]; exact (hact step s _).andThen fun _ s => ih 0 s
      · rw [h.rig]; exact (hact step s _).andThen fun _ s => ih 0 s
      · rw [h.rig, h.grouping, h.base]; exact (hact step s _).andThen fun _ s => ih 0 s

end Pass

namespace Run

/-- Goes on after a pass: with the next one, or not at all. -/
def follow (next : Resumption → Session σ → Run σ Outcome) (r : Run σ Flow) : Run σ Outcome :=
  r.andThen fun flow s =>
    match flow with
    | .finished => .done .finished s
    | .suspended => .done .suspended s
    | .proceed r => next r s

theorem Agrees.follow {a b : Run σ Flow} {f g : Resumption → Session σ → Run σ Outcome}
    (hab : a.Agrees b) (hfg : ∀ r s, (f r s).Agrees (g r s)) :
    (a.follow f).Agrees (b.follow g) := by
  refine hab.andThen fun flow s => ?_
  cases flow with
  | finished => exact Agrees.refl _
  | suspended => exact Agrees.refl _
  | proceed r => exact hfg r s

end Run

namespace Resumption

/-- A playback is one pass and what follows it. -/
theorem drive_succ (rig : Rig σ) (n : Nat) (r : Resumption) (s : Session σ) :
    r.drive rig (n + 1) s =
      if rig.settings.maxNesting < r.depth then
        .failed (.nestingTooDeep rig.settings.maxNesting) s
      else (pass rig n (drive rig n) r s).follow (drive rig n) := by
  rw [drive]
  split
  · rfl
  · cases pass rig n (drive rig n) r s with
    | done flow s => cases flow <;> rfl
    | failed e s => rfl
    | exhausted => rfl

theorem pass_agrees {rig : Rig σ} {n m : Nat}
    {inner inner' : Resumption → Session σ → Run σ Outcome}
    (hn : n ≤ m) (hi : ∀ r s, (inner r s).Agrees (inner' r s)) (r : Resumption) (s : Session σ) :
    (pass rig n inner r s).Agrees (pass rig m inner' r s) := by
  unfold pass
  split
  · exact Run.Agrees.refl _
  · rename_i action _
    exact Pass.walk_agrees (p := ⟨rig, r, action.grouping, _, n, inner⟩)
      (q := ⟨rig, r, action.grouping, _, m, inner'⟩) ⟨rfl, rfl, rfl, rfl, hn, hi⟩ _ _ _

/-- **A larger budget never changes a result.** -/
theorem drive_agrees (rig : Rig σ) :
    ∀ {n m : Nat}, n ≤ m → ∀ (r : Resumption) (s : Session σ),
      (r.drive rig n s).Agrees (r.drive rig m s) := by
  intro n
  induction n with
  | zero => intro m _ r s h; exact absurd rfl h
  | succ n ih =>
    intro m hm r s
    obtain ⟨k, rfl⟩ : ∃ k, m = k + 1 := ⟨m - 1, by omega⟩
    have hk : n ≤ k := by omega
    rw [drive_succ, drive_succ]
    split
    · exact Run.Agrees.refl _
    · exact (pass_agrees hk (ih hk) r s).follow (ih hk)

end Resumption

end Replay
