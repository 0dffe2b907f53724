import Replay.Proofs.Playback.Rules
import Replay.Scene.Stage

/-!
# The rules and the budgets

The rules of playback describe just what playback within a budget does: whatever ends within some
budget follows the rules, to the same result and the same session, and whatever follows the rules
ends within some budget.

* `Plays.of_drive` — whatever a playback within a budget ends with, follows from the rules
* `Plays.exists_run` — whatever follows from the rules, some budget is enough for
* `drive_iff_plays` — both in one
-/

set_option autoImplicit false

namespace Replay

variable {σ : Type}

/-! ## Every playback follows the rules -/

@[simp] theorem Session.announce_host (s : Session σ) (r : Resumption) :
    (s.announce r).host = s.host := by
  unfold announce
  split
  · split <;> rfl
  · rfl

theorem Run.ofResult_ne_exhausted (result : Result) (s : Session σ) :
    Run.ofResult result s ≠ .exhausted := by
  cases result <;> simp [Run.ofResult]

theorem Run.of_done {outcome : Outcome} {result : Result} {s s' : Session σ}
    (h : Run.done outcome s = Run.ofResult result s') : .ok outcome = result ∧ s = s' := by
  cases result <;> simp_all [Run.ofResult]

theorem Run.of_failed {e : PlayError} {result : Result} {s s' : Session σ}
    (h : Run.failed e s = Run.ofResult result s') : .error e = result ∧ s = s' := by
  cases result <;> simp_all [Run.ofResult]

/-- A run is exhausted or has a result. -/
theorem Run.eq_ofResult {r : Run σ Outcome} (h : r ≠ .exhausted) :
    ∃ result s, r = Run.ofResult result s := by
  cases r with
  | done outcome s => exact ⟨.ok outcome, s, rfl⟩
  | failed e s => exact ⟨.error e, s, rfl⟩
  | exhausted => exact absurd rfl h

namespace Pass

/-- How a pass deals with a step that has an effect. -/
theorem walk_effect (p : Pass σ) {step : Step} {f : σ → Except PlayError Unit × σ}
    (hf : step.effect? p.rig.host p.grouping p.base = some f) (rest : List Step) (s : Session σ) :
    p.walk 0 (step :: rest) s = (p.act step s f).andThen fun _ s => p.walk 0 rest s := by
  unfold Step.effect? at hf
  rw [walk]
  cases hi : step.instruction with
  | error cause =>
    rw [hi] at hf
    obtain rfl := Option.some.inj hf
    rfl
  | ok i =>
    rw [hi] at hf
    cases i with
    | plain command =>
      obtain rfl := Option.some.inj hf
      rfl
    | directive d =>
      cases d with
      | select selection =>
        obtain rfl := Option.some.inj hf
        rfl
      | script source =>
        obtain rfl := Option.some.inj hf
        rfl
      | wait seconds => cases hf
      | loop l => cases hf
      | loopEnd => cases hf
      | awaitRender => cases hf

/-- The steps of a pass that have been dealt with do not matter. -/
theorem walk_drop (p : Pass σ) : ∀ (skip : Nat) (steps : List Step) (s : Session σ),
    p.walk skip steps s = p.walk 0 (steps.drop skip) s
  | 0, _, _ => rfl
  | skip + 1, [], s => by simp [walk]
  | skip + 1, _ :: rest, s => by
    rw [walk, List.drop_succ_cons]
    exact walk_drop p skip rest s

end Pass

/-- The body of a loop inside a pass is a playback of its own, one level deeper. -/
theorem Leg.playBody_eq (p : Leg) (rig : Rig σ) (n : Nat) (opening : Step) (body : List Step)
    (s : Session σ) :
    (p.pass rig n).playBody opening body s =
      if rig.settings.maxNesting < p.source.depth + 1 then
        .failAt p.source opening (.nestingTooDeep rig.settings.maxNesting) s
      else ((p.source.nested body).drive rig n s).andThen fun _ s => .done () s := rfl

namespace Activity

/-- A loop that is played inside a pass, run within a budget. -/
def runLoop (rig : Rig σ) (n : Nat) (p : Leg) (opening : Step) (body : List Step) :
    Recurrence → Session σ → Run σ Unit
  | .times left => Run.times ((p.pass rig n).playBody opening body) left
  | .whileTrue condition =>
    Run.whileTrue ((p.pass rig n).test opening condition) ((p.pass rig n).playBody opening body) n

/-- The rest of a pass and the passes behind it, run within a budget. -/
def runWalk (rig : Rig σ) (n : Nat) (p : Leg) (steps : List Step) (s : Session σ) : Run σ Outcome :=
  ((p.pass rig n).walk 0 steps s).follow (Resumption.drive rig n)

/-- What is under way, run within a budget. -/
def run (rig : Rig σ) (n : Nat) : Activity → Session σ → Run σ Outcome
  | drive r, s => r.drive rig n s
  | walk p steps, s => runWalk rig n p steps s
  | loop p opening body behind again, s =>
    (runLoop rig n p opening body again s).andThen fun _ s => runWalk rig n p behind s
  | round p opening body behind again, s =>
    ((p.pass rig n).playBody opening body s).andThen fun _ s =>
      (runLoop rig n p opening body again s).andThen fun _ s => runWalk rig n p behind s

end Activity

/-- What the rules say of all that a budget is enough for. -/
def Follows (rig : Rig σ) (a : Activity) (run : Session σ → Run σ Outcome) : Prop :=
  ∀ s result s', run s = .ofResult result s' → ∃ events, Plays rig a s events result s'

namespace Follows

variable {rig : Rig σ} {p : Leg} {n : Nat}

theorem round (hin : ∀ r, Follows rig (.drive r) (r.drive rig n)) {opening : Step}
    {body behind : List Step} {again : Recurrence} {run : Session σ → Run σ Outcome}
    (hloop : Follows rig (.loop p opening body behind again) run) :
    Follows rig (.round p opening body behind again) fun s =>
      ((p.pass rig n).playBody opening body s).andThen fun _ s => run s := by
  intro s result s' h
  simp only [Leg.playBody_eq] at h
  split at h
  · rename_i hdeep
    obtain ⟨rfl, rfl⟩ := Run.of_failed h
    exact ⟨_, .roundTooDeep hdeep⟩
  · rename_i hshallow
    have hshallow : p.source.depth + 1 ≤ rig.settings.maxNesting := Nat.le_of_not_lt hshallow
    cases hrun : (p.source.nested body).drive rig n s with
    | done outcome s₁ =>
      rw [hrun] at h
      obtain ⟨events, hplays⟩ := hin _ s (.ok outcome) s₁ hrun
      obtain ⟨events', hplays'⟩ := hloop s₁ result s' h
      exact ⟨_, .roundDone hshallow hplays hplays'⟩
    | failed e s₁ =>
      rw [hrun] at h
      obtain ⟨rfl, rfl⟩ := Run.of_failed h
      obtain ⟨events, hplays⟩ := hin _ s (.error e) s₁ hrun
      exact ⟨_, .roundFailed hshallow hplays⟩
    | exhausted =>
      rw [hrun] at h
      exact absurd h.symm (Run.ofResult_ne_exhausted _ _)

theorem times (hin : ∀ r, Follows rig (.drive r) (r.drive rig n)) {opening : Step}
    {body behind : List Step} {run : Session σ → Run σ Outcome}
    (hwalk : Follows rig (.walk p behind) run) :
    ∀ left, Follows rig (.loop p opening body behind (.times left)) fun s =>
      (Run.times ((p.pass rig n).playBody opening body) left s).andThen fun _ s => run s := by
  intro left
  induction left with
  | zero =>
    intro s result s' h
    obtain ⟨events, hplays⟩ := hwalk s result s' h
    exact ⟨_, .noneLeft hplays⟩
  | succ left ih =>
    intro s result s' h
    simp only [Run.times, Run.andThen_assoc] at h
    obtain ⟨events, hplays⟩ := round hin ih s result s' h
    exact ⟨_, .nextRound hplays⟩

theorem whileTrue (hin : ∀ r, Follows rig (.drive r) (r.drive rig n)) {opening : Step}
    {condition : String} {body behind : List Step} {run : Session σ → Run σ Outcome}
    (hwalk : Follows rig (.walk p behind) run) :
    ∀ budget, Follows rig (.loop p opening body behind (.whileTrue condition)) fun s =>
      (Run.whileTrue ((p.pass rig n).test opening condition)
        ((p.pass rig n).playBody opening body) budget s).andThen fun _ s => run s := by
  intro budget
  induction budget with
  | zero => intro s result s' h; exact absurd h.symm (Run.ofResult_ne_exhausted _ _)
  | succ budget ih =>
    intro s result s' h
    simp only [Run.whileTrue, Pass.test, Leg.pass, Run.andThen_assoc] at h
    split at h
    · rename_i holds host heval
      cases holds with
      | true =>
        have h : ((p.pass rig n).playBody opening body { s with host := host }).andThen (fun _ s =>
            (Run.whileTrue ((p.pass rig n).test opening condition)
              ((p.pass rig n).playBody opening body) budget s).andThen fun _ s => run s) =
            .ofResult result s' := by
          rw [← Run.andThen_assoc]; exact h
        obtain ⟨events, hplays⟩ := round hin ih { s with host := host } result s' h
        exact ⟨_, .again heval hplays⟩
      | false =>
        obtain ⟨events, hplays⟩ := hwalk { s with host := host } result s' h
        exact ⟨_, .enough heval hplays⟩
    · rename_i report host heval
      obtain ⟨rfl, rfl⟩ := Run.of_failed h
      exact ⟨_, .unknown heval⟩

theorem act {step : Step} {f : σ → Except PlayError Unit × σ}
    (hf : step.effect? rig.host p.grouping p.base = some f) {rest : List Step}
    (hrest : Follows rig (.walk p rest) ((Activity.walk p rest).run rig n)) :
    Follows rig (.walk p (step :: rest)) ((Activity.walk p (step :: rest)).run rig n) := by
  intro s result s' h
  have hwalk := (p.pass rig n).walk_effect hf rest s
  simp only [Activity.run, Activity.runWalk, Run.follow, hwalk, Run.andThen_assoc, Pass.act] at h
  split at h
  · rename_i host hdone
    obtain ⟨events, hplays⟩ := hrest { s with host := host } result s' h
    exact ⟨_, .act hf hdone hplays⟩
  · rename_i e host hfailed
    obtain ⟨rfl, rfl⟩ := Run.of_failed h
    exact ⟨_, .fail hf hfailed⟩

/-- One pass follows the rules if the playbacks inside it and behind it do. The pass is taken up at
any place, since loops that have been played are passed over as a whole. -/
theorem walk (hin : ∀ r, Follows rig (.drive r) (r.drive rig n)) :
    ∀ (steps : List Step) (skip : Nat), Follows rig (.walk p (steps.drop skip)) fun s =>
      ((p.pass rig n).walk skip steps s).follow (Resumption.drive rig n) := by
  intro steps
  induction steps with
  | nil =>
    intro skip s result s' h
    rw [List.drop_nil]
    simp only [Pass.walk, Run.follow, Run.andThen] at h
    split at h <;> rename_i hclose
    · obtain ⟨rfl, rfl⟩ := Run.of_done h
      exact ⟨_, .finish hclose⟩
    · cases hframes : p.source.frames <;> simp [Leg.pass, Resumption.close, hframes] at hclose
      split at hclose <;> cases hclose
    · obtain ⟨events, hplays⟩ := hin _ s result s' h
      exact ⟨_, .close hclose hplays⟩
  | cons step rest ih =>
    intro skip
    cases skip with
    | succ skip => exact ih skip
    | zero =>
      intro s result s' h
      rw [List.drop_zero]
      have ih₀ : Follows rig (.walk p rest) _ := ih 0
      obtain ⟨f, hf⟩ | hi | ⟨t, hi⟩ | hi | ⟨l, hi⟩ :=
        step.effect?_cases rig.host p.grouping p.base
      · exact act hf ih₀ s result s' h
      · simp only [Pass.walk, hi] at h
        obtain ⟨rfl, rfl⟩ := Run.of_done h
        exact ⟨_, .awaitRender hi⟩
      · simp only [Pass.walk, hi] at h
        obtain ⟨rfl, rfl⟩ := Run.of_done h
        exact ⟨_, .wait hi⟩
      · simp only [Pass.walk, hi] at h
        obtain ⟨events, hplays⟩ := ih₀ s result s' h
        exact ⟨_, .loopEnd hi hplays⟩
      · simp only [Pass.walk, hi] at h
        split at h
        · rename_i hclosing
          obtain ⟨events, hplays⟩ := ih₀ s result s' h
          exact ⟨_, .unmatched hi hclosing hplays⟩
        · rename_i place hclosing
          have ihp := ih (place + 1)
          split at h <;> rename_i hrepeats
          · obtain ⟨rfl, rfl⟩ := Run.of_failed h
            exact ⟨_, .badLoop hi hclosing hrepeats⟩
          · simp only [Run.follow, Run.andThen_assoc] at h
            obtain ⟨events, hplays⟩ := whileTrue hin ihp n s result s' h
            exact ⟨_, .whileTrue hi hclosing hrepeats hplays⟩
          · split at h <;> rename_i hcount
            · obtain ⟨rfl, rfl⟩ := Run.of_failed h
              exact ⟨_, .badRange hi hclosing hrepeats hcount⟩
            · simp only [Run.follow, Run.andThen_assoc] at h
              obtain ⟨events, hplays⟩ := times hin ihp _ s result s' h
              exact ⟨_, .range hi hclosing hrepeats hcount hplays⟩
          · split at h <;> rename_i hcount
            · obtain ⟨events, hplays⟩ := hin _ s result s' h
              exact ⟨_, .enter hi hclosing hrepeats hcount hplays⟩
            · obtain ⟨events, hplays⟩ := ihp s result s' h
              exact ⟨_, .skip hi hclosing hrepeats hcount hplays⟩

end Follows

/-- **What ends within a budget follows the rules.** -/
theorem Plays.of_drive {rig : Rig σ} : ∀ (n : Nat) (r : Resumption),
    Follows rig (.drive r) (r.drive rig n) := by
  intro n
  induction n with
  | zero => intro r s result s' h; exact absurd h.symm (Run.ofResult_ne_exhausted _ _)
  | succ n ih =>
    intro r s result s' h
    rw [Resumption.drive_succ] at h
    split at h
    · rename_i hdeep
      obtain ⟨rfl, rfl⟩ := Run.of_failed h
      exact ⟨_, .tooDeep hdeep⟩
    · rename_i hshallow
      have hshallow : r.depth ≤ rig.settings.maxNesting := Nat.le_of_not_lt hshallow
      unfold Resumption.pass at h
      split at h
      · rename_i hmissing
        obtain ⟨rfl, rfl⟩ := Run.of_done h
        exact ⟨_, .gone hshallow hmissing⟩
      · rename_i action hfound
        simp only [Session.announce_host] at h
        obtain ⟨events, hplays⟩ := Follows.walk
          (p := ⟨r, action.grouping, r.surface.getD (rig.host.ambient s.host)⟩) ih r.steps 0
          (s.announce r) result s' h
        exact ⟨_, .pass hshallow hfound hplays⟩

/-! ## Some budget is enough for whatever follows the rules -/

theorem Leg.pass_widens (p : Leg) (rig : Rig σ) {n m : Nat} (h : n ≤ m) :
    (p.pass rig n).Widens (p.pass rig m) :=
  ⟨rfl, rfl, rfl, rfl, h, Resumption.drive_agrees rig h⟩

namespace Activity

theorem runLoop_agrees (rig : Rig σ) {n m : Nat} (h : n ≤ m) (p : Leg) (opening : Step)
    (body : List Step) (again : Recurrence) (s : Session σ) :
    (runLoop rig n p opening body again s).Agrees (runLoop rig m p opening body again s) := by
  have hbody := Pass.playBody_agrees (p.pass_widens rig h) opening body
  cases again with
  | times left => exact Run.times_agrees hbody left s
  | whileTrue condition => exact Run.whileTrue_agrees (fun _ => Run.Agrees.refl _) hbody h s

theorem run_agrees (rig : Rig σ) {n m : Nat} (h : n ≤ m) (a : Activity) (s : Session σ) :
    (a.run rig n s).Agrees (a.run rig m s) := by
  have hwalk : ∀ p steps s, ((walk p steps).run rig n s).Agrees ((walk p steps).run rig m s) :=
    fun p steps s =>
      (Pass.walk_agrees (p.pass_widens rig h) steps 0 s).follow (Resumption.drive_agrees rig h)
  have hloop : ∀ p opening body behind again s,
      ((loop p opening body behind again).run rig n s).Agrees
        ((loop p opening body behind again).run rig m s) :=
    fun p opening body behind again s =>
      (runLoop_agrees rig h p opening body again s).andThen fun _ s => hwalk p behind s
  cases a with
  | drive r => exact Resumption.drive_agrees rig h r s
  | walk p steps => exact hwalk p steps s
  | loop p opening body behind again => exact hloop p opening body behind again s
  | round p opening body behind again =>
    exact (Pass.playBody_agrees (p.pass_widens rig h) opening body s).andThen fun _ s =>
      hloop p opening body behind again s

/-- A result stays what it is within a larger budget. -/
theorem run_stable {rig : Rig σ} {n m : Nat} (h : n ≤ m) {a : Activity} {s : Session σ}
    {result : Result} {s' : Session σ} (hrun : a.run rig n s = .ofResult result s') :
    a.run rig m s = .ofResult result s' := by
  rw [← hrun]
  exact run_agrees rig h a s (by rw [hrun]; exact Run.ofResult_ne_exhausted _ _)

theorem run_round (rig : Rig σ) (n : Nat) (p : Leg) (opening : Step) (body behind : List Step)
    (again : Recurrence) (s : Session σ) :
    (round p opening body behind again).run rig n s =
      if rig.settings.maxNesting < p.source.depth + 1 then
        .failAt p.source opening (.nestingTooDeep rig.settings.maxNesting) s
      else ((p.source.nested body).drive rig n s).andThen fun _ s =>
        (loop p opening body behind again).run rig n s := by
  rw [run, Leg.playBody_eq]
  split
  · rfl
  · rw [Run.andThen_assoc]; rfl

theorem run_walk_effect (rig : Rig σ) (n : Nat) (p : Leg) {step : Step}
    {f : σ → Except PlayError Unit × σ} (hf : step.effect? rig.host p.grouping p.base = some f)
    (rest : List Step) (s : Session σ) :
    (walk p (step :: rest)).run rig n s =
      match f s.host with
      | (.ok (), host) => (walk p rest).run rig n { s with host := host }
      | (.error e, host) => .failAt p.source step e { s with host := host } := by
  simp only [run, runWalk, (p.pass rig n).walk_effect hf rest s, Run.follow, Run.andThen_assoc,
    Pass.act]
  cases f s.host with
  | mk outcome host => cases outcome <;> rfl

/-- One more round of a conditional loop costs it one unit of its budget. -/
theorem run_again {rig : Rig σ} {n : Nat} {p : Leg} {opening : Step} {condition : String}
    {body behind : List Step} {s s' : Session σ} {host : σ} {result : Result}
    (holds : rig.host.evaluate s.host condition = (.ok true, host))
    (h : (round p opening body behind (.whileTrue condition)).run rig n { s with host := host } =
      .ofResult result s') :
    (loop p opening body behind (.whileTrue condition)).run rig (n + 1) s =
      .ofResult result s' := by
  have hbody := Pass.playBody_agrees (p.pass_widens rig (Nat.le_succ n)) opening body
  have hagrees := (hbody { s with host := host }).andThen fun (_ : Unit) s =>
    (Run.whileTrue_agrees (fun s => Run.Agrees.refl ((p.pass rig n).test opening condition s)) hbody
      (Nat.le_refl n) s).andThen fun (_ : Unit) s =>
        run_agrees rig (Nat.le_succ n) (walk p behind) s
  have hstep : (loop p opening body behind (.whileTrue condition)).run rig (n + 1) s =
      ((p.pass rig (n + 1)).playBody opening body { s with host := host }).andThen fun _ s =>
        (Run.whileTrue ((p.pass rig n).test opening condition)
          ((p.pass rig (n + 1)).playBody opening body) n s).andThen fun _ s =>
            (walk p behind).run rig (n + 1) s := by
    rw [run, ← Run.andThen_assoc]
    simp only [runLoop, Run.whileTrue, Pass.test, Leg.pass, holds]
    rfl
  rw [hstep, ← h]
  refine hagrees fun hx => ?_
  exact Run.ofResult_ne_exhausted result s' (h.symm.trans hx)

end Activity

/-- **What follows the rules ends within some budget.** -/
theorem Plays.exists_run {rig : Rig σ} {a : Activity} {s s' : Session σ} {events : List Event}
    {result : Result} (h : Plays rig a s events result s') :
    ∃ n, a.run rig n s = .ofResult result s' := by
  induction h with
  | tooDeep deep => exact ⟨1, by rw [Activity.run, Resumption.drive_succ, if_pos deep]; rfl⟩
  | gone shallow missing =>
    refine ⟨1, ?_⟩
    rw [Activity.run, Resumption.drive_succ, if_neg (by omega), Resumption.pass, missing]
    rfl
  | pass shallow found _ ih =>
    obtain ⟨n, hn⟩ := ih
    refine ⟨n + 1, ?_⟩
    rw [Activity.run, Resumption.drive_succ, if_neg (by omega), Resumption.pass, found]
    simp only [Session.announce_host]
    exact hn
  | finish closed =>
    refine ⟨0, ?_⟩
    simp only [Activity.run, Activity.runWalk, Pass.walk, Leg.pass, closed]
    rfl
  | close closed _ ih =>
    obtain ⟨n, hn⟩ := ih
    refine ⟨n, ?_⟩
    simp only [Activity.run, Activity.runWalk, Pass.walk, Leg.pass, closed]
    exact hn
  | act effect done _ ih =>
    obtain ⟨n, hn⟩ := ih
    exact ⟨n, by rw [Activity.run_walk_effect rig n _ effect, done]; exact hn⟩
  | fail effect failed =>
    exact ⟨0, by rw [Activity.run_walk_effect rig 0 _ effect, failed]; rfl⟩
  | awaitRender reads =>
    exact ⟨0, by simp only [Activity.run, Activity.runWalk, Pass.walk, reads]; rfl⟩
  | wait reads => exact ⟨0, by simp only [Activity.run, Activity.runWalk, Pass.walk, reads]; rfl⟩
  | loopEnd reads _ ih =>
    obtain ⟨n, hn⟩ := ih
    exact ⟨n, by simp only [Activity.run, Activity.runWalk, Pass.walk, reads]; exact hn⟩
  | unmatched reads closing _ ih =>
    obtain ⟨n, hn⟩ := ih
    exact ⟨n, by simp only [Activity.run, Activity.runWalk, Pass.walk, reads, closing]; exact hn⟩
  | badLoop reads closing repeats =>
    refine ⟨0, ?_⟩
    simp only [Activity.run, Activity.runWalk, Pass.walk, reads, closing, repeats]
    rfl
  | enter reads closing repeats positive _ ih =>
    obtain ⟨n, hn⟩ := ih
    refine ⟨n, ?_⟩
    simp only [Activity.run, Activity.runWalk, Pass.walk, reads, closing, repeats, if_pos positive]
    exact hn
  | skip reads closing repeats nought _ ih =>
    obtain ⟨n, hn⟩ := ih
    refine ⟨n, ?_⟩
    simp only [Activity.run, Activity.runWalk, Pass.walk, reads, closing, repeats, if_neg nought]
    rw [Pass.walk_drop]
    exact hn
  | badRange reads closing repeats counts =>
    refine ⟨0, ?_⟩
    simp only [Activity.run, Activity.runWalk, Pass.walk, reads, closing, repeats, counts]
    rfl
  | range reads closing repeats counts _ ih =>
    obtain ⟨n, hn⟩ := ih
    refine ⟨n, ?_⟩
    simp only [Activity.run, Activity.runWalk, Pass.walk, reads, closing, repeats, counts]
    simp only [Run.follow, Run.andThen_assoc, Pass.walk_drop _ (_ + 1)]
    exact hn
  | whileTrue reads closing repeats _ ih =>
    obtain ⟨n, hn⟩ := ih
    refine ⟨n, ?_⟩
    simp only [Activity.run, Activity.runWalk, Pass.walk, reads, closing, repeats]
    simp only [Run.follow, Run.andThen_assoc, Pass.walk_drop _ (_ + 1)]
    exact hn
  | noneLeft _ ih =>
    obtain ⟨n, hn⟩ := ih
    exact ⟨n, hn⟩
  | nextRound _ ih =>
    obtain ⟨n, hn⟩ := ih
    refine ⟨n, ?_⟩
    simp only [Activity.run, Activity.runLoop, Run.times, Run.andThen_assoc] at hn ⊢
    exact hn
  | enough holds _ ih =>
    obtain ⟨n, hn⟩ := ih
    refine ⟨n + 1, ?_⟩
    have hnext := Activity.run_stable (Nat.le_succ n) hn
    rw [Activity.run]
    simp only [Activity.runLoop, Run.whileTrue, Pass.test, Leg.pass, holds]
    exact hnext
  | again holds _ ih =>
    obtain ⟨n, hn⟩ := ih
    exact ⟨n + 1, Activity.run_again holds hn⟩
  | unknown holds =>
    refine ⟨1, ?_⟩
    rw [Activity.run]
    simp only [Activity.runLoop, Run.whileTrue, Pass.test, Leg.pass, holds]
    rfl
  | roundTooDeep deep => exact ⟨0, by rw [Activity.run_round, if_pos deep]; rfl⟩
  | roundFailed shallow _ ih =>
    obtain ⟨n, hn⟩ := ih
    refine ⟨n, ?_⟩
    rw [Activity.run] at hn
    rw [Activity.run_round, if_neg (by omega), hn]
    rfl
  | roundDone shallow _ _ ih ih' =>
    obtain ⟨n, hn⟩ := ih
    obtain ⟨m, hm⟩ := ih'
    refine ⟨max n m, ?_⟩
    have hbody := Activity.run_stable (Nat.le_max_left n m) hn
    have hnext := Activity.run_stable (Nat.le_max_right n m) hm
    rw [Activity.run] at hbody
    rw [Activity.run_round, if_neg (by omega), hbody]
    exact hnext

/-- **A playback ends within some budget as the rules say, and they say it of no other end.** -/
theorem drive_iff_plays {rig : Rig σ} {r : Resumption} {s s' : Session σ} {result : Result} :
    (∃ n, r.drive rig n s = .ofResult result s') ↔
      ∃ events, Plays rig (.drive r) s events result s' :=
  ⟨fun ⟨n, hn⟩ => Plays.of_drive n r s result s' hn, fun ⟨_, h⟩ => h.exists_run⟩

/-- The rules leave no choice: what is under way comes to one end. -/
theorem Plays.unique {rig : Rig σ} {a : Activity} {s s₁ s₂ : Session σ} {events₁ events₂ : List Event}
    {result₁ result₂ : Result} (h₁ : Plays rig a s events₁ result₁ s₁)
    (h₂ : Plays rig a s events₂ result₂ s₂) : result₁ = result₂ ∧ s₁ = s₂ := by
  obtain ⟨n, hn⟩ := h₁.exists_run
  obtain ⟨m, hm⟩ := h₂.exists_run
  have h : Run.ofResult result₁ s₁ = Run.ofResult result₂ s₂ := by
    rw [← Activity.run_stable (Nat.le_max_left n m) hn, Activity.run_stable (Nat.le_max_right n m) hm]
  cases result₁ <;> cases result₂ <;> cases h <;> exact ⟨rfl, rfl⟩

/-! ## Turns of the player -/

/-- A turn of the player: an action is played, or a suspended one is resumed. -/
inductive Turn
  | play (collection : Collection) (id : String)
  | resume (r : Resumption)
deriving DecidableEq, Repr

namespace Turn

/-- How many loop bodies deep a turn begins. -/
def depth : Turn → Nat
  | play _ _ => 0
  | resume r => r.depth

/-- What a turn drives, or the failure without which there is nothing to drive. -/
def begins (turn : Turn) (s : Session σ) : Except PlayError Resumption :=
  match turn with
  | play collection id =>
    match s.library.action? collection id with
    | none => .error (.missingAction id)
    | some action => .ok (.start collection action.id action.steps)
  | resume r => .ok r

/-- A turn within a budget. -/
def run (turn : Turn) (rig : Rig σ) (budget : Nat) (s : Session σ) : Run σ Outcome :=
  match turn with
  | play collection id => s.play rig budget collection id
  | resume r => r.drive rig budget s

/-- A turn that comes to these events, ends with this result and leaves that session. -/
inductive Plays (rig : Rig σ) (turn : Turn) (s : Session σ) :
    List Event → Result → Session σ → Prop
  | refused {e} (failure : turn.begins s = .error e) : Plays rig turn s [] (.error e) s
  | driven {r events result s'} (start : turn.begins s = .ok r)
      (drives : Replay.Plays rig (.drive r) s events result s') : Plays rig turn s events result s'

/-- A turn that comes to these events, whether or not it ends. -/
def Comes (rig : Rig σ) (turn : Turn) (s : Session σ) (events : List Event) : Prop :=
  ∃ r, turn.begins s = .ok r ∧ Replay.Comes rig (.drive r) s events

theorem run_eq (turn : Turn) (rig : Rig σ) (budget : Nat) (s : Session σ) :
    turn.run rig budget s =
      match turn.begins s with
      | .error e => .failed e s
      | .ok r => r.drive rig budget s := by
  cases turn with
  | resume r => rfl
  | play collection id =>
    simp only [run, begins, Session.play]
    cases s.library.action? collection id <;> rfl

/-- A turn begins as deep as it says. -/
theorem depth_of_begins {turn : Turn} {s : Session σ} {r : Resumption}
    (h : turn.begins s = .ok r) : r.depth = turn.depth := by
  unfold begins at h
  split at h
  · split at h <;> cases h
    rfl
  · cases h
    rfl

/-- **The turns that end within some budget are those that follow the rules.** -/
theorem run_iff_plays {turn : Turn} {rig : Rig σ} {s s' : Session σ} {result : Result} :
    (∃ n, turn.run rig n s = .ofResult result s') ↔
      ∃ events, turn.Plays rig s events result s' := by
  simp only [run_eq]
  cases hbegins : turn.begins s with
  | error e =>
    constructor
    · rintro ⟨n, hn⟩
      obtain ⟨rfl, rfl⟩ := Run.of_failed hn
      exact ⟨[], .refused hbegins⟩
    · rintro ⟨events, _ | ⟨start, _⟩⟩
      · rename_i failure
        cases hbegins.symm.trans failure
        exact ⟨0, rfl⟩
      · cases hbegins.symm.trans start
  | ok r =>
    constructor
    · intro h
      obtain ⟨events, hplays⟩ := drive_iff_plays.mp h
      exact ⟨events, .driven hbegins hplays⟩
    · rintro ⟨events, failure | ⟨start, drives⟩⟩
      · cases hbegins.symm.trans failure
      · cases hbegins.symm.trans start
        exact drives.exists_run

theorem plays_of_done {turn : Turn} {rig : Rig σ} {budget : Nat} {s s' : Session σ}
    {outcome : Outcome} (h : turn.run rig budget s = .done outcome s') :
    ∃ events, turn.Plays rig s events (.ok outcome) s' :=
  run_iff_plays.mp ⟨budget, h⟩

end Turn

/-! ## Rehearsals -/

/-- The stage, the usual settings, and a clock that stands still. -/
def Rig.rehearsal : Rig Stage := ⟨Stage.host, .usual, fun _ => 0⟩

/-- A blank stage, and the action `a` with some steps. -/
def Session.rehearsal (steps : List Step) : Session Stage :=
  .begin (.ofScene .blank)
    { Library.empty with locals := [{ Action.titled "a" "a" with steps := steps }] }

/-- The rehearsal of some steps within a budget. -/
def Turn.rehearse (budget : Nat) (steps : List Step) : Run Stage Outcome :=
  (Turn.play .locals "a").run .rehearsal budget (.rehearsal steps)

/-- What can be seen of the end of a run: what it is done with, unless it has failed, and what the
session that it leaves looks like. -/
def Run.seen? {σ α β : Type} (see : Session σ → β) : Run σ α → Option (Option α × β)
  | done a s => some (some a, see s)
  | failed _ s => some (none, see s)
  | exhausted => none

/-- What can be seen of a failure: why the run has failed, and what the session that it leaves looks
like. -/
def Run.failure? {σ α β : Type} (see : Session σ → β) : Run σ α → Option (PlayError × β)
  | failed e s => some (e, see s)
  | done _ _ | exhausted => none

namespace Run

variable {σ α β : Type} {see : Session σ → β} {r : Run σ α} {a : α} {b : β}

theorem of_failure? {e : PlayError} (h : r.failure? see = some (e, b)) :
    ∃ s, r = .failed e s ∧ see s = b := by
  cases r with
  | done a' s => cases h
  | failed e' s => cases h; exact ⟨s, rfl, rfl⟩
  | exhausted => cases h

theorem of_seen?_done (h : r.seen? see = some (some a, b)) :
    ∃ s, r = .done a s ∧ see s = b := by
  cases r with
  | done a' s => cases h; exact ⟨s, rfl, rfl⟩
  | failed e s => cases h
  | exhausted => cases h

theorem of_seen?_failed (h : r.seen? see = some (none, b)) :
    ∃ e s, r = .failed e s ∧ see s = b := by
  cases r with
  | done a' s => cases h
  | failed e s => cases h; exact ⟨e, s, rfl, rfl⟩
  | exhausted => cases h

theorem of_andThen_done {next : α → Session σ → Run σ β} {s : Session σ}
    (h : r.andThen next = .done b s) : ∃ a s₁, r = .done a s₁ ∧ next a s₁ = .done b s := by
  cases r with
  | done a s₁ => exact ⟨a, s₁, rfl, h⟩
  | failed e s₁ => cases h
  | exhausted => cases h

theorem ne_exhausted_of_seen? {o : Option α × β} (h : r.seen? see = some o) :
    r ≠ .exhausted := by
  rintro rfl
  cases h

end Run

end Replay
