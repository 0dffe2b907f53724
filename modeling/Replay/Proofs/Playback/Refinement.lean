import Replay.Proofs.Playback.Scenario

/-!
# Passes and blocks

Playback goes through lists of steps in passes, with frames for counted loops and calls for the
others. What it does is what the blocks say that these steps form.

* `Scenario.Owns.leg_eq`, `Scenario.Fits.announce` — what a pass over the action begins with
* `Plays.performs` — what is played to its end is performed
-/

set_option autoImplicit false

namespace Replay

variable {σ : Type}

/-! ## What a scenario keeps -/

theorem Step.afterRender?_eq_none {steps : List Step}
    (h : ∀ step ∈ steps, step.awaitsRender = false) :
    afterRender? steps = none := by
  induction steps with
  | nil => rfl
  | cons step rest ih =>
    obtain ⟨hstep, hrest⟩ := List.forall_mem_cons.mp h
    rw [afterRender?, hstep]
    exact ih hrest

namespace Scenario

variable {k : Scenario σ} {s : Session σ} {r : Resumption} {ending : Ending σ}

theorem Admits.host (h : k.Admits s) {state : σ} (usual : k.Usual state) :
    k.Admits { s with host := state } := ⟨h.library, usual⟩

theorem leave_host (state : σ) : k.leave ending { s with host := state } = k.leave ending s := by
  cases ending <;> rfl

/-- The alert of a failure is that of the ending. -/
theorem Owns.alert (h : k.Owns r) (e : PlayError) (culprit : Step) (state : σ) :
    Session.alert { s with host := state } r culprit = k.leave (.failed e culprit state) s := by
  unfold Session.alert leave Ending.leave
  rw [h.collection, h.actionId]

theorem Owns.found (h : k.Owns r) (admits : k.Admits s) :
    s.library.action? r.collection r.actionId = some k.action := by
  rw [admits.library, h.collection, h.actionId, k.found]

/-- A pass over the action is on the user's surface. -/
theorem Owns.leg_eq (h : k.Owns r) (admits : k.Admits s) :
    ⟨r, k.action.grouping, r.surface.getD (k.rig.host.ambient s.host)⟩ = k.leg r := by
  rcases h.surface with hnone | hbase
  · rw [hnone, Option.getD_none, k.ambient _ admits.usual, leg]
  · rw [hbase, Option.getD_some, leg]

/-- No pass over the action announces a wait for a render. -/
theorem Fits.announce (h : k.Fits (.drive r)) : s.announce r = s := by
  unfold Session.announce
  rw [Step.afterRender?_eq_none h.1.1.renders]
  split <;> rfl

theorem Carries.effect {p : Leg} (h : k.Carries p) {step : Step}
    {f : σ → Except PlayError Unit × σ} (hf : step.effect? k.rig.host p.grouping p.base = some f) :
    step.effect? k.manner.host k.manner.grouping k.manner.base = some f := by
  rw [h.grouping, h.base] at hf
  exact hf

end Scenario

open Block

/-! ## What is played is performed -/

/-- **What is played to its end is performed, to the same end.** -/
theorem Plays.performs {k : Scenario σ} {a : Activity} {s s' : Session σ} {events : List Event}
    {result : Result} (h : Plays k.rig a s events result s') (fits : k.Fits a) (admits : k.Admits s)
    (ends : result ≠ .ok .suspended) :
    ∃ ending, Performs k.manner a.depth a.blocks s.host ending ∧ result = ending.result ∧
      s' = k.leave ending s := by
  induction h with
  | tooDeep deep => exact absurd fits.2.shallow (Nat.not_le_of_lt deep)
  | gone shallow missing => cases (fits.2.found admits).symm.trans missing
  | pass shallow found _ ih =>
    cases (fits.2.found admits).symm.trans found
    rw [fits.2.leg_eq admits, fits.announce] at ih
    exact ih fits.pass admits ends
  | @finish p s closed =>
    refine ⟨.done s.host, ?_, rfl, rfl⟩
    rw [Activity.blocks, Resumption.around_of_finished closed]
    exact .nil
  | @close p s r _ _ _ closed _ ih =>
    obtain ⟨ending, hperforms, hresult, hs'⟩ := ih (fits.close closed) admits ends
    rw [Resumption.blocks_of_proceed closed] at hperforms
    obtain ⟨steps, frames, rfl⟩ := Resumption.eq_proceed closed
    exact ⟨ending, hperforms, hresult, hs'⟩
  | @act p step steps s f host _ _ _ effect done _ ih =>
    have husual := k.keeps.effect effect done admits.usual
    obtain ⟨ending, hperforms, hresult, hs'⟩ := ih fits.tail (admits.host husual) ends
    rw [Scenario.leave_host] at hs'
    refine ⟨ending, ?_, hresult, hs'⟩
    rw [Activity.blocks, ofSteps_effect effect]
    exact .act (fits.2.effect effect) done hperforms
  | @fail p step steps s f host e effect failed =>
    refine ⟨.failed e step host, ?_, rfl, fits.2.alert e step host⟩
    rw [Activity.blocks, ofSteps_effect effect]
    exact .fail (fits.2.effect effect) failed
  | awaitRender reads => exact absurd rfl ends
  | wait reads => exact absurd rfl ends
  | loopEnd reads _ ih =>
    rw [Activity.blocks, ofSteps_loopEnd reads]
    exact ih fits.tail admits ends
  | unmatched reads closing _ ih =>
    rw [Activity.blocks, ofSteps_unmatched reads closing]
    exact ih fits.tail admits ends
  | @badLoop p step steps s l place cause reads closing repeats =>
    refine ⟨.failed (.malformedDirective step.text cause) step s.host, ?_, rfl,
      fits.2.alert _ step s.host⟩
    rw [Activity.blocks, ofSteps_loop reads closing, repeats]
    exact .badLoop
  | @enter p step steps s l place count _ _ _ reads closing repeats positive _ ih =>
    obtain ⟨ending, hperforms, hresult, hs'⟩ := ih (fits.enter count place) admits ends
    rw [Leg.blocks_entering _ positive] at hperforms
    refine ⟨ending, ?_, hresult, hs'⟩
    rw [Activity.blocks, ofSteps_loop reads closing, repeats]
    exact .times hperforms
  | @skip p step steps s l place count _ _ _ reads closing repeats nought _ ih =>
    obtain ⟨ending, hperforms, hresult, hs'⟩ := ih (fits.drop (place + 1)) admits ends
    refine ⟨ending, ?_, hresult, hs'⟩
    rw [Activity.blocks, ofSteps_loop reads closing, repeats]
    refine .times ?_
    rw [Int.toNat_of_nonpos (Int.not_lt.mp nought)]
    exact hperforms
  | @badRange p step steps s l place start stop by' reads closing repeats counts =>
    refine ⟨.failed (.invalidRange start stop by') step s.host, ?_, rfl,
      fits.2.alert _ step s.host⟩
    rw [Activity.blocks, ofSteps_loop reads closing, repeats]
    exact .badRange counts
  | range reads closing repeats counts _ ih =>
    obtain ⟨ending, hperforms, hresult, hs'⟩ :=
      ih (fits.rounds reads closing repeats rfl) admits ends
    refine ⟨ending, ?_, hresult, hs'⟩
    rw [Activity.blocks, ofSteps_loop reads closing, repeats]
    exact .range counts hperforms
  | whileTrue reads closing repeats _ ih =>
    rw [Activity.blocks, ofSteps_loop reads closing, repeats]
    exact ih (fits.rounds reads closing repeats rfl) admits ends
  | noneLeft _ ih => exact ih fits.leave admits ends
  | nextRound _ ih => exact ih fits.round admits ends
  | enough holds _ ih =>
    have husual := k.keeps.condition holds admits.usual
    obtain ⟨ending, hperforms, hresult, hs'⟩ := ih fits.leave (admits.host husual) ends
    rw [Scenario.leave_host] at hs'
    exact ⟨ending, .enough holds hperforms, hresult, hs'⟩
  | again holds _ ih =>
    have husual := k.keeps.condition holds admits.usual
    obtain ⟨ending, hperforms, hresult, hs'⟩ := ih fits.round (admits.host husual) ends
    rw [Scenario.leave_host] at hs'
    exact ⟨ending, .again holds hperforms, hresult, hs'⟩
  | @unknown p opening condition body behind s host report holds =>
    exact ⟨.failed (.condition condition report) opening host, .unknown holds, rfl,
      fits.2.1.alert _ opening host⟩
  | @roundTooDeep p opening body behind again s deep =>
    exact ⟨.failed (.nestingTooDeep k.rig.settings.maxNesting) opening s.host, .tooDeep deep, rfl,
      fits.2.1.alert _ opening s.host⟩
  | roundFailed shallow _ ih =>
    obtain ⟨ending, hperforms, hresult, hs'⟩ := ih (fits.nested shallow) admits (by simp)
    obtain ⟨culprit, state, rfl⟩ := Ending.eq_failed hresult
    rw [Resumption.blocks_nested] at hperforms
    exact ⟨_, .roundFailed shallow hperforms, rfl, hs'⟩
  | roundDone shallow inside _ ih ih' =>
    -- the body has no waits, so it is not left early
    have hinside := inside.not_suspended (Resumption.throughout_nested _ fits.2.2)
    obtain ⟨ending, hperforms, hresult, rfl⟩ := ih (fits.nested shallow) admits hinside
    obtain ⟨state, rfl⟩ := Ending.eq_done hresult
    rw [Resumption.blocks_nested] at hperforms
    have husual := hperforms.keeps k.keeps admits.usual
    obtain ⟨ending, hperforms', hresult', hs'⟩ := ih' fits.loop (admits.host husual) ends
    refine ⟨ending, .roundDone shallow hperforms hperforms', hresult', ?_⟩
    rw [hs']
    exact Scenario.leave_host state

end Replay
