import Replay.Proofs.Playback.Refinement

/-!
# Progress

What can be performed is played, to the same end. A playback comes to the blocks that it stands for
one after the other; what it does in between, such as leaving a counted loop or passing over an end
without a beginning, comes to an end, and so do the waits in between. With waits, it takes more than
one turn to come to the end of the performance.

* `Scenario.LeadsTo` — what an activity comes to, taken up again as often as it is suspended
* `Scenario.Fits.settles` — an activity comes to its first block, or is suspended
* `Performs.leads` — what can be performed is played
-/

set_option autoImplicit false

namespace Replay

variable {σ : Type}

open Block

/-! ## From one activity to the next -/

namespace Scenario

variable (k : Scenario σ)

/-- Whatever one activity comes to from one state, another one comes to from another state. -/
def Slides (a : Activity) (state : σ) (a' : Activity) (state' : σ) : Prop :=
  ∀ s, k.Admits s → s.host = state → ∀ {events result s'},
    Plays k.rig a' { s with host := state' } events result s' →
      ∃ events', Plays k.rig a s events' result s'

/-- An activity is suspended, and a resumption takes it up again. -/
def SuspendsTo (a : Activity) (state : σ) (r : Resumption) (state' : σ) : Prop :=
  ∀ s, k.Admits s → s.host = state → ∃ events span,
    Plays k.rig a s events (.ok .suspended)
      (Session.suspend k.rig { s with host := state' } r span)

/-- What an activity comes to if it is taken up again as often as it is suspended. -/
inductive LeadsTo : Activity → σ → Ending σ → Prop
  | ends {a state ending}
      (plays : ∀ s, k.Admits s → s.host = state →
        ∃ events, Plays k.rig a s events ending.result (k.leave ending s)) :
      LeadsTo a state ending
  | waits {a state r state' ending} (suspends : k.SuspendsTo a state r state') (owns : k.Owns r)
      (usual : k.Usual state') (later : LeadsTo (.drive r) state' ending) : LeadsTo a state ending

variable {k} {a a' : Activity} {state state' : σ} {ending : Ending σ}

theorem Slides.silent
    (h : ∀ s, k.Admits s → ∀ {events result s'}, Plays k.rig a' s events result s' →
      ∃ events', Plays k.rig a s events' result s') : k.Slides a state a' state := by
  intro s admits hs _ _ _ hplays
  subst hs
  exact h s admits hplays

theorem Slides.refl : k.Slides a state a state := .silent fun _ _ _ _ _ h => ⟨_, h⟩

theorem Slides.trans {a'' : Activity} (h : k.Slides a state a' state)
    (h' : k.Slides a' state a'' state) : k.Slides a state a'' state := by
  intro s admits hs _ _ _ hplays
  subst hs
  obtain ⟨_, hplays'⟩ := h' s admits rfl hplays
  exact h s admits rfl hplays'

theorem Slides.suspendsTo {r : Resumption} (h : k.Slides a state a' state)
    (h' : k.SuspendsTo a' state r state') : k.SuspendsTo a state r state' := by
  intro s admits hs
  subst hs
  obtain ⟨_, span, hplays⟩ := h' s admits rfl
  obtain ⟨events, hplays'⟩ := h s admits rfl hplays
  exact ⟨events, span, hplays'⟩

theorem LeadsTo.slide (h : k.Slides a state a' state') (usual : k.Usual state')
    (leads : k.LeadsTo a' state' ending) : k.LeadsTo a state ending := by
  cases leads with
  | ends plays =>
    refine .ends fun s admits hs => ?_
    obtain ⟨_, hplays⟩ := plays { s with host := state' } (admits.host usual) rfl
    rw [leave_host] at hplays
    exact h s admits hs hplays
  | waits suspends owns usual' later =>
    refine .waits (fun s admits hs => ?_) owns usual' later
    obtain ⟨_, span, hplays⟩ := suspends { s with host := state' } (admits.host usual) rfl
    obtain ⟨events, hplays'⟩ := h s admits hs hplays
    exact ⟨events, span, hplays'⟩

/-- Without waits it takes one turn. -/
theorem LeadsTo.at_once {r : Resumption} (leads : k.LeadsTo (.drive r) state ending)
    (still : r.Throughout Waitless) {s : Session σ} (admits : k.Admits s) (hs : s.host = state) :
    ∃ events, Plays k.rig (.drive r) s events ending.result (k.leave ending s) := by
  cases leads with
  | ends plays => exact plays s admits hs
  | waits suspends owns usual later =>
    obtain ⟨_, _, hplays⟩ := suspends s admits hs
    exact absurd rfl (hplays.not_suspended still)

end Scenario

/-! ## The first block -/

/-- A bound for what a frame can take without coming to a block. -/
def Frame.work (f : Frame) : Nat :=
  f.remaining.toNat * (2 * f.body.length + 2) + (2 * f.after.length + 2)

/-- The same for frames inside each other. -/
def Frame.works : List Frame → Nat
  | [] => 0
  | f :: outer => f.work + works outer

/-- A bound for what an activity can take without coming to a block. -/
def Activity.work : Activity → Nat
  | drive r => 2 * r.steps.length + 1 + Frame.works r.frames
  | walk p steps => 2 * steps.length + Frame.works p.source.frames
  | loop p _ _ behind _ => 2 * behind.length + 1 + Frame.works p.source.frames
  | round _ _ _ _ _ => 0

theorem Resumption.work_of_proceed {r next : Resumption} (h : r.close = .proceed next) :
    (Activity.drive next).work < Frame.works r.frames := by
  unfold close at h
  split at h
  · cases h
  · rename_i f outer hframes
    rw [hframes, Frame.works]
    split at h
    · rename_i hmore
      cases h
      obtain ⟨n, hn⟩ : ∃ n : Nat, f.remaining = n + 1 := ⟨(f.remaining - 1).toNat, by omega⟩
      have hrounds : (f.remaining - 1).toNat = n := by omega
      have hrounds' : f.remaining.toNat = n + 1 := by omega
      simp only [Activity.work, proceed, Frame.works, Frame.work, hrounds, hrounds', Nat.succ_mul]
      omega
    · cases h
      simp only [Activity.work, proceed, Frame.work]
      omega

namespace Scenario

variable (k : Scenario σ)

/-- An activity that is about to deal with the first of the blocks that it stands for. -/
inductive Faces : Activity → List Block → Prop
  | finish {p : Leg} (closed : p.source.close = .finished) : Faces (.walk p []) []
  | step {p step rest f} (effect : step.effect? k.rig.host p.grouping p.base = some f) :
      Faces (.walk p (step :: rest)) (.step step :: (ofSteps rest ++ p.source.around))
  | loop {p step rest l place repetition} (reads : step.instruction = .ok (.directive (.loop l)))
      (closing : Step.closing? rest = some place) (repeats : l.repetition = repetition)
      (fixed : ∀ condition, repetition ≠ .ok (.whileTrue condition)) :
      Faces (.walk p (step :: rest))
        (.loop step repetition (ofSteps (rest.take place)) ::
          (ofSteps (rest.drop (place + 1)) ++ p.source.around))
  | condition {p opening condition body behind} :
      Faces (.loop p opening body behind (.whileTrue condition))
        (.loop opening (.ok (.whileTrue condition)) (ofSteps body) ::
          (ofSteps behind ++ p.source.around))
  | round {p opening body behind again} :
      Faces (.round p opening body behind again)
        (.round opening (ofSteps body) ::
          (again.blocks opening (ofSteps body) ++ (ofSteps behind ++ p.source.around)))

/-- An activity comes to its first block without further ado, or is suspended before. -/
inductive Settles (a : Activity) : Prop
  | faces {a'} (faces : k.Faces a' a.blocks) (fits : k.Fits a') (depth : a'.depth = a.depth)
      (slides : ∀ state, k.Slides a state a' state)
  | waits {r} (fits : k.Fits (.drive r)) (depth : r.depth = a.depth)
      (blocks : (Activity.drive r).blocks = a.blocks) (less : (Activity.drive r).work < a.work)
      (suspends : ∀ state, k.SuspendsTo a state r state)

variable {k} {a a' : Activity}

/-- Doing something that changes nothing keeps an activity settling. -/
theorem Settles.before (h : k.Settles a') (blocks : a'.blocks = a.blocks) (depth : a'.depth = a.depth)
    (less : a'.work < a.work) (slides : ∀ state, k.Slides a state a' state) : k.Settles a := by
  cases h with
  | faces faces fits depth' slides' =>
    rw [blocks] at faces
    exact .faces faces fits (depth'.trans depth) fun state => (slides state).trans (slides' state)
  | waits fits depth' blocks' less' suspends =>
    exact .waits fits (depth'.trans depth) (blocks'.trans blocks) (Nat.lt_trans less' less)
      fun state => (slides state).suspendsTo (suspends state)

/-- **Nothing goes on forever between two blocks.** -/
theorem Fits.settles (fits : k.Fits a) : k.Settles a := by
  induction hn : a.work using Nat.strongRecOn generalizing a with
  | ind n ih =>
    subst hn
    match a with
    | .drive r =>
      have hless : (Activity.walk (k.leg r) r.steps).work < (Activity.drive r).work := by
        simp only [Activity.work, Scenario.leg]
        omega
      refine (ih _ hless fits.pass rfl).before rfl rfl hless fun state => .silent
        fun s admits events _ _ h => ?_
      refine ⟨events, .pass fits.2.shallow (fits.2.found admits) ?_⟩
      rw [fits.2.leg_eq admits, fits.announce]
      exact h
    | .walk p [] =>
      cases hclose : p.source.close with
      | finished =>
        have hfaces : k.Faces (.walk p []) (Activity.walk p []).blocks := by
          rw [Activity.blocks, Resumption.around_of_finished hclose]
          exact .finish hclose
        exact .faces hfaces fits rfl fun state => .refl
      | suspended =>
        unfold Resumption.close at hclose
        split at hclose
        · cases hclose
        · split at hclose <;> cases hclose
      | proceed next =>
        have hless : (Activity.drive next).work < (Activity.walk p []).work := by
          have := Resumption.work_of_proceed hclose
          simp only [Activity.work, List.length_nil] at this ⊢
          omega
        have hdepth : next.depth = p.source.depth := by
          obtain ⟨_, _, rfl⟩ := Resumption.eq_proceed hclose
          rfl
        have hnext := ih _ hless (fits.close hclose) rfl
        exact hnext.before (Resumption.blocks_of_proceed hclose) hdepth
          hless fun state => .silent fun s _ _ _ _ h => ⟨_, .close hclose h⟩
    | .walk p (first :: rest) =>
      have htail : (Activity.walk p rest).work < (Activity.walk p (first :: rest)).work := by
        simp only [Activity.work, List.length_cons]
        omega
      obtain ⟨f, hf⟩ | hi | ⟨t, hi⟩ | hi | ⟨l, hi⟩ :=
        first.effect?_cases k.rig.host p.grouping p.base
      · have hfaces : k.Faces (.walk p (first :: rest)) (Activity.walk p (first :: rest)).blocks := by
          rw [Activity.blocks, ofSteps_effect hf]
          exact .step hf
        exact .faces hfaces fits rfl fun state => .refl
      · have := fits.1.1.renders first List.mem_cons_self
        simp [Step.awaitsRender, hi] at this
      · refine .waits fits.suspend rfl ?_ ?_ fun state s admits hs => ?_
        · rw [Activity.blocks, Activity.blocks, ofSteps_wait hi]
          rfl
        · simp only [Activity.work, Leg.behind, Resumption.proceed, List.length_cons]
          omega
        · subst hs
          exact ⟨_, _, .wait hi⟩
      · refine (ih _ htail fits.tail rfl).before ?_ rfl htail fun state => .silent
          fun s _ _ _ _ h => ⟨_, .loopEnd hi h⟩
        rw [Activity.blocks, Activity.blocks, ofSteps_loopEnd hi]
      · cases hclosing : Step.closing? rest with
        | none =>
          refine (ih _ htail fits.tail rfl).before ?_ rfl htail fun state => .silent
            fun s _ _ _ _ h => ⟨_, .unmatched hi hclosing h⟩
          rw [Activity.blocks, Activity.blocks, ofSteps_unmatched hi hclosing]
        | some place =>
          by_cases hwhile : ∃ condition, l.repetition = .ok (.whileTrue condition)
          · obtain ⟨condition, hrepeats⟩ := hwhile
            refine .faces ?_ (fits.rounds hi hclosing hrepeats rfl) rfl fun state => .silent
              fun s _ _ _ _ h => ⟨_, .whileTrue hi hclosing hrepeats h⟩
            rw [Activity.blocks, ofSteps_loop hi hclosing, hrepeats]
            exact .condition
          · have hfaces : k.Faces (.walk p (first :: rest))
                (Activity.walk p (first :: rest)).blocks := by
              rw [Activity.blocks, ofSteps_loop hi hclosing]
              exact .loop hi hclosing rfl fun condition h => hwhile ⟨condition, h⟩
            exact .faces hfaces fits rfl fun state => .refl
    | .loop p opening body behind (.times 0) =>
      have hless : (Activity.walk p behind).work <
          (Activity.loop p opening body behind (.times 0)).work := by
        simp only [Activity.work]
        omega
      exact (ih _ hless fits.leave rfl).before rfl rfl hless fun state => .silent
        fun s _ _ _ _ h => ⟨_, .noneLeft h⟩
    | .loop p opening body behind (.times (left + 1)) =>
      exact .faces .round fits.round rfl fun state => .silent fun s _ _ _ _ h => ⟨_, .nextRound h⟩
    | .loop p opening body behind (.whileTrue condition) =>
      exact .faces .condition fits rfl fun state => .refl
    | .round p opening body behind again => exact .faces .round fits rfl fun state => .refl

/-- It is enough to look at activities that are about to deal with their first block. -/
theorem LeadsTo.of_faces {depth : Nat} {blocks : List Block} {state : σ} {ending : Ending σ}
    (usual : k.Usual state)
    (h : ∀ a, k.Faces a blocks → k.Fits a → a.depth = depth → k.LeadsTo a state ending) :
    ∀ a, k.Fits a → a.depth = depth → a.blocks = blocks → k.LeadsTo a state ending := by
  intro a fits hdepth hblocks
  induction hn : a.work using Nat.strongRecOn generalizing a with
  | ind n ih =>
    subst hn
    cases fits.settles with
    | faces faces fits' hdepth' slides =>
      rw [hblocks] at faces
      exact (h _ faces fits' (hdepth'.trans hdepth)).slide (slides state) usual
    | waits fits' hdepth' hblocks' less suspends =>
      exact .waits (suspends state) fits'.2 usual
        (ih _ less _ fits' (hdepth'.trans hdepth) (hblocks'.trans hblocks) rfl)

end Scenario

/-! ## What is performed is played -/

/-- **What can be performed is played, to the same end.** -/
theorem Performs.leads {k : Scenario σ} {depth : Nat} {blocks : List Block} {state : σ}
    {ending : Ending σ} (h : Performs k.manner depth blocks state ending) (usual : k.Usual state) :
    ∀ a, k.Fits a → a.depth = depth → a.blocks = blocks → k.LeadsTo a state ending := by
  induction h with
  | nil =>
    refine .of_faces usual fun a faces fits hdepth => ?_
    cases faces with
    | finish closed =>
      refine .ends fun s admits hs => ?_
      subst hs
      exact ⟨[], .finish closed⟩
  | act effect done _ ih =>
    refine .of_faces usual fun a faces fits hdepth => ?_
    cases faces with
    | step effect' =>
      cases (fits.2.effect effect').symm.trans effect
      have husual := k.keeps.effect effect done usual
      refine Scenario.LeadsTo.slide (fun s admits hs _ _ _ hplays => ?_) husual
        (ih husual _ fits.tail hdepth rfl)
      subst hs
      exact ⟨_, .act effect' done hplays⟩
  | fail effect failed =>
    refine .of_faces usual fun a faces fits hdepth => ?_
    cases faces with
    | step effect' =>
      cases (fits.2.effect effect').symm.trans effect
      refine .ends fun s admits hs => ?_
      subst hs
      rw [← fits.2.alert]
      exact ⟨_, .fail effect' failed⟩
  | badLoop =>
    refine .of_faces usual fun a faces fits hdepth => ?_
    cases faces with
    | loop reads closing repeats fixed =>
      refine .ends fun s admits hs => ?_
      subst hs
      rw [← fits.2.alert]
      exact ⟨_, .badLoop reads closing repeats⟩
  | @times _ _ count _ _ _ _ _ ih =>
    refine .of_faces usual fun a faces fits hdepth => ?_
    cases faces with
    | @loop p _ rest _ place _ reads closing repeats fixed =>
      by_cases positive : 0 < count
      · refine Scenario.LeadsTo.slide (.silent fun s _ _ _ _ hplays => ?_) usual
          (ih usual _ (fits.enter count place) hdepth (Leg.blocks_entering p positive _ _))
        exact ⟨_, .enter reads closing repeats positive hplays⟩
      · have hblocks : (Activity.walk p (rest.drop (place + 1))).blocks =
            (List.replicate count.toNat (ofSteps (rest.take place))).flatten ++
              (ofSteps (rest.drop (place + 1)) ++ p.source.around) := by
          rw [Int.toNat_of_nonpos (Int.not_lt.mp positive)]
          rfl
        refine Scenario.LeadsTo.slide (.silent fun s _ _ _ _ hplays => ?_) usual
          (ih usual _ (fits.drop (place + 1)) hdepth hblocks)
        exact ⟨_, .skip reads closing repeats positive hplays⟩
  | badRange counts =>
    refine .of_faces usual fun a faces fits hdepth => ?_
    cases faces with
    | loop reads closing repeats fixed =>
      refine .ends fun s admits hs => ?_
      subst hs
      rw [← fits.2.alert]
      exact ⟨_, .badRange reads closing repeats counts⟩
  | @range _ _ _ _ _ count _ _ _ _ counts _ ih =>
    refine .of_faces usual fun a faces fits hdepth => ?_
    cases faces with
    | loop reads closing repeats fixed =>
      refine Scenario.LeadsTo.slide (.silent fun s _ _ _ _ hplays => ?_) usual
        (ih usual (.loop _ _ _ _ (.times count)) (fits.rounds reads closing repeats rfl) hdepth rfl)
      exact ⟨_, .range reads closing repeats counts hplays⟩
  | enough holds _ ih =>
    refine .of_faces usual fun a faces fits hdepth => ?_
    cases faces with
    | loop reads closing repeats fixed => exact absurd rfl (fixed _)
    | condition =>
      have husual := k.keeps.condition holds usual
      refine Scenario.LeadsTo.slide (fun s admits hs _ _ _ hplays => ?_) husual
        (ih husual _ fits.leave hdepth rfl)
      subst hs
      exact ⟨_, .enough holds hplays⟩
  | again holds _ ih =>
    refine .of_faces usual fun a faces fits hdepth => ?_
    cases faces with
    | loop reads closing repeats fixed => exact absurd rfl (fixed _)
    | condition =>
      have husual := k.keeps.condition holds usual
      refine Scenario.LeadsTo.slide (fun s admits hs _ _ _ hplays => ?_) husual
        (ih husual (.round _ _ _ _ (.whileTrue _)) fits.round hdepth rfl)
      subst hs
      exact ⟨_, .again holds hplays⟩
  | unknown holds =>
    refine .of_faces usual fun a faces fits hdepth => ?_
    cases faces with
    | loop reads closing repeats fixed => exact absurd rfl (fixed _)
    | condition =>
      refine .ends fun s admits hs => ?_
      subst hs
      rw [← fits.2.1.alert]
      exact ⟨_, .unknown holds⟩
  | tooDeep deep =>
    refine .of_faces usual fun a faces fits hdepth => ?_
    cases faces with
    | round =>
      subst hdepth
      refine .ends fun s admits hs => ?_
      subst hs
      rw [← fits.2.1.alert]
      exact ⟨_, .roundTooDeep deep⟩
  | roundFailed shallow _ ih =>
    refine .of_faces usual fun a faces fits hdepth => ?_
    cases faces with
    | @round p opening body behind again =>
      subst hdepth
      have hinside := ih usual _ (fits.nested shallow) rfl (Resumption.blocks_nested _ _)
      have hstill := Resumption.throughout_nested p.source fits.2.2
      refine .ends fun s admits hs => ?_
      obtain ⟨events, hplays⟩ := hinside.at_once hstill admits hs
      exact ⟨events, .roundFailed shallow hplays⟩
  | roundDone shallow inside _ ih ih' =>
    refine .of_faces usual fun a faces fits hdepth => ?_
    cases faces with
    | @round p opening body behind again =>
      subst hdepth
      have hinside := ih usual _ (fits.nested shallow) rfl (Resumption.blocks_nested _ _)
      have hstill := Resumption.throughout_nested p.source fits.2.2
      have husual := inside.keeps k.keeps usual
      refine Scenario.LeadsTo.slide (fun s admits hs _ _ _ hplays => ?_) husual
        (ih' husual _ fits.loop rfl rfl)
      obtain ⟨_, hplays'⟩ := hinside.at_once hstill admits hs
      exact ⟨_, .roundDone shallow hplays' hplays⟩

end Replay
