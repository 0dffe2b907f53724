import Replay.Proofs.Playback.Performance

/-!
# Scenarios

What is under way in a playback stands for the blocks that are left to perform: those of the steps
that are still to run, and behind them those that the frames of the counted loops around them hold.

A scenario fixes what does not change in the course of a playback: the library, up to a failure, the
action that is played, and the surface it is played on.

* `Activity.blocks` — the blocks that an activity stands for
* `TimersOutside` — no wait stands in the body of a conditional or range loop
* `Plays.not_suspended` — steps without a wait are not suspended
* `Scenario.Fits` — the activities that come up in a scenario
-/

set_option autoImplicit false

namespace Replay

variable {σ : Type}

/-! ## What is left to perform -/

/-- What a counted loop holds for the time after the present round. -/
def Frame.blocks (f : Frame) : List Block :=
  (List.replicate (f.remaining - 1).toNat (Block.ofSteps f.body)).flatten ++ Block.ofSteps f.after

/-- What is left to perform behind the steps of a resumption. -/
def Resumption.around (r : Resumption) : List Block := r.frames.flatMap Frame.blocks

/-- The rounds of a loop that are left to perform. -/
def Recurrence.blocks (opening : Step) (body : List Block) : Recurrence → List Block
  | times left => List.replicate left (.round opening body)
  | whileTrue condition => [.loop opening (.ok (.whileTrue condition)) body]

/-- What is left to perform of an activity. -/
def Activity.blocks : Activity → List Block
  | drive r => Block.ofSteps r.steps ++ r.around
  | walk p steps => Block.ofSteps steps ++ p.source.around
  | loop p opening body behind again =>
    again.blocks opening (Block.ofSteps body) ++ (Block.ofSteps behind ++ p.source.around)
  | round p opening body behind again =>
    .round opening (Block.ofSteps body) ::
      (again.blocks opening (Block.ofSteps body) ++ (Block.ofSteps behind ++ p.source.around))

theorem Resumption.around_of_finished {r : Resumption} (h : r.close = .finished) :
    r.around = [] := by
  unfold close at h
  split at h
  · rename_i hframes
    rw [around, hframes]
    rfl
  · split at h <;> cases h

/-- The end of a pass leaves just what the frames hold. -/
theorem Resumption.blocks_of_proceed {r next : Resumption} (h : r.close = .proceed next) :
    (Activity.drive next).blocks = r.around := by
  unfold close at h
  split at h
  · cases h
  · rename_i f outer hframes
    rw [around, hframes, List.flatMap_cons]
    split at h
    · rename_i hmore
      cases h
      obtain ⟨n, hn⟩ : ∃ n : Nat, f.remaining = n + 2 := ⟨(f.remaining - 2).toNat, by omega⟩
      have hrounds : (f.remaining - 1).toNat = n + 1 := by omega
      have hrounds' : (f.remaining - 1 - 1).toNat = n := by omega
      simp [Activity.blocks, around, proceed, Frame.blocks, hrounds, hrounds', List.replicate_succ]
    · rename_i hlast
      cases h
      have hrounds : (f.remaining - 1).toNat = 0 := by omega
      simp [Activity.blocks, around, proceed, Frame.blocks, hrounds]

/-- A counted loop that is entered stands for its body so many times. -/
theorem Leg.blocks_entering (p : Leg) {count : Int} (positive : 0 < count) (body after : List Step) :
    (Activity.drive (p.entering count body after)).blocks =
      (List.replicate count.toNat (Block.ofSteps body)).flatten ++
        (Block.ofSteps after ++ p.source.around) := by
  obtain ⟨n, rfl⟩ : ∃ n : Nat, count = n + 1 := ⟨(count - 1).toNat, by omega⟩
  have hrounds : ((n : Int) + 1).toNat = n + 1 := by omega
  simp [Activity.blocks, entering, Resumption.around, Resumption.proceed, Frame.blocks, hrounds,
    List.replicate_succ]

/-- The body of a loop inside a pass stands for itself. -/
theorem Resumption.blocks_nested (r : Resumption) (body : List Step) :
    (Activity.drive (r.nested body)).blocks = Block.ofSteps body := by
  simp [Activity.blocks, nested, proceed, around]

/-! ## Where waits stand -/

/-- There is no wait among some steps. -/
def Waitless (steps : List Step) : Prop :=
  ∀ step ∈ steps, step.isTimer = false ∧ step.awaitsRender = false

instance (steps : List Step) : Decidable (Waitless steps) :=
  inferInstanceAs (Decidable (∀ step ∈ steps, _))

/-- Whether the rounds of a loop are a level of nesting of their own. -/
def Repetition.nests : Repetition → Bool
  | whileTrue _ => true
  | range _ _ _ => true
  | times _ => false

/-- No step waits for a render, and none waits for a time in the body of a conditional or range
loop. -/
structure TimersOutside (steps : List Step) : Prop where
  renders : ∀ step ∈ steps, step.awaitsRender = false
  timers : ∀ {before opening l rest place repetition}, steps = before ++ opening :: rest →
    opening.instruction = .ok (.directive (.loop l)) → Step.closing? rest = some place →
    l.repetition = .ok repetition → repetition.nests = true →
    ∀ step ∈ rest.take place, step.isTimer = false

/-- The end of a loop stays where it is when steps are added behind it. -/
theorem Step.closingFrom_append (behind : List Step) {steps : List Step} :
    ∀ {n place : Nat}, closingFrom n steps = some place →
      closingFrom n (steps ++ behind) = some place ∧ place < steps.length := by
  induction steps with
  | nil => intro n place h; cases h
  | cons step rest ih =>
    intro n place h
    rw [List.cons_append]
    unfold closingFrom at h ⊢
    split at h
    · cases h
      exact ⟨rfl, Nat.zero_lt_succ _⟩
    all_goals
      obtain ⟨place, hplace, rfl⟩ := Option.map_eq_some_iff.mp h
      obtain ⟨hclosing, hlength⟩ := ih hplace
      simp only [hclosing]
      exact ⟨rfl, Nat.succ_lt_succ hlength⟩

theorem Waitless.within {steps whole : List Step} (h : Waitless whole) (hwithin : steps <:+: whole) :
    Waitless steps := fun step hstep => h step (hwithin.mem hstep)

theorem TimersOutside.within {steps whole : List Step} (h : TimersOutside whole)
    (hwithin : steps <:+: whole) : TimersOutside steps := by
  refine ⟨fun step hstep => h.renders step (hwithin.mem hstep), ?_⟩
  intro before opening l rest place repetition hsteps hopening hclosing hrepetition hnests step hstep
  obtain ⟨front, behind, rfl⟩ := hwithin
  obtain ⟨hclosing', hplace⟩ := Step.closingFrom_append behind hclosing
  have hwhole : front ++ steps ++ behind = (front ++ before) ++ opening :: (rest ++ behind) := by
    simp [hsteps]
  refine h.timers hwhole hopening hclosing' hrepetition hnests step ?_
  rw [List.take_append_of_le_length (Nat.le_of_lt hplace)]
  exact hstep

theorem Waitless.timersOutside {steps : List Step} (h : Waitless steps) : TimersOutside steps := by
  refine ⟨fun step hstep => (h step hstep).2, ?_⟩
  rintro before opening l rest place repetition rfl - - - - step hstep
  refine (h step ?_).1
  exact List.mem_append_right _ (List.mem_cons_of_mem _ (List.mem_of_mem_take hstep))

/-- Whether the body of a loop that a step opens, in front of some others, may hold waits. -/
def Step.allowsTimers (step : Step) (rest : List Step) : Bool :=
  match step.instruction, closing? rest with
  | .ok (.directive (.loop l)), some place =>
    match l.repetition with
    | .ok repetition => !repetition.nests || (rest.take place).all fun inner => !inner.isTimer
    | .error _ => true
  | _, _ => true

theorem TimersOutside.cons_iff {step : Step} {rest : List Step} :
    TimersOutside (step :: rest) ↔
      step.awaitsRender = false ∧ step.allowsTimers rest = true ∧ TimersOutside rest := by
  constructor
  · intro h
    refine ⟨h.renders step List.mem_cons_self, ?_, h.within (List.suffix_cons step rest).isInfix⟩
    unfold Step.allowsTimers
    split
    · rename_i l place hreads hclosing
      split
      · rename_i repetition hrepeats
        cases hnests : repetition.nests with
        | false => rfl
        | true =>
          have := h.timers (List.nil_append _).symm hreads hclosing hrepeats hnests
          simpa using this
      · rfl
    · rfl
  · rintro ⟨hrender, hallows, hrest⟩
    refine ⟨List.forall_mem_cons.mpr ⟨hrender, hrest.renders⟩, ?_⟩
    intro before opening l rest' place repetition hsteps hreads hclosing hrepeats hnests
    cases before with
    | nil =>
      obtain ⟨rfl, rfl⟩ := List.cons.inj hsteps
      simpa [Step.allowsTimers, hreads, hclosing, hrepeats, hnests] using hallows
    | cons first before =>
      obtain ⟨-, rfl⟩ := List.cons.inj hsteps
      exact hrest.timers rfl hreads hclosing hrepeats hnests

theorem TimersOutside.nil : TimersOutside [] := by
  refine ⟨by simp, ?_⟩
  intro before opening l rest place repetition hsteps
  simp at hsteps

instance TimersOutside.decidable : (steps : List Step) → Decidable (TimersOutside steps)
  | [] => isTrue .nil
  | _ :: rest =>
    have := decidable rest
    decidable_of_iff _ cons_iff.symm

/-- A property of all the steps that a resumption holds, taken list by list. -/
def Resumption.Throughout (ok : List Step → Prop) (r : Resumption) : Prop :=
  ok r.steps ∧ ∀ f ∈ r.frames, ok f.body ∧ ok f.after

/-- A property of all the steps that an activity has before it, taken list by list. -/
def Activity.Throughout (ok : List Step → Prop) : Activity → Prop
  | drive r => r.Throughout ok
  | walk p steps => ok steps ∧ ∀ f ∈ p.source.frames, ok f.body ∧ ok f.after
  | loop p _ body behind _ | round p _ body behind _ =>
    ok body ∧ ok behind ∧ ∀ f ∈ p.source.frames, ok f.body ∧ ok f.after

section Throughout

variable {ok : List Step → Prop} {p : Leg}

theorem Resumption.throughout_of_proceed {r next : Resumption} (h : r.close = .proceed next)
    (frames : ∀ f ∈ r.frames, ok f.body ∧ ok f.after) : next.Throughout ok := by
  unfold close at h
  split at h
  · cases h
  · rename_i f outer hframes
    rw [hframes] at frames
    obtain ⟨⟨hbody, hafter⟩, houter⟩ := List.forall_mem_cons.mp frames
    split at h <;> cases h
    · exact ⟨hbody, List.forall_mem_cons.mpr ⟨⟨hbody, hafter⟩, houter⟩⟩
    · exact ⟨hafter, houter⟩

theorem Leg.throughout_entering (count : Int) {body after : List Step} (hbody : ok body)
    (hafter : ok after) (frames : ∀ f ∈ p.source.frames, ok f.body ∧ ok f.after) :
    (p.entering count body after).Throughout ok :=
  ⟨hbody, List.forall_mem_cons.mpr ⟨⟨hbody, hafter⟩, frames⟩⟩

theorem Resumption.throughout_nested (r : Resumption) {body : List Step} (hbody : ok body) :
    (r.nested body).Throughout ok :=
  ⟨hbody, fun _ h => nomatch h⟩

end Throughout

theorem Step.drop_within (step : Step) (rest : List Step) (n : Nat) :
    rest.drop n <:+: step :: rest :=
  ((List.drop_suffix n rest).trans (List.suffix_cons step rest)).isInfix

theorem Step.take_within (step : Step) (rest : List Step) (n : Nat) :
    rest.take n <:+: step :: rest :=
  (List.take_prefix n rest).isInfix.trans (List.suffix_cons step rest).isInfix

/-- **Steps without a wait are not suspended.** -/
theorem Plays.not_suspended {rig : Rig σ} {a : Activity} {s s' : Session σ} {events : List Event}
    {result : Result} (h : Plays rig a s events result s') (still : a.Throughout Waitless) :
    result ≠ .ok .suspended := by
  induction h with
  | tooDeep deep => simp
  | gone shallow missing => simp
  | pass shallow found _ ih => exact ih still
  | finish closed => simp
  | close closed _ ih => exact ih (Resumption.throughout_of_proceed closed still.2)
  | act effect done _ ih => exact ih ⟨still.1.within (Step.drop_within _ _ 0), still.2⟩
  | fail effect failed => simp
  | @awaitRender p step steps s reads =>
    have := (still.1 step List.mem_cons_self).2
    simp [Step.awaitsRender, reads] at this
  | @wait p step steps s t reads =>
    have := (still.1 step List.mem_cons_self).1
    simp [Step.isTimer, reads] at this
  | loopEnd reads _ ih => exact ih ⟨still.1.within (Step.drop_within _ _ 0), still.2⟩
  | unmatched reads closing _ ih => exact ih ⟨still.1.within (Step.drop_within _ _ 0), still.2⟩
  | badLoop reads closing repeats => simp
  | enter reads closing repeats positive _ ih =>
    exact ih (Leg.throughout_entering _ (still.1.within (Step.take_within _ _ _))
      (still.1.within (Step.drop_within _ _ _)) still.2)
  | skip reads closing repeats nought _ ih =>
    exact ih ⟨still.1.within (Step.drop_within _ _ _), still.2⟩
  | badRange reads closing repeats counts => simp
  | range reads closing repeats counts _ ih =>
    exact ih ⟨still.1.within (Step.take_within _ _ _), still.1.within (Step.drop_within _ _ _),
      still.2⟩
  | whileTrue reads closing repeats _ ih =>
    exact ih ⟨still.1.within (Step.take_within _ _ _), still.1.within (Step.drop_within _ _ _),
      still.2⟩
  | noneLeft _ ih => exact ih still.2
  | nextRound _ ih => exact ih still
  | enough holds _ ih => exact ih still.2
  | again holds _ ih => exact ih still
  | unknown holds => simp
  | roundTooDeep deep => simp
  | roundFailed shallow _ ih => simp
  | roundDone shallow _ _ ih ih' => exact ih' still

/-! ## Scenarios -/

/-- The session at the end of a performance of an action: if it has failed, the alerts of the action
and of the step to blame are raised. -/
def Ending.leave (collection : Collection) (actionId : String) (ending : Ending σ) (s : Session σ) :
    Session σ :=
  match ending with
  | done state => { s with host := state }
  | failed _ culprit state =>
    { s with host := state, library := s.library.raiseAlert collection actionId culprit.id }

/-- What does not change in the course of a playback. -/
structure Scenario (σ : Type) where
  rig : Rig σ
  library : Library
  collection : Collection
  actionId : String
  action : Action
  /-- The surface that the user works on. -/
  base : Surface
  /-- The states in which the operations of the host keep it. -/
  Usual : σ → Prop
  found : library.action? collection actionId = some action
  keeps : rig.host.Keeps Usual
  ambient : ∀ state, Usual state → rig.host.ambient state = base

namespace Scenario

variable (k : Scenario σ)

/-- How the blocks of the action are performed. -/
def manner : Manner σ := ⟨k.rig.host, k.rig.settings.maxNesting, k.action.grouping, k.base⟩

/-- A session in which nothing has failed so far. -/
structure Admits (s : Session σ) : Prop where
  library : s.library = k.library
  usual : k.Usual s.host

/-- The session at the end of a performance. -/
def leave (ending : Ending σ) (s : Session σ) : Session σ := ending.leave k.collection k.actionId s

/-- A resumption of the action, on the user's surface. -/
structure Owns (r : Resumption) : Prop where
  collection : r.collection = k.collection
  actionId : r.actionId = k.actionId
  surface : r.surface = none ∨ r.surface = some k.base
  shallow : r.depth ≤ k.rig.settings.maxNesting

/-- A pass over the action, on the user's surface. -/
structure Carries (p : Leg) : Prop extends k.Owns p.source where
  grouping : p.grouping = k.action.grouping
  base : p.base = k.base

/-- The pass that a resumption of the action begins with. -/
def leg (r : Resumption) : Leg := ⟨r, k.action.grouping, k.base⟩

/-- An activity that comes up when the action is played. -/
def Fits (a : Activity) : Prop :=
  a.Throughout TimersOutside ∧
    match a with
    | .drive r => k.Owns r
    | .walk p _ => k.Carries p
    | .loop p _ body _ _ | .round p _ body _ _ => k.Carries p ∧ Waitless body

variable {k} {p : Leg} {step opening : Step} {rest body behind : List Step}
  {again again' : Recurrence}

namespace Fits

theorem pass {r : Resumption} (h : k.Fits (.drive r)) : k.Fits (.walk (k.leg r) r.steps) :=
  ⟨h.1, h.2, rfl, rfl⟩

theorem close {next : Resumption} (h : k.Fits (.walk p []))
    (closed : p.source.close = .proceed next) :
    k.Fits (.drive next) := by
  have hthroughout := Resumption.throughout_of_proceed closed h.1.2
  obtain ⟨steps, frames, rfl⟩ := Resumption.eq_proceed closed
  exact ⟨hthroughout, h.2.collection, h.2.actionId, h.2.surface, h.2.shallow⟩

theorem drop (h : k.Fits (.walk p (step :: rest))) (n : Nat) : k.Fits (.walk p (rest.drop n)) :=
  ⟨⟨h.1.1.within (Step.drop_within step rest n), h.1.2⟩, h.2⟩

theorem tail (h : k.Fits (.walk p (step :: rest))) : k.Fits (.walk p rest) := h.drop 0

theorem suspend (h : k.Fits (.walk p (step :: rest))) : k.Fits (.drive (p.behind rest)) :=
  ⟨⟨h.1.1.within (Step.drop_within step rest 0), h.1.2⟩, h.2.collection, h.2.actionId,
    .inr (congrArg some h.2.base), h.2.shallow⟩

theorem enter (h : k.Fits (.walk p (step :: rest))) (count : Int) (place : Nat) :
    k.Fits (.drive (p.entering count (rest.take place) (rest.drop (place + 1)))) :=
  ⟨Leg.throughout_entering count (h.1.1.within (Step.take_within step rest place))
    (h.1.1.within (Step.drop_within step rest _)) h.1.2,
    h.2.collection, h.2.actionId, h.2.surface, h.2.shallow⟩

theorem rounds (h : k.Fits (.walk p (step :: rest))) {l : Loop} {place : Nat}
    {repetition : Repetition} (reads : step.instruction = .ok (.directive (.loop l)))
    (closing : Step.closing? rest = some place) (repeats : l.repetition = .ok repetition)
    (nests : repetition.nests = true) :
    k.Fits (.loop p step (rest.take place) (rest.drop (place + 1)) again) := by
  have htake := h.1.1.within (Step.take_within step rest place)
  refine ⟨⟨htake, h.1.1.within (Step.drop_within step rest _), h.1.2⟩, h.2, fun inner hinner => ?_⟩
  exact ⟨h.1.1.timers (List.nil_append _).symm reads closing repeats nests inner hinner,
    htake.renders inner hinner⟩

theorem leave (h : k.Fits (.loop p opening body behind again)) : k.Fits (.walk p behind) :=
  ⟨h.1.2, h.2.1⟩

theorem round (h : k.Fits (.loop p opening body behind again)) :
    k.Fits (.round p opening body behind again') := h

theorem loop (h : k.Fits (.round p opening body behind again)) :
    k.Fits (.loop p opening body behind again) := h

theorem nested (h : k.Fits (.round p opening body behind again))
    (shallow : p.source.depth + 1 ≤ k.rig.settings.maxNesting) :
    k.Fits (.drive (p.source.nested body)) :=
  ⟨Resumption.throughout_nested _ h.1.1, h.2.1.collection, h.2.1.actionId, h.2.1.surface, shallow⟩

end Fits

end Scenario

end Replay
