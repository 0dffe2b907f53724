import Replay.Proofs.Playback.Prolonging
import Replay.Proofs.Playback.Relay

/-!
# Renders

Waits for a render outside of loops cut a playback into several turns and change nothing else, if
signals that a render is complete come when nothing is scheduled. The step behind a wait is looked
up by its id when its signal comes; playback begins there afresh, with the steps that are active.

A resumption that a timer schedules keeps the surface that its pass began on. One that a signal
schedules begins on the surface that the user works on by then, so the operators must not move the
user to another one.

* `WaitsOutside` — where waits may stand
* `Scenario.Arrives` — what a resumption comes to, with signals in turn
* `Relay.arriving` — what the turns of such an action hand on
* `Session.renders_transparent` — an action with waits and the same action without them
* `leaveThenRender_not_transparent` — an operator that moves the user tells them apart
-/

set_option autoImplicit false

namespace Replay

variable {σ : Type}

/-! ## Where waits stand -/

/-- Whether the rounds of a loop are a level of nesting of their own. -/
def Loop.nests (l : Loop) : Bool :=
  match l.repetition with
  | .ok repetition => repetition.nests
  | .error _ => false

/-- The body of a loop has no wait for a render, and if it is the body of a conditional or range
loop, no wait for a time either. -/
structure Loop.Keeps (l : Loop) (body : List Step) : Prop where
  renders : ∀ step ∈ body, step.awaitsRender = false
  timers : l.nests = true → ∀ step ∈ body, step.isTimer = false

instance (l : Loop) (body : List Step) : Decidable (l.Keeps body) :=
  decidable_of_iff ((∀ step ∈ body, step.awaitsRender = false) ∧
      (l.nests = true → ∀ step ∈ body, step.isTimer = false))
    ⟨fun h => ⟨h.1, h.2⟩, fun h => ⟨h.1, h.2⟩⟩

/-- No wait for a render stands in the body of a loop, and no wait for a time in that of a
conditional or range loop. -/
def WaitsOutside (steps : List Step) : Prop := EachLoop Loop.Keeps steps

instance (steps : List Step) : Decidable (WaitsOutside steps) := EachLoop.decidable steps

namespace WaitsOutside

variable {front rest : List Step} {wait : Step}

theorem timersOutside {steps : List Step} (h : WaitsOutside steps)
    (plain : ∀ step ∈ steps, step.awaitsRender = false) : TimersOutside steps := by
  refine ⟨plain, fun hsteps reads closing repeats nests => ?_⟩
  refine (h _ _ _ _ _ hsteps reads closing).timers ?_
  rw [Loop.nests, repeats]
  exact nests

/-- No loop in front of a wait for a render is ended behind it. -/
theorem detached (h : WaitsOutside (front ++ wait :: rest)) (renders : wait.awaitsRender = true) :
    Detached front (wait :: rest) := by
  rintro before opening mid rfl opens hnone
  obtain ⟨l, reads⟩ := Step.reads_of_opens opens
  cases hclosing : Step.closing? (mid ++ wait :: rest) with
  | none => rfl
  | some place =>
    have hsplit : before ++ opening :: mid ++ wait :: rest =
        before ++ opening :: (mid ++ wait :: rest) := by simp
    have hbody := (h _ _ _ _ _ hsplit reads hclosing).renders
    rcases Nat.lt_trichotomy place mid.length with hlt | rfl | hlt
    · cases hnone.symm.trans (Step.closingFrom_of_append hclosing hlt)
    · -- the loop would be ended by the wait
      obtain ⟨closing, hcloses, hmid⟩ := Step.closing?_split hclosing
      rw [List.take_left, List.append_cancel_left_eq] at hmid
      obtain ⟨rfl, -⟩ := List.cons.inj hmid
      simp [Step.bracket, Step.reads_of_awaitsRender renders] at hcloses
    · obtain ⟨n, rfl⟩ : ∃ n, place = mid.length + (n + 1) := ⟨place - mid.length - 1, by omega⟩
      have hin : wait ∈ (mid ++ wait :: rest).take (mid.length + (n + 1)) := by
        rw [List.take_length_add_append]
        simp
      simp [hbody wait hin] at renders

end WaitsOutside

/-- The blocks of steps one behind the other, if no loop reaches from the ones to the others. -/
theorem Block.ofSteps_append {front behind : List Step} (detached : Detached front behind) :
    ofSteps (front ++ behind) = ofSteps front ++ ofSteps behind := by
  induction hn : front.length using Nat.strongRecOn generalizing front with
  | ind n ih =>
    subst hn
    cases front with
    | nil => rfl
    | cons step rest =>
      have hrest : ∀ {rest'}, rest' <:+ rest →
          ofSteps (rest' ++ behind) = ofSteps rest' ++ ofSteps behind := fun hsuffix =>
        ih _ (Nat.lt_succ_of_le hsuffix.length_le)
          (detached.of_suffix (hsuffix.trans (List.suffix_cons step rest))) rfl
      rw [List.cons_append]
      cases hbracket : step.bracket with
      | neither =>
        obtain ⟨added, hadded⟩ := ofSteps_neither hbracket
        rw [hadded, hadded, hrest List.suffix_rfl, List.append_assoc]
      | closes =>
        have reads := Step.reads_of_closes hbracket
        rw [ofSteps_loopEnd reads, ofSteps_loopEnd reads, hrest List.suffix_rfl]
      | opens =>
        obtain ⟨l, reads⟩ := Step.reads_of_opens hbracket
        cases hclosing : Step.closing? rest with
        | none =>
          have hnone := detached [] step rest rfl hbracket hclosing
          rw [ofSteps_unmatched reads hclosing, ofSteps_unmatched reads hnone,
            hrest List.suffix_rfl]
        | some place =>
          obtain ⟨hsome, hplace⟩ := Step.closingFrom_append behind hclosing
          rw [ofSteps_loop reads hclosing, ofSteps_loop reads hsome,
            List.take_append_of_le_length (Nat.le_of_lt hplace),
            List.drop_append_of_le_length hplace, hrest (List.drop_suffix _ _), List.cons_append]

/-! ## What a resumption comes to -/

namespace Scenario

variable (k : Scenario σ)

/-- A turn that goes through the steps of a resumption. -/
def Goes (r : Resumption) (s : Session σ) (result : Result) (s' : Session σ) : Prop :=
  ∃ events, Plays k.rig (.walk (k.leg r) r.steps) s events result s'

/-- A resumption of the action, and a usual state of the host. -/
structure Ready (r : Resumption) (state : σ) : Prop where
  owns : k.Owns r
  usual : k.Usual state

/-- **What a resumption comes to**, taken up again whenever it waits for a time, and gone on with
behind each wait for a render. `Arrives n r state rest ending`: it takes no more than so many turns
behind the first, and there are the steps `rest` behind its next wait for a render. -/
inductive Arrives : Nat → Resumption → σ → List Step → Ending σ → Prop
  | fails {n r state rest e culprit state'} (ready : k.Ready r state)
      (goes : ∀ s, k.Admits s → s.host = state →
        k.Goes r s (.error e) (k.leave (.failed e culprit state') s)) :
      Arrives n r state rest (.failed e culprit state')
  | ends {n r state state'} (ready : k.Ready r state)
      (goes : ∀ s, k.Admits s → s.host = state →
        ∃ outcome, k.Goes r s (.ok outcome) { s with host := state' }) :
      Arrives n r state [] (.done state')
  | waits {n r state r' state' rest ending} (ready : k.Ready r state)
      (goes : ∀ s, k.Admits s → s.host = state → ∃ span,
        k.Goes r s (.ok .suspended) (Session.suspend k.rig { s with host := state' } r' span))
      (stale : r'.fresh = false) (later : Arrives n r' state' rest ending) :
      Arrives (n + 1) r state rest ending
  | rests {n r state state' step rest ending} (ready : k.Ready r state)
      (goes : ∀ s, k.Admits s → s.host = state →
        ∃ outcome, k.Goes r s (.ok outcome) { s with host := state' })
      (suffix : step :: rest <:+ k.action.steps.filter Step.active)
      (later : Arrives n (.start k.collection k.actionId (step :: rest)) state'
        (Step.beyondRender (step :: rest)) ending) :
      Arrives (n + 1) r state (step :: rest) ending

/-- How an action goes on behind a stretch that comes to an ending. -/
inductive Onward : Nat → List Step → Ending σ → Ending σ → Prop
  | failed {n rest e culprit state} :
      Onward n rest (.failed e culprit state) (.failed e culprit state)
  | ended {n state} : Onward n [] (.done state) (.done state)
  | rested {n state step rest ending}
      (suffix : step :: rest <:+ k.action.steps.filter Step.active)
      (later : k.Arrives n (.start k.collection k.actionId (step :: rest)) state
        (Step.beyondRender (step :: rest)) ending) : Onward n (step :: rest) (.done state) ending

variable {k}

theorem Arrives.ready {n : Nat} {r : Resumption} {state : σ} {rest : List Step} {ending : Ending σ}
    (h : k.Arrives n r state rest ending) : k.Ready r state := by
  cases h <;> assumption

/-! ## From stretch to stretch -/

section Stretch

variable {behind rest : List Step} {r r' : Resumption} {state : σ} {s s' : Session σ}
  {events : List Event} {result : Result}

/-- What is driven without a wait for a render ahead is a turn through the steps. -/
theorem Owns.walk_of_drive (owns : k.Owns r) (admits : k.Admits s)
    (plain : ∀ step ∈ r.steps, step.awaitsRender = false)
    (h : Plays k.rig (.drive r) s events result s') :
    Plays k.rig (.walk (k.leg r) r.steps) s events result s' := by
  have hannounce : s.announce r = s := by
    rw [Session.announce, Step.afterRender?_eq_none plain]
    split <;> rfl
  cases h with
  | tooDeep deep => exact absurd owns.shallow (Nat.not_le_of_lt deep)
  | gone _ missing => cases (owns.found admits).symm.trans missing
  | pass _ found walks =>
    cases (owns.found admits).symm.trans found
    rwa [owns.leg_eq admits, hannounce] at walks

/-- A resumption of the action without what lies behind the next wait for a render, and with it. -/
structure Extends (behind : List Step) (r r' : Resumption) : Prop where
  alike : r.Alike r'
  longer : Longer behind r.frames r.steps r'.frames r'.steps

theorem Extends.owns (h : Extends behind r r') (ready : k.Ready r' state) : k.Owns r := by
  have owns := ready.owns
  obtain ⟨alike, -⟩ := h
  exact ⟨alike.collection ▸ owns.collection, alike.actionId ▸ owns.actionId,
    alike.surface ▸ owns.surface, alike.depth ▸ owns.shallow⟩

theorem Extends.goes (h : Extends behind r r') (halt : Halt behind) (ready : k.Ready r' state)
    (admits : k.Admits s) (drives : Plays k.rig (.drive r) s events result s') :
    ∃ result' s'', k.Goes r' s result' s'' ∧ Prolongs k.rig behind result s' result' s'' := by
  have walks := (h.owns ready).walk_of_drive admits h.longer.plain drives
  have alike : (k.leg r).Alike (k.leg r') := ⟨h.alike, rfl, rfl⟩
  obtain ⟨events', result', s'', hplays, hprolongs⟩ := walks.prolonged halt (.walk alike h.longer)
  exact ⟨result', s'', ⟨events', hplays⟩, hprolongs⟩

/-- **What a stretch leads to, the action arrives at**, and goes on behind it. -/
theorem LeadsTo.arrives (halt : Halt behind) {m : Nat} {ending : Ending σ} {a : Activity}
    {mid : Ending σ} (leads : k.LeadsTo a state mid) : ∀ {r r'}, a = .drive r →
      Extends behind r r' → k.Ready r' state → k.Onward m rest mid ending →
        ∃ n, k.Arrives n r' state rest ending := by
  induction leads with
  | @ends _ state mid plays =>
    rintro r r' rfl extension ready onward
    cases onward with
    | failed =>
      refine ⟨0, .fails ready fun s admits hs => ?_⟩
      obtain ⟨events, hplays⟩ := plays s admits hs
      obtain ⟨_, _, hgoes, hprolongs⟩ := extension.goes halt ready admits hplays
      cases hprolongs
      exact hgoes
    | ended =>
      refine ⟨0, .ends ready fun s admits hs => ?_⟩
      obtain ⟨events, hplays⟩ := plays s admits hs
      obtain ⟨_, _, hgoes, hprolongs⟩ := extension.goes halt ready admits hplays
      cases hprolongs
      exact ⟨_, hgoes⟩
    | rested suffix later =>
      refine ⟨_, .rests ready (fun s admits hs => ?_) suffix later⟩
      obtain ⟨events, hplays⟩ := plays s admits hs
      obtain ⟨_, _, hgoes, hprolongs⟩ := extension.goes halt ready admits hplays
      cases hprolongs
      exact ⟨_, hgoes⟩
  | @waits _ state next state' mid suspends owns usual later ih =>
    rintro r r' rfl extension ready onward
    -- what is scheduled is the same, whatever else the session holds
    have hgoes : ∀ s, k.Admits s → s.host = state → ∃ next' span, next.Longer behind next' ∧
        k.Goes r' s (.ok .suspended)
          (Session.suspend k.rig { s with host := state' } next' span) := by
      intro s admits hs
      obtain ⟨events, span, hplays⟩ := suspends s admits hs
      obtain ⟨_, _, hgoes, hprolongs⟩ := extension.goes halt ready admits hplays
      obtain ⟨rfl, next', hnext, rfl⟩ := hprolongs.suspended
      exact ⟨next', span, hnext, hgoes⟩
    obtain ⟨next', -, hnext, -⟩ := hgoes ⟨state, k.library, .empty, []⟩ ⟨rfl, ready.usual⟩ rfl
    have alike := hnext.alike
    have owns' : k.Owns next' := ⟨alike.collection.trans owns.collection,
      alike.actionId.trans owns.actionId, alike.surface ▸ owns.surface, alike.depth ▸ owns.shallow⟩
    obtain ⟨n, harrives⟩ := ih rfl ⟨alike, hnext.longer⟩ ⟨owns', usual⟩ onward
    refine ⟨n + 1, .waits ready (fun s admits hs => ?_) hnext.stale' harrives⟩
    obtain ⟨next'', span, hnext', hgoes⟩ := hgoes s admits hs
    cases hnext.unique hnext'
    exact ⟨span, hgoes⟩

end Stretch

/-- The stretch in front of the next wait for a render is performed, and the rest arrived at. -/
theorem arrives_of_front {front behind rest : List Step} {m : Nat} {state : σ}
    {mid ending : Ending σ} (suffix : front ++ behind <:+ k.action.steps.filter Step.active)
    (halt : Halt behind)
    (plain : ∀ step ∈ front, step.awaitsRender = false) (detached : Detached front behind)
    (outside : WaitsOutside front) (usual : k.Usual state)
    (performs : Performs k.manner 0 (Block.ofSteps front) state mid)
    (onward : k.Onward m rest mid ending) :
    ∃ n, k.Arrives n (.start k.collection k.actionId (front ++ behind)) state rest ending := by
  have hactive : ∀ step ∈ front ++ behind, step.active = true :=
    fun step hstep => (List.mem_filter.mp (suffix.mem hstep)).2
  have hwhole : (front ++ behind).filter Step.active = front ++ behind :=
    List.filter_eq_self.mpr hactive
  have hfront : front.filter Step.active = front :=
    List.filter_eq_self.mpr fun step hstep => hactive step (List.mem_append_left _ hstep)
  have leads : k.LeadsTo (.drive (.start k.collection k.actionId front)) state mid :=
    leads_of_performs usual (by rw [hfront]; exact outside.timersOutside plain) (by rwa [hfront])
  refine leads.arrives halt rfl ⟨⟨rfl, rfl, rfl, rfl⟩, ?_⟩
    ⟨⟨rfl, rfl, .inl rfl, Nat.zero_le _⟩, usual⟩ onward
  rw [Resumption.start, Resumption.start, hfront, hwhole]
  exact .here plain detached

/-- **What can be performed is arrived at**, from the beginning of some of the steps. -/
theorem arrives_of_performs {steps : List Step} : ∀ {state : σ} {ending : Ending σ},
    steps <:+ k.action.steps.filter Step.active → WaitsOutside steps → k.Usual state →
      Performs k.manner 0 (Block.ofSteps steps) state ending →
        ∃ n, k.Arrives n (.start k.collection k.actionId steps) state (Step.beyondRender steps)
          ending := by
  induction hn : steps.length using Nat.strongRecOn generalizing steps with
  | ind n ih =>
    subst hn
    intro state ending suffix outside usual performs
    -- the steps are cut at the first wait for a render
    cases hfind : steps.find? Step.awaitsRender with
    | none =>
      have hplain : ∀ step ∈ steps, step.awaitsRender = false := by
        simpa using List.find?_eq_none.mp hfind
      have hdetached : Detached steps [] := fun _ _ _ _ _ hnone => by rwa [List.append_nil]
      have honward : k.Onward 0 [] ending ending := by
        cases ending with
        | done state' => exact .ended
        | failed e culprit state' => exact .failed
      have := arrives_of_front (by rwa [List.append_nil]) .ended hplain hdetached outside usual
        performs honward
      rwa [List.append_nil, ← Step.beyondRender_of_none hplain] at this
    | some wait =>
      obtain ⟨hrenders, front, rest, rfl, hfront⟩ := List.find?_eq_some_iff_append.mp hfind
      have hplain : ∀ step ∈ front, step.awaitsRender = false := by simpa using hfront
      have hdetached := WaitsOutside.detached outside hrenders
      have hwithin : WaitsOutside front := outside.within (List.prefix_append _ _).isInfix
      have hblocks := Block.ofSteps_append hdetached
      rw [Block.ofSteps_awaitRender (Step.reads_of_awaitsRender hrenders)] at hblocks
      rw [Step.beyondRender_append hplain, Step.beyondRender_cons hrenders]
      -- a failure in front of the wait is the ending; else the steps behind it are fewer
      cases performs.splits hblocks with
      | failed hfailed =>
        exact arrives_of_front suffix (.rests hrenders) hplain hdetached hwithin usual hfailed
          (.failed (n := 0))
      | @done state' _ hmid hbehind =>
        have onward : ∀ {m}, k.Onward m rest (.done state') ending → _ :=
          arrives_of_front suffix (.rests hrenders) hplain hdetached hwithin usual hmid
        cases rest with
        | nil =>
          cases hbehind
          exact onward (.ended (n := 0))
        | cons step rest =>
          have hrest : step :: rest <:+ front ++ wait :: step :: rest := ⟨front ++ [wait], by simp⟩
          have hless : (step :: rest).length < (front ++ wait :: step :: rest).length := by
            simp only [List.length_append, List.length_cons]
            omega
          obtain ⟨n, hlater⟩ := ih _ hless rfl (hrest.trans suffix) (outside.within hrest.isInfix)
            (hmid.keeps k.keeps usual) hbehind
          exact onward (.rested (hrest.trans suffix) hlater)

end Scenario

/-! ## The relay of an action that arrives -/

/-- The action of a scenario, played on its own. -/
def Scenario.solo (k : Scenario σ) (distinct : (k.action.steps.map Step.id).Nodup) : Solo σ :=
  ⟨k.rig, k.library, k.collection, k.actionId, k.action, k.found, distinct⟩

/-- The inactive steps are left out from the beginning. -/
theorem Solo.start_steps (k : Solo σ) : k.start k.steps = k.start k.action.steps := by
  simp [start, steps, Resumption.start]

section Relay

variable {k : Scenario σ} {distinct : (k.action.steps.map Step.id).Nodup} {ending : Ending σ}

/-- The pass that a resumption begins with is on the user's surface. -/
theorem Scenario.Ready.leg_eq {r : Resumption} {s : Session σ} (ready : k.Ready r s.host)
    (library : s.library = k.library) : (k.solo distinct).leg r s.host = k.leg r :=
  ready.owns.leg_eq ⟨library, ready.usual⟩

/-- What the turns of an action that arrives at an ending hand on: what is still to come. -/
def Relay.arriving (k : Scenario σ) (distinct : (k.action.steps.map Step.id).Nodup)
    (ending : Ending σ) : Relay (k.solo distinct) where
  Runs n r host rest _ :=
    k.Arrives n r host rest ending ∧ (r.fresh = true → rest = Step.beyondRender r.steps)
  Rests n host rest _ := k.Onward n rest (.done host) ending
  Fails _ := ∃ e culprit state, ending = .failed e culprit state
  ends := by
    rintro n r _ rest trace s ⟨arrives, -⟩ - library rfl
    have ready := arrives.ready
    have admits : k.Admits s := ⟨library, ready.usual⟩
    rw [ready.leg_eq library]
    cases arrives with
    | fails _ goes =>
      obtain ⟨events, hplays⟩ := goes s admits rfl
      exact ⟨_, _, _, hplays⟩
    | ends _ goes | rests _ goes _ _ =>
      obtain ⟨outcome, events, hplays⟩ := goes s admits rfl
      exact ⟨_, _, _, hplays⟩
    | waits _ goes _ _ =>
      obtain ⟨span, events, hplays⟩ := goes s admits rfl
      exact ⟨_, _, _, hplays⟩
  turn := by
    rintro n r _ rest trace s events result s' ⟨arrives, -⟩ - library rfl plays
    have ready := arrives.ready
    have admits : k.Admits s := ⟨library, ready.usual⟩
    rw [ready.leg_eq library] at plays
    cases arrives with
    | fails _ goes =>
      obtain ⟨_, hplays⟩ := goes s admits rfl
      obtain ⟨rfl, rfl⟩ := plays.unique hplays
      exact .failed ⟨_, _, _, rfl⟩ rfl
    | ends _ goes =>
      obtain ⟨outcome, _, hplays⟩ := goes s admits rfl
      obtain ⟨rfl, rfl⟩ := plays.unique hplays
      exact .rested (m := n) (fun hrest => absurd rfl hrest) .ended rfl
    | waits _ goes stale later =>
      obtain ⟨span, _, hplays⟩ := goes s admits rfl
      obtain ⟨rfl, rfl⟩ := plays.unique hplays
      have owns := later.ready.owns
      exact .scheduled (Nat.lt_succ_self _) ⟨owns.collection, owns.actionId, owns.shallow⟩ stale
        ⟨later, by simp [stale]⟩ (Session.suspend_timetable _ _ _ _)
    | rests _ goes suffix later =>
      obtain ⟨outcome, _, hplays⟩ := goes s admits rfl
      obtain ⟨rfl, rfl⟩ := plays.unique hplays
      exact .rested (fun _ => Nat.lt_succ_self _) (.rested suffix later) rfl
  fresh := fun runs hfresh => runs.2 hfresh
  release := by
    rintro n host step rest trace (_ | _ | ⟨suffix, later⟩)
    have hself : ((k.solo distinct).start (step :: rest)).steps = step :: rest :=
      Solo.start_of_suffix suffix
    exact ⟨suffix, later, fun _ => by rw [hself]⟩

/-- Without a failure, and with nothing scheduled or queued, the ending has come. -/
theorem Relay.Underway.done_of_idle {n : Nat} {takes : List Take} {s : Session σ}
    (h : (Relay.arriving k distinct ending).Underway n takes s)
    (sound : ∀ t ∈ takes, t.fails = false)
    (idle : s.pending = 0) (waits : s.waits = []) : ending = .done s.host := by
  cases h with
  | scheduled _ _ waiting _ _ _ => simp [Session.pending_of_waiting waiting] at idle
  | rested _ _ _ rests queued =>
    cases rests with
    | ended => rfl
    | rested _ _ => simp [queued, Solo.queue] at waits
  | failed _ fails _ _ => simp [sound _ List.mem_concat_self] at fails

end Relay

/-! ## Actions without their waits -/

/-- Whether a step waits, for a time or for a render. -/
def Step.isWait (step : Step) : Bool := step.isTimer || step.awaitsRender

/-- The action without the steps that wait. -/
def Action.withoutWaits (a : Action) : Action :=
  { a with steps := a.steps.filter fun step => !step.isWait }

/-- The library with the first action of an id without the steps that wait. -/
def Library.withoutWaits (l : Library) (c : Collection) (id : String) : Library :=
  l.modifyAction c id Action.withoutWaits

theorem Library.action?_withoutWaits {l : Library} {c : Collection} {id : String} {action : Action}
    (found : l.action? c id = some action) :
    (l.withoutWaits c id).action? c id = some action.withoutWaits := by
  rw [withoutWaits, action?_modifyAction Action.withoutWaits fun _ => rfl, found]
  rfl

theorem Action.waitless_withoutWaits (a : Action) :
    Waitless (a.withoutWaits.steps.filter Step.active) := by
  intro step hstep
  have hwait := (List.mem_filter.mp (List.mem_filter.mp hstep).1).2
  simpa [Step.isWait] using hwait

/-- Waits make no difference to the blocks that an action forms. -/
theorem Block.ofSteps_withoutWaits (a : Action) :
    ofSteps (a.withoutWaits.steps.filter Step.active) = ofSteps (a.steps.filter Step.active) := by
  have hswap : a.withoutWaits.steps.filter Step.active =
      (a.steps.filter Step.active).filter fun step => !step.isWait := by
    simp only [Action.withoutWaits, List.filter_filter, Bool.and_comm]
  rw [hswap]
  refine ofSteps_filter_of (fun step hwait levels => ?_) _
  rw [Bool.not_eq_false', Step.isWait, Bool.or_eq_true] at hwait
  rcases hwait with htimer | hrender
  · obtain ⟨t, reads⟩ := Step.reads_of_isTimer htimer
    rw [Levels.push, reads]
  · rw [Levels.push, Step.reads_of_awaitsRender hrender]

/-- **Renders are transparent.** Let an action be given whose steps have ids of their own, with no
wait for a render in the body of a loop and no timer in that of a conditional or range loop, on a
stage whose operators leave the user's surface alone; and let the action be played to some result
without its waits. Then it is played with them, too, and cues can be given until nothing is
scheduled or queued, unless a step fails. However the timetable is looked at, and whenever a render
is reported complete while nothing is scheduled: no step fails unless one does without the waits;
and as long as none has failed, at most one resumption is pending and every look comes to an end,
and as soon as nothing is scheduled or queued any more, the stage is that of playing without waits.
-/
theorem Session.renders_transparent (settings : PlaySettings) (clock : Nat → Time)
    (s : Session Stage) (steady : s.host.operators.Steady) (idle : s.timetable.waiting = [])
    (quiet : s.waits = []) {collection : Collection} {id : String} {action : Action}
    (found : s.library.action? collection id = some action)
    (distinct : (action.steps.map Step.id).Nodup)
    (outside : WaitsOutside (action.steps.filter Step.active))
    {budget : Nat} {plain : Result} {t : Session Stage}
    (played : Session.play ⟨Stage.host, settings, clock⟩ budget collection id
      { s with library := s.library.withoutWaits collection id } = .ofResult plain t) :
    (∃ budget result s₁,
      s.play ⟨Stage.host, settings, clock⟩ budget collection id = .ofResult result s₁) ∧
    ∀ events result s₁,
      (Turn.play collection id).Plays ⟨Stage.host, settings, clock⟩ s events result s₁ →
      (∃ takes s₂, Unfolds ⟨Stage.host, settings, clock⟩ Cue.InTurn
        [⟨.play collection id, events, result⟩] s₁ takes s₂ ∧ Relay.Over takes s₂) ∧
      ∀ takes s₂, Unfolds ⟨Stage.host, settings, clock⟩ Cue.WhenIdle
          [⟨.play collection id, events, result⟩] s₁ takes s₂ →
        (plain = .ok .finished → ∀ t ∈ takes, t.fails = false) ∧
        ((∀ t ∈ takes, t.fails = false) →
          s₂.pending ≤ 1 ∧
          (∀ now, ∃ new s₃, (Cue.look now).Runs ⟨Stage.host, settings, clock⟩ s₂ new s₃) ∧
          (s₂.pending = 0 → s₂.waits = [] → plain = .ok .finished ∧ s₂.host = t.host)) := by
  let k := Scenario.onSteady steady settings clock s.host.scene.ambient found
  let k' := Scenario.onSteady steady settings clock s.host.scene.ambient
    (Library.action?_withoutWaits found)
  -- without waits, the action is performed
  rw [play_of_found (Library.action?_withoutWaits found)] at played
  obtain ⟨events, hplain⟩ := drive_iff_plays.mp ⟨budget, played⟩
  have admits : k'.Admits { s with library := s.library.withoutWaits collection id } :=
    ⟨rfl, rfl, rfl⟩
  obtain ⟨ending, hperforms, rfl, rfl⟩ :=
    Scenario.performs_of_drive admits action.waitless_withoutWaits hplain
  rw [Block.ofSteps_withoutWaits] at hperforms
  -- with waits, it arrives at the same ending
  obtain ⟨n, harrives⟩ :=
    Scenario.arrives_of_performs (k := k) List.suffix_rfl outside ⟨rfl, rfl⟩ hperforms
  let relay := Relay.arriving k distinct ending
  have hruns : relay.Runs n ((k.solo distinct).start action.steps) s.host
      (Step.beyondRender (k.solo distinct).steps) [] := by
    have hstart : Resumption.start k.collection k.actionId (k.action.steps.filter Step.active) =
        (k.solo distinct).start action.steps := (k.solo distinct).start_steps
    rw [hstart] at harrives
    exact ⟨harrives, fun _ => rfl⟩
  refine ⟨Relay.play_ends rfl hruns, fun events result s₁ hplays => ?_⟩
  obtain ⟨m, hunderway⟩ := Relay.underway_of_play idle quiet rfl hruns hplays
  refine ⟨hunderway.completes, fun takes s₂ hunfolds => ⟨fun hfinished => ?_, fun sound => ?_⟩⟩
  · have never : ∀ trace, ¬relay.Fails trace := by
      rintro _ ⟨e, culprit, state, rfl⟩
      cases hfinished
    obtain ⟨m', hend⟩ :=
      Relay.underway_of_unfolds hunderway (Relay.inTurn_of_never hunderway never hunfolds)
    exact hend.sound never
  · obtain ⟨m', hend⟩ := Relay.underway_of_unfolds hunderway (hunfolds.inTurn sound)
    refine ⟨hend.pending_le_one, hend.look_runs, fun hidle hwaits => ?_⟩
    obtain rfl := hend.done_of_idle sound hidle hwaits
    exact ⟨rfl, rfl⟩

/-- A loop of two rounds, each of which counts a property up and waits for a time; behind it a wait
for a render, and another count. -/
def roundsThenRender : List Step := [
  .recorded "l" "ar.event:\x7b\"Type\":\"Loop\",\"StatementType\":\"repeat\",\"RepeatCount\":2\x7d",
  .recorded "n" "bpy.ops.scene.increment(key=\"n\")",
  .recorded "t" "ar.event:\x7b\"Type\":\"Timer\",\"Time\":0.5\x7d",
  .recorded "e" "ar.event:\x7b\"Type\":\"EndLoop\"\x7d",
  .recorded "r" "ar.event:\x7b\"Type\":\"Render Complete\"\x7d",
  .recorded "m" "bpy.ops.scene.increment(key=\"n\")"]

theorem roundsThenRender_plain :
    (Turn.rehearse 10 (roundsThenRender.filter fun step => !step.isWait)).seen?
      (fun s => s.host.journal.length) = some (some .finished, 3) := by
  decide +kernel

/-- Leaving the waits of the action of a rehearsal out is rehearsing the other steps. -/
theorem Session.rehearsal_withoutWaits (steps : List Step) :
    { Session.rehearsal steps with
      library := (Session.rehearsal steps).library.withoutWaits .locals "a" } =
      Session.rehearsal (steps.filter fun step => !step.isWait) := rfl

theorem roundsThenRender_transparent :
    ∃ takes s₂, (∀ t ∈ takes, t.fails = false) ∧ s₂.pending = 0 ∧ s₂.waits = [] ∧
      s₂.host.journal.length = 3 ∧
      ∃ first s₁, Unfolds Rig.rehearsal Cue.WhenIdle [first] s₁ takes s₂ := by
  obtain ⟨t, hplain, hjournal⟩ := Run.of_seen?_done roundsThenRender_plain
  have hplayed : Session.play .rehearsal 10 .locals "a"
      { Session.rehearsal roundsThenRender with
        library := (Session.rehearsal roundsThenRender).library.withoutWaits .locals "a" } =
      .ofResult (.ok .finished) t := by
    rw [Session.rehearsal_withoutWaits]
    exact hplain
  have hfound : (Session.rehearsal roundsThenRender).library.action? .locals "a" =
      some { Action.titled "a" "a" with steps := roundsThenRender } := rfl
  obtain ⟨⟨budget, result, s₁, hrun⟩, hhistories⟩ :=
    Session.renders_transparent .usual (fun _ => 0) (.rehearsal roundsThenRender)
      OperatorTable.builtIn_steady rfl rfl hfound (by decide +kernel) (by decide +kernel) hplayed
  have hfirst : ∃ n, (Turn.play .locals "a").run .rehearsal n (.rehearsal roundsThenRender) =
      .ofResult result s₁ := ⟨budget, hrun⟩
  obtain ⟨events, hplays⟩ := Turn.run_iff_plays.mp hfirst
  obtain ⟨⟨takes, s₂, hunfolds, hover⟩, htransparent⟩ := hhistories events result s₁ hplays
  have hidle := hunfolds.imp Cue.InTurn.whenIdle
  obtain ⟨hsound, hend⟩ := htransparent takes s₂ hidle
  have hsound := hsound rfl
  obtain ⟨-, -, hhost⟩ := hend hsound
  rcases hover with ⟨take, htake, hfails⟩ | ⟨hpending, hwaits⟩
  · simp [hsound take htake] at hfails
  · obtain ⟨-, hhost⟩ := hhost hpending hwaits
    exact ⟨takes, s₂, hsound, hpending, hwaits, by rw [hhost]; exact hjournal, _, s₁, hidle⟩

/-- An operator that takes the user off every surface. -/
def Operator.leave : Operator := ⟨none, fun _ s => (.ok (), { s with ambient := .nowhere })⟩

/-- The rehearsal of some steps on a stage that has this operator, too. -/
def Session.departing (steps : List Step) : Session Stage :=
  { Session.rehearsal steps with
    host := .equipped .blank (OperatorTable.builtIn.register "screen.leave" .leave) }

/-- A command that takes the user away, a wait for a render, and another command. -/
def leaveThenRender : List Step := [
  .recorded "m" "bpy.ops.screen.leave()",
  .recorded "r" "ar.event:\x7b\"Type\":\"Render Complete\"\x7d",
  .recorded "x" "bpy.context.scene.x = 1"]

/-- The areas in which commands have been run on a stage, and those that are to be drawn again. -/
def Stage.areas (st : Stage) : List (Option Nat) × List Nat :=
  (st.journal.map fun entry => entry.surface.area, st.redraws)

theorem leaveThenRender_suspended :
    ((Turn.play .locals "a").run .rehearsal 10 (.departing leaveThenRender)).seen?
      Session.pending = some (some .suspended, 0) := by
  decide +kernel

/-- With the wait, the command behind it is run in no area. -/
theorem leaveThenRender_resumed :
    (((Turn.play .locals "a").run .rehearsal 10 (.departing leaveThenRender)).andThen fun _ s =>
      (s.renderComplete .rehearsal).2.tick .rehearsal 10 PlaySettings.usual.resumeSpan).seen?
        (fun s => (s.pending + s.waits.length, s.host.areas)) =
      some (some ⟨1, 0, []⟩, 0, [some 1, none], [1]) := by
  decide +kernel

/-- Without the wait, both commands are run in the area that the pass began in. -/
theorem leaveThenRender_plain :
    ((Turn.play .locals "a").run .rehearsal 10
      (.departing (leaveThenRender.filter fun step => !step.isWait))).seen? (fun s => s.host.areas) =
      some (some .finished, [some 1, some 1], [1, 1]) := by
  decide +kernel

/-- **Renders are not transparent to an operator that moves the user.** What a signal schedules
begins where the user is by then, while a pass stays where it began. -/
theorem leaveThenRender_not_transparent :
    (Session.departing leaveThenRender).pending = 0 ∧
    (Session.departing leaveThenRender).waits = [] ∧
    (leaveThenRender.map Step.id).Nodup ∧
    WaitsOutside (leaveThenRender.filter Step.active) ∧
    ∃ s₁ report s₂ t,
      (Turn.play .locals "a").run .rehearsal 10 (.departing leaveThenRender) =
        .done .suspended s₁ ∧
      s₁.pending = 0 ∧
      (s₁.renderComplete .rehearsal).2.tick .rehearsal 10 PlaySettings.usual.resumeSpan =
        .done report s₂ ∧
      report.failures = [] ∧ s₂.pending = 0 ∧ s₂.waits = [] ∧
      (Turn.play .locals "a").run .rehearsal 10
        (.departing (leaveThenRender.filter fun step => !step.isWait)) = .done .finished t ∧
      s₂.host.journal ≠ t.host.journal ∧ s₂.host.redraws ≠ t.host.redraws := by
  obtain ⟨s₁, hplay, hidle⟩ := Run.of_seen?_done leaveThenRender_suspended
  obtain ⟨s₂, hresumed, hseen⟩ := Run.of_seen?_done leaveThenRender_resumed
  obtain ⟨t, hplain, hplaces⟩ := Run.of_seen?_done leaveThenRender_plain
  rw [hplay, Run.andThen] at hresumed
  obtain ⟨hnone, hareas⟩ := Prod.mk.inj hseen
  obtain ⟨hpending, hwaits⟩ := Nat.add_eq_zero_iff.mp hnone
  obtain ⟨hmoved, hredrawn⟩ := Prod.mk.inj hareas
  obtain ⟨hstayed, hdrawn⟩ := Prod.mk.inj hplaces
  refine ⟨rfl, rfl, by decide +kernel, by decide +kernel, s₁, _, s₂, t, hplay, hidle, hresumed, rfl,
    hpending, List.length_eq_zero_iff.mp hwaits, hplain, fun same => ?_, ?_⟩
  · rw [same, hstayed] at hmoved
    exact absurd hmoved (by decide)
  · rw [hredrawn, hdrawn]
    decide

end Replay
