import Replay.Proofs.Library.Basic
import Replay.Proofs.Playback.Structured

/-!
# Timers

Waits for a time cut a playback into several turns and change nothing else. What an action with such
waits leaves behind when nothing is pending any more, however often and whenever the timetable was
looked at, is what the action without them leaves behind. The waits must not stand in the body of a
conditional or range loop.

* `Looks` — looks at the timetable, one after the other
* `Scenario.Underway` — between two looks, at most one resumption is pending
* `Session.timers_transparent` — an action with waits and the same action without them
-/

set_option autoImplicit false

namespace Replay

variable {σ : Type}

/-! ## Looks at the timetable -/

/-- Looks at the timetable, one after the other, with the failures that they report. -/
inductive Looks (rig : Rig σ) : Session σ → List (String × PlayError) → Session σ → Prop
  | none {s} : Looks rig s [] s
  | look {budget now s report s' failures s''} (look : s.tick rig budget now = .done report s')
      (rest : Looks rig s' failures s'') : Looks rig s (report.failures ++ failures) s''

/-- A failure, if a result is one. -/
def Result.failure? : Result → Option PlayError
  | .ok _ => none
  | .error e => some e

/-- The library after a failure at a step, if there has been one. -/
def Library.flagged (l : Library) (collection : Collection) (actionId : String) :
    Option String → Library
  | some stepId => l.raiseAlert collection actionId stepId
  | none => l

theorem Ending.leave_library (collection : Collection) (actionId : String) (ending : Ending σ)
    (s : Session σ) : (ending.leave collection actionId s).library =
      s.library.flagged collection actionId ending.blame? := by
  cases ending <;> rfl

theorem Ending.leave_host (collection : Collection) (actionId : String) (ending : Ending σ)
    (s : Session σ) : (ending.leave collection actionId s).host = ending.state := by
  cases ending <;> rfl

theorem Ending.leave_timetable (collection : Collection) (actionId : String) (ending : Ending σ)
    (s : Session σ) : (ending.leave collection actionId s).timetable = s.timetable := by
  cases ending <;> rfl

/-- The only entry is handed over when it is due. -/
theorem Timetable.takeDue_of_due {α : Type} {t : Timetable α} {entry : TimetableEntry α}
    {now : Time} (waiting : t.waiting = [entry]) (due : entry.isDue now = true) :
    t.takeDue now = ([entry], ⟨t.issued, []⟩) := by
  simp [takeDue, waiting, due]

/-- Nothing is handed over when nothing is due. -/
theorem Timetable.takeDue_of_not_due {α : Type} {t : Timetable α} {now : Time}
    (waiting : ∀ entry ∈ t.waiting, entry.isDue now = false) : t.takeDue now = ([], t) := by
  have hdue : t.waiting.filter (TimetableEntry.isDue now) = [] :=
    List.filter_eq_nil_iff.mpr fun e he => by simp [waiting e he]
  have hleft : (t.waiting.filter fun e => !e.isDue now) = t.waiting :=
    List.filter_eq_self.mpr fun e he => by simp [waiting e he]
  rw [takeDue, hdue, hleft, List.mergeSort_nil]

namespace Session

variable {rig : Rig σ} {budget : Nat} {now : Time} {s : Session σ}

/-- A look at which nothing is due changes nothing. -/
theorem tick_of_not_due (h : ∀ e ∈ s.timetable.waiting, e.isDue now = false) :
    s.tick rig budget now = .done .quiet s := by
  rw [tick, Timetable.takeDue_of_not_due h]
  rfl

theorem pending_of_waiting {entries : List (TimetableEntry Resumption)}
    (h : s.timetable.waiting = entries) : s.pending = entries.length := by
  rw [← h]
  rfl

/-- A look at which the only entry is due runs it, and reports its failure. -/
theorem tick_of_due {e : TimetableEntry Resumption} {action : Action} {result : Result}
    {s' : Session σ} (waiting : s.timetable.waiting = [e]) (due : e.isDue now = true)
    (found : s.library.action? e.payload.collection e.payload.actionId = some action)
    (run : e.payload.drive rig budget { s with timetable := ⟨s.timetable.issued, []⟩ } =
      .ofResult result s') :
    s.tick rig budget now =
      .done ⟨1, 0, (Result.failure? result).toList.map fun error => (e.payload.actionId, error)⟩
        s' := by
  simp only [tick, Timetable.takeDue_of_due waiting due, List.map_cons, List.map_nil, resumeEach, found, run]
  cases result <;> rfl

end Session

theorem Session.resumeEach_agrees (rig : Rig σ) {n m : Nat} (h : n ≤ m) (rs : List Resumption) :
    ∀ (report : TickReport) (s : Session σ),
      (resumeEach rig n rs report s).Agrees (resumeEach rig m rs report s) := by
  induction rs with
  | nil => exact fun report s => Run.Agrees.refl _
  | cons r rest ih =>
    intro report s
    unfold resumeEach
    split
    · exact ih _ s
    · have hdrive := Resumption.drive_agrees rig h r s
      intro hends
      cases hrun : r.drive rig n s with
      | done outcome s' =>
        rw [hrun] at hdrive hends
        rw [hdrive (by simp)]
        exact ih _ s' hends
      | failed e s' =>
        rw [hrun] at hdrive hends
        rw [hdrive (by simp)]
        exact ih _ s' hends
      | exhausted =>
        rw [hrun] at hends
        exact absurd rfl hends

/-- **A look within two budgets comes to the same.** -/
theorem Session.tick_unique {rig : Rig σ} {n m : Nat} {now : Time} {s s₁ s₂ : Session σ}
    {report₁ report₂ : TickReport} (h₁ : s.tick rig n now = .done report₁ s₁)
    (h₂ : s.tick rig m now = .done report₂ s₂) : report₁ = report₂ ∧ s₁ = s₂ := by
  have hagrees : ∀ {n m : Nat}, n ≤ m → (s.tick rig n now).Agrees (s.tick rig m now) :=
    fun h => resumeEach_agrees rig h _ _ _
  have hlarge₁ := hagrees (Nat.le_max_left n m) (by rw [h₁]; simp)
  have hlarge₂ := hagrees (Nat.le_max_right n m) (by rw [h₂]; simp)
  have h : Run.done report₁ s₁ = Run.done report₂ s₂ := by
    rw [← h₁, ← h₂, ← hlarge₁, ← hlarge₂]
  cases h
  exact ⟨rfl, rfl⟩

/-! ## Between two looks -/

namespace Scenario

variable (k : Scenario σ)

/-- A playback that comes to an ending, between two looks: one resumption is pending, or none is and
the playback has come to its ending. The list holds its failures so far. -/
inductive Underway (ending : Ending σ) : List PlayError → Session σ → Prop
  | waiting {s entry} (admits : k.Admits s) (waiting : s.timetable.waiting = [entry])
      (owns : k.Owns entry.payload) (leads : k.LeadsTo (.drive entry.payload) s.host ending) :
      Underway ending [] s
  | settled {s} (idle : s.timetable.waiting = []) (host : s.host = ending.state)
      (library : s.library = k.library.flagged k.collection k.actionId ending.blame?) :
      Underway ending (Result.failure? ending.result).toList s

variable {k} {ending : Ending σ} {errors : List PlayError} {s s' : Session σ}

/-- One turn comes to the ending, or to a resumption that leads there. -/
theorem LeadsTo.turn {r : Resumption} {state : σ} (leads : k.LeadsTo (.drive r) state ending)
    (admits : k.Admits s) (hs : s.host = state) (idle : s.timetable.waiting = []) :
    ∃ budget result s', r.drive k.rig budget s = .ofResult result s' ∧
      k.Underway ending (Result.failure? result).toList s' := by
  cases leads with
  | ends plays =>
    obtain ⟨events, hplays⟩ := plays s admits hs
    obtain ⟨budget, hrun⟩ := drive_iff_plays.mpr ⟨events, hplays⟩
    refine ⟨budget, ending.result, k.leave ending s, hrun, .settled ?_ ?_ ?_⟩
    · rw [leave, Ending.leave_timetable, idle]
    · exact Ending.leave_host _ _ _ _
    · rw [leave, Ending.leave_library, admits.library]
  | @waits _ _ r' state' _ suspends owns usual later =>
    obtain ⟨events, span, hplays⟩ := suspends s admits hs
    obtain ⟨budget, hrun⟩ := drive_iff_plays.mpr ⟨events, hplays⟩
    have hwaiting : (Session.suspend k.rig { s with host := state' } r' span).timetable.waiting =
        [⟨s.timetable.issued, Time.deadline (k.rig.clock s.timetable.issued) span, r'⟩] := by
      simp [Session.suspend, Timetable.scheduleAfter, Timetable.schedule, idle]
    exact ⟨budget, .ok .suspended, _, hrun, .waiting ⟨admits.library, usual⟩ hwaiting owns later⟩

/-- **A look comes to an end, and leaves at most one resumption pending.** -/
theorem Underway.tick (h : k.Underway ending errors s) (now : Time) :
    ∃ budget report s', s.tick k.rig budget now = .done report s' ∧
      k.Underway ending (errors ++ report.failures.map Prod.snd) s' := by
  cases h with
  | settled idle host library =>
    have hquiet : s.tick k.rig 0 now = .done .quiet s :=
      Session.tick_of_not_due (by rw [idle]; simp)
    refine ⟨0, .quiet, s, hquiet, ?_⟩
    rw [Session.TickReport.quiet, List.map_nil, List.append_nil]
    exact .settled idle host library
  | @waiting _ entry admits waiting owns leads =>
    cases hdue : entry.isDue now with
    | false =>
      have hquiet : s.tick k.rig 0 now = .done .quiet s :=
        Session.tick_of_not_due (by rw [waiting]; simpa using hdue)
      exact ⟨0, .quiet, s, hquiet, .waiting admits waiting owns leads⟩
    | true =>
      have admits' : k.Admits { s with timetable := ⟨s.timetable.issued, []⟩ } :=
        ⟨admits.library, admits.usual⟩
      obtain ⟨budget, result, s', hrun, hunderway⟩ := leads.turn admits' rfl rfl
      refine ⟨budget, _, s', Session.tick_of_due waiting hdue (owns.found admits) hrun, ?_⟩
      simpa [List.map_map, Function.comp_def] using hunderway

/-- Whatever a look comes to, it leaves the playback underway. -/
theorem Underway.of_tick (h : k.Underway ending errors s) {budget : Nat} {now : Time}
    {report : Session.TickReport} (htick : s.tick k.rig budget now = .done report s') :
    k.Underway ending (errors ++ report.failures.map Prod.snd) s' := by
  obtain ⟨budget', report', s'', htick', hunderway⟩ := h.tick now
  obtain ⟨rfl, rfl⟩ := Session.tick_unique htick htick'
  exact hunderway

theorem Underway.of_looks (h : k.Underway ending errors s) {failures : List (String × PlayError)}
    (looks : Looks k.rig s failures s') :
    k.Underway ending (errors ++ failures.map Prod.snd) s' := by
  induction looks generalizing errors with
  | none => simpa using h
  | look look _ ih =>
    have := ih (h.of_tick look)
    rwa [List.append_assoc, ← List.map_append] at this

/-- What leads to an ending can be looked at until nothing is pending. -/
theorem LeadsTo.drains {a : Activity} {state : σ} (leads : k.LeadsTo a state ending) :
    ∀ {s : Session σ} {entry : TimetableEntry Resumption}, a = .drive entry.payload →
      k.Admits s → s.host = state → s.timetable.waiting = [entry] → k.Owns entry.payload →
      ∃ failures s', Looks k.rig s failures s' ∧ s'.timetable.waiting = [] := by
  induction leads with
  | @ends _ _ ending plays =>
    rintro s entry rfl admits hs waiting owns
    have hdue : entry.isDue entry.deadline = true := by simp [TimetableEntry.isDue]
    have admits' : k.Admits { s with timetable := ⟨s.timetable.issued, []⟩ } :=
      ⟨admits.library, admits.usual⟩
    obtain ⟨events, hplays⟩ := plays _ admits' hs
    obtain ⟨budget, hrun⟩ := drive_iff_plays.mpr ⟨events, hplays⟩
    have htick := Session.tick_of_due waiting hdue (owns.found admits) hrun
    exact ⟨_, _, .look htick .none, by rw [leave, Ending.leave_timetable]⟩
  | @waits _ _ r state' _ suspends owns' usual later ih =>
    rintro s entry rfl admits hs waiting owns
    have hdue : entry.isDue entry.deadline = true := by simp [TimetableEntry.isDue]
    have admits' : k.Admits { s with timetable := ⟨s.timetable.issued, []⟩ } :=
      ⟨admits.library, admits.usual⟩
    obtain ⟨events, span, hplays⟩ := suspends _ admits' hs
    obtain ⟨budget, hrun⟩ := drive_iff_plays.mpr ⟨events, hplays⟩
    have htick := Session.tick_of_due waiting hdue (owns.found admits) hrun
    have hnext : k.Admits (Session.suspend k.rig
        { s with host := state', timetable := ⟨s.timetable.issued, []⟩ } r span) :=
      ⟨admits.library, usual⟩
    obtain ⟨failures, s', hlooks, hidle⟩ := ih rfl hnext rfl rfl owns'
    exact ⟨_, s', .look htick hlooks, hidle⟩

/-- **Looking at the timetable comes to an end.** -/
theorem Underway.drains (h : k.Underway ending errors s) :
    ∃ failures s', Looks k.rig s failures s' ∧ s'.pending = 0 := by
  cases h with
  | settled idle host library => exact ⟨[], s, .none, Session.pending_of_waiting idle⟩
  | waiting admits waiting owns leads =>
    obtain ⟨failures, s', hlooks, hidle⟩ := leads.drains rfl admits rfl waiting owns
    exact ⟨failures, s', hlooks, Session.pending_of_waiting hidle⟩

theorem Underway.pending_le_one (h : k.Underway ending errors s) : s.pending ≤ 1 := by
  cases h with
  | waiting admits waiting owns leads => simp [Session.pending_of_waiting waiting]
  | settled idle host library => simp [Session.pending_of_waiting idle]

/-- When nothing is pending any more, the ending has come. -/
theorem Underway.of_idle (h : k.Underway ending errors s) (idle : s.pending = 0) :
    errors = (Result.failure? ending.result).toList ∧ s.host = ending.state ∧
      s.library = k.library.flagged k.collection k.actionId ending.blame? := by
  cases h with
  | waiting admits waiting owns leads =>
    simp [Session.pending_of_waiting waiting] at idle
  | settled idle host library => exact ⟨rfl, host, library⟩

end Scenario

/-! ## Actions without their timers -/

/-- The action without the steps that wait for a time. -/
def Action.withoutTimers (a : Action) : Action :=
  { a with steps := a.steps.filter fun step => !step.isTimer }

/-- The library with the first action of an id without the steps that wait for a time. -/
def Library.withoutTimers (l : Library) (c : Collection) (id : String) : Library :=
  l.modifyAction c id Action.withoutTimers

namespace Library

variable {l : Library} {c : Collection} {id stepId : String} {action : Action}

theorem action?_withoutTimers (found : l.action? c id = some action) :
    (l.withoutTimers c id).action? c id = some action.withoutTimers := by
  rw [withoutTimers, action?_modifyAction Action.withoutTimers fun _ => rfl, found]
  rfl

/-- The alerts of an action do not depend on its timers, unless one of these comes first among the
steps that bear the id of the step to blame. -/
theorem withoutTimers_raiseAlert (found : l.action? c id = some action)
    (first : ∀ step, action.steps.find? (fun s => s.id == stepId) = some step →
      step.isTimer = false) :
    (l.raiseAlert c id stepId).withoutTimers c id =
      (l.withoutTimers c id).raiseAlert c id stepId := by
  unfold raiseAlert withoutTimers
  rw [modifyAction_modifyAction (fun a => a.withAlert stepId) _ fun _ => rfl,
    modifyAction_modifyAction Action.withoutTimers _ fun _ => rfl]
  refine congrArg (l.withActions c) (modifyFirst_congr fun a ha => ?_)
  cases ha.symm.trans found
  simp only [Action.withoutTimers, Action.withAlert]
  rw [filter_modifyFirst fun step hstep => by simp [first step hstep]]
  exact fun _ => rfl

end Library

/-- The active steps without their timers are without any wait. -/
theorem TimersOutside.waitless {steps : List Step} (h : TimersOutside (steps.filter Step.active)) :
    Waitless ((steps.filter fun step => !step.isTimer).filter Step.active) := by
  intro step hstep
  obtain ⟨hmem, hactive⟩ := List.mem_filter.mp hstep
  obtain ⟨hmem, htimer⟩ := List.mem_filter.mp hmem
  exact ⟨by simpa using htimer, h.renders step (List.mem_filter.mpr ⟨hmem, hactive⟩)⟩

/-- **Timers are transparent.** Let an action be given that has no wait for a render and no timer in
the body of a conditional or range loop, and let it be played to some result without its timers.
Then it is played with them, too; whenever the timetable is looked at afterwards, each look comes to
an end and at most one resumption is pending, and there are looks after which none is. As soon as
none is, the failures reported on the way and the host are those of playing without timers. So are
the alerts: the same step is blamed, unless a timer comes first among the steps of its id. -/
theorem Session.timers_transparent (settings : PlaySettings) (clock : Nat → Time) (s : Session Stage)
    (builtIn : s.host.operators = .builtIn) (idle : s.timetable.waiting = [])
    {collection : Collection} {id : String} {action : Action}
    (found : s.library.action? collection id = some action)
    (outside : TimersOutside (action.steps.filter Step.active))
    {budget : Nat} {plain : Result} {t : Session Stage}
    (played : Session.play ⟨Stage.host, settings, clock⟩ budget collection id
      { s with library := s.library.withoutTimers collection id } = .ofResult plain t) :
    ∃ budget result s₁,
      s.play ⟨Stage.host, settings, clock⟩ budget collection id = .ofResult result s₁ ∧
      (∃ failures s₂, Looks ⟨Stage.host, settings, clock⟩ s₁ failures s₂ ∧ s₂.pending = 0) ∧
      ∀ failures s₂, Looks ⟨Stage.host, settings, clock⟩ s₁ failures s₂ →
        s₂.pending ≤ 1 ∧
        (∀ now, ∃ budget report s₃,
          s₂.tick ⟨Stage.host, settings, clock⟩ budget now = .done report s₃) ∧
        (s₂.pending = 0 →
          (Result.failure? result).toList ++ failures.map Prod.snd =
            (Result.failure? plain).toList ∧
          s₂.host = t.host ∧
          ∃ blame : Option String,
            s₂.library = s.library.flagged collection id blame ∧
            t.library = (s.library.withoutTimers collection id).flagged collection id blame ∧
            ((∀ stepId step, blame = some stepId →
                action.steps.find? (fun x => x.id == stepId) = some step → step.isTimer = false) →
              s₂.library.withoutTimers collection id = t.library)) := by
  let k := Scenario.onStage settings clock s.host.scene.ambient found
  obtain ⟨ending, hperforms, rfl, rfl⟩ :=
    performs_of_play (s := { s with library := s.library.withoutTimers collection id }) builtIn
      (Library.action?_withoutTimers found) outside.waitless played
  have hblocks : Block.ofSteps (action.withoutTimers.steps.filter Step.active) =
      Block.ofSteps (action.steps.filter Step.active) := by
    rw [← Block.ofSteps_filter (action.steps.filter Step.active)]
    simp only [Action.withoutTimers, List.filter_filter, Bool.and_comm]
  rw [hblocks] at hperforms
  have hleads := leads_of_performs settings clock builtIn found outside hperforms
  obtain ⟨budget, result, s₁, hrun, hunderway⟩ := hleads.turn ⟨rfl, builtIn, rfl⟩ rfl idle
  rw [← play_of_found found] at hrun
  refine ⟨budget, result, s₁, hrun, hunderway.drains, fun failures s₂ hlooks => ?_⟩
  have hunderway₂ := hunderway.of_looks hlooks
  refine ⟨hunderway₂.pending_le_one, fun now => ?_, fun hidle => ?_⟩
  · obtain ⟨budget, report, s₃, htick, -⟩ := hunderway₂.tick now
    exact ⟨budget, report, s₃, htick⟩
  · obtain ⟨herrors, hhost, hlibrary⟩ := hunderway₂.of_idle hidle
    have hlibrary : s₂.library = s.library.flagged collection id ending.blame? := hlibrary
    refine ⟨herrors, ?_, ending.blame?, hlibrary, Ending.leave_library _ _ _ _, fun first => ?_⟩
    · rw [hhost, Ending.leave_host]
    · rw [Ending.leave_library, hlibrary]
      cases hblame : ending.blame? with
      | none => rfl
      | some stepId =>
        exact Library.withoutTimers_raiseAlert found fun step hstep => first stepId step hblame hstep

/-- A loop of two rounds, each of which counts a property up and waits. -/
def timedRounds : List Step := [
  .recorded "l" "ar.event:\x7b\"Type\":\"Loop\",\"StatementType\":\"repeat\",\"RepeatCount\":2\x7d",
  .recorded "n" "bpy.ops.scene.increment(key=\"n\")",
  .recorded "t" "ar.event:\x7b\"Type\":\"Timer\",\"Time\":0.5\x7d",
  .recorded "e" "ar.event:\x7b\"Type\":\"EndLoop\"\x7d"]

theorem timedRounds_plain :
    (Turn.rehearse 10 (timedRounds.filter fun step => !step.isTimer)).seen?
      (fun s => s.host.journal.length) = some (some .finished, 2) := by
  decide +kernel

/-- Leaving the timers of the action of a rehearsal out is rehearsing the other steps. -/
theorem Session.rehearsal_withoutTimers (steps : List Step) :
    { Session.rehearsal steps with
      library := (Session.rehearsal steps).library.withoutTimers .locals "a" } =
      Session.rehearsal (steps.filter fun step => !step.isTimer) := rfl

theorem timedRounds_transparent :
    ∃ budget result s₁, (Session.rehearsal timedRounds).play .rehearsal budget .locals "a" =
      .ofResult result s₁ ∧ ∃ failures s₂, Looks .rehearsal s₁ failures s₂ ∧ s₂.pending = 0 ∧
        s₂.host.journal.length = 2 := by
  obtain ⟨t, hplain, hjournal⟩ := Run.of_seen?_done timedRounds_plain
  have hplayed : Session.play .rehearsal 10 .locals "a"
      { Session.rehearsal timedRounds with
        library := (Session.rehearsal timedRounds).library.withoutTimers .locals "a" } =
      .ofResult (.ok .finished) t := by
    rw [Session.rehearsal_withoutTimers]
    exact hplain
  have houtside : TimersOutside (timedRounds.filter Step.active) := by decide +kernel
  have hfound : (Session.rehearsal timedRounds).library.action? .locals "a" =
      some { Action.titled "a" "a" with steps := timedRounds } := rfl
  obtain ⟨budget, result, s₁, hrun, ⟨failures, s₂, hlooks, hidle⟩, hend⟩ :=
    Session.timers_transparent .usual (fun _ => 0) (.rehearsal timedRounds) rfl rfl hfound houtside
      hplayed
  obtain ⟨-, -, htransparent⟩ := hend failures s₂ hlooks
  obtain ⟨-, hhost, -⟩ := htransparent hidle
  exact ⟨budget, result, s₁, hrun, failures, s₂, hlooks, hidle, by rw [hhost]; exact hjournal⟩

/-- A timer, and behind it a command of the same id that no operator knows. -/
def sharedId : List Step := [
  .recorded "x" "ar.event:\x7b\"Type\":\"Timer\",\"Time\":0\x7d",
  .recorded "x" "bpy.ops.object.fly()"]

/-- The alerts of the steps that are no timers. -/
def Session.plainAlerts (s : Session Stage) : List Bool :=
  s.library.locals.flatMap fun a =>
    (a.steps.filter fun step => !step.isTimer).map Step.alert

/-- With the timer, the timer is blamed. -/
theorem sharedId_timed :
    (((Turn.rehearse 10 sharedId).andThen fun _ s => s.tick .rehearsal 10 0).seen?
      fun s => (s.pending, s.plainAlerts)) =
      some (some ⟨1, 0, [("a", .invocation "bpy.ops.object.fly()"
        "Calling operator \"bpy.ops.object.fly\" error, could not be found")]⟩, 0, [false]) := by
  decide +kernel

/-- Without the timer, the command is blamed. -/
theorem sharedId_plain :
    (Turn.rehearse 10 (sharedId.filter fun step => !step.isTimer)).seen? Session.plainAlerts =
      some (none, [true]) := by
  decide +kernel

/-- **Alerts may differ if a timer comes first among the steps of an id.** -/
theorem sharedId_not_transparent :
    ∃ outcome s₁ report s₂ e t,
      Turn.rehearse 10 sharedId = .done outcome s₁ ∧
      s₁.tick .rehearsal 10 0 = .done report s₂ ∧ s₂.pending = 0 ∧
      Turn.rehearse 10 (sharedId.filter fun step => !step.isTimer) = .failed e t ∧
      s₂.plainAlerts ≠ t.plainAlerts := by
  obtain ⟨s₂, htimed, hseen⟩ := Run.of_seen?_done sharedId_timed
  obtain ⟨outcome, s₁, hplay, htick⟩ := Run.of_andThen_done htimed
  obtain ⟨e, t, hplain, halerts⟩ := Run.of_seen?_failed sharedId_plain
  obtain ⟨hpending, hflags⟩ := Prod.mk.inj hseen
  refine ⟨outcome, s₁, _, s₂, e, t, hplay, htick, hpending, hplain, ?_⟩
  rw [hflags, halerts]
  decide

end Replay
