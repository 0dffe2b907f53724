import Replay.Proofs.Library.Alerts
import Replay.Proofs.Playback.Inheritance

/-!
# Who is to blame

A call that fails has come to one step last, and that step is to blame: it cannot be read, its
effect fails, its condition cannot be told, or its rounds are nested too deeply. The call flags this
step and its action. A failure inside the body of a loop is passed on by the loops around it, and
none of them is flagged on the way.

* `Plays.verdict` — a call that fails flags the step that it has come to last, and its action
* `Resumes.flaggings` — the same for a look at the timetable, resumption by resumption
* `Session.failures_flag_culprits` — what is flagged, by whatever makes the player do something
-/

set_option autoImplicit false

namespace Replay

variable {σ : Type}

/-! ## The culprit of a call -/

/-- The resumption that an activity is part of. -/
def Activity.source : Activity → Resumption
  | drive r => r
  | walk p _ | loop p _ _ _ _ | round p _ _ _ _ => p.source

/-- The step that a failure with these events is due to: the one that was come to last, or the one
that opens a loop whose rounds would be too deep. -/
inductive Blames (rig : Rig σ) (a : Activity) : List Event → Step → Prop
  | last (before e) : Blames rig a (before ++ [e]) e.step
  | tooDeep {opening} (opens : a.opening? = some opening)
      (deep : rig.settings.maxNesting < a.depth + 1) : Blames rig a [] opening

/-- What becomes of the library: only a failure touches it, and raises the alert of the culprit. -/
inductive Verdict (rig : Rig σ) (a : Activity) (l : Library) :
    List Event → Result → Library → Prop
  | spared {events outcome} : Verdict rig a l events (.ok outcome) l
  | blamed {events e culprit} (blames : Blames rig a events culprit) :
      Verdict rig a l events (.error e)
        (l.raiseAlert a.source.collection a.source.actionId culprit.id)

namespace Verdict

variable {rig : Rig σ} {a a' : Activity} {l l' : Library} {events : List Event} {result : Result}

theorem library_eq {outcome : Outcome} (h : Verdict rig a l events (.ok outcome) l') : l' = l := by
  cases h
  rfl

/-- The last event of a failure is to blame. -/
theorem library_of_concat {before : List Event} {e : Event} {error : PlayError}
    (h : Verdict rig a l (before ++ [e]) (.error error) l') :
    l' = l.raiseAlert a.source.collection a.source.actionId e.step.id := by
  generalize hevents : before ++ [e] = events at h
  cases h with
  | blamed blames =>
    cases blames with
    | last before' e' =>
      obtain ⟨-, hlast⟩ := List.append_inj' hevents rfl
      cases hlast
      rfl
    | tooDeep _ _ => simp at hevents

/-- What happens without an event is blamed on the same step. -/
theorem silent (h : Verdict rig a' l events result l')
    (collection : a'.source.collection = a.source.collection)
    (actionId : a'.source.actionId = a.source.actionId)
    (opening : ∀ step, a'.opening? = some step → a.opening? = some step ∧ a'.depth = a.depth) :
    Verdict rig a l events result l' := by
  cases h with
  | spared => exact .spared
  | blamed blames =>
    rw [collection, actionId]
    cases blames with
    | last before last => exact .blamed (.last before last)
    | tooDeep opens deep =>
      obtain ⟨hopens, hdepth⟩ := opening _ opens
      exact .blamed (.tooDeep hopens (hdepth ▸ deep))

/-- A round that is not too deep has been played, and the loop goes on. -/
theorem append (h : Verdict rig a l events result l') (earlier : List Event)
    (shallow : a.depth + 1 ≤ rig.settings.maxNesting) :
    Verdict rig a l (earlier ++ events) result l' := by
  cases h with
  | spared => exact .spared
  | blamed blames =>
    cases blames with
    | last before last =>
      rw [← List.append_assoc]
      exact .blamed (.last (earlier ++ before) last)
    | tooDeep _ deep => omega

/-- Behind an event, a loop whose rounds are too deep is the one that the event is about. -/
theorem cons (h : Verdict rig a' l events result l') {e : Event}
    (collection : a'.source.collection = a.source.collection)
    (actionId : a'.source.actionId = a.source.actionId)
    (opening : ∀ step, a'.opening? = some step → e.step = step) :
    Verdict rig a l (e :: events) result l' := by
  cases h with
  | spared => exact .spared
  | blamed blames =>
    rw [collection, actionId]
    cases blames with
    | last before last => exact .blamed (.last (e :: before) last)
    | tooDeep opens deep =>
      obtain rfl := opening _ opens
      exact .blamed (.last [] e)

end Verdict

theorem Session.announce_library (s : Session σ) (r : Resumption) :
    (s.announce r).library = s.library := by
  unfold announce
  split
  · split <;> rfl
  · rfl

/-- **A failure flags the step that is come to last.** A call that does not fail leaves the library
as it is; one that fails raises the alert of its culprit, however many loops are around that, and
changes nothing else. -/
theorem Plays.verdict {rig : Rig σ} {a : Activity} {s s' : Session σ} {events : List Event}
    {result : Result} (h : Plays rig a s events result s')
    (shallow : a.depth ≤ rig.settings.maxNesting) :
    Verdict rig a s.library events result s'.library := by
  induction h with
  | tooDeep deep => exact absurd deep (Nat.not_lt.mpr shallow)
  | gone _ _ | finish _ => exact .spared
  | pass _ _ _ ih =>
    rw [← Session.announce_library]
    exact (ih shallow).silent rfl rfl nofun
  | close closed _ ih =>
    obtain ⟨steps, frames, rfl⟩ := Resumption.eq_proceed closed
    exact (ih shallow).silent rfl rfl nofun
  | fail _ _ | badLoop _ _ _ | badRange _ _ _ _ | unknown _ => exact .blamed (.last [] _)
  | awaitRender _ | wait _ => exact .spared
  | act _ _ _ ih | loopEnd _ _ ih | unmatched _ _ _ ih | enter _ _ _ _ _ ih | skip _ _ _ _ _ ih =>
    exact (ih shallow).cons rfl rfl nofun
  | range _ _ _ _ _ ih | whileTrue _ _ _ _ ih =>
    exact (ih shallow).cons rfl rfl fun _ opens => by cases opens; rfl
  | noneLeft _ ih => exact (ih shallow).silent rfl rfl nofun
  | nextRound _ ih => exact (ih shallow).silent rfl rfl fun _ opens => ⟨opens, rfl⟩
  | enough _ _ ih => exact (ih shallow).cons rfl rfl nofun
  | again _ _ ih => exact (ih shallow).cons rfl rfl fun _ opens => by cases opens; rfl
  | roundTooDeep deep => exact .blamed (.tooDeep rfl deep)
  | roundFailed inner _ ih => exact (ih inner).silent rfl rfl nofun
  | roundDone inner _ _ ih ih' =>
    rw [← (ih inner).library_eq]
    exact ((ih' shallow).append _ inner).silent rfl rfl fun _ opens => ⟨opens, rfl⟩

/-! ## The culprits of a look -/

/-- The flags that turn after turn sets: none if it does not fail; else that of its action and, if
it is still there, that of the step it has come to last. -/
inductive Flaggings : Library → List Take → Library → Prop
  | none {l} : Flaggings l [] l
  | spared {l take takes l'} (succeeds : take.fails = false) (later : Flaggings l takes l') :
      Flaggings l (take :: takes) l'
  | flagged {l r before e error l₁ takes l'}
      (flags : l.FlagsStep r.collection r.actionId e.step.id l₁ ∨
        l.FlagsAction r.collection r.actionId e.step.id l₁)
      (later : Flaggings l₁ takes l') :
      Flaggings l (⟨.resume r, before ++ [e], .error error⟩ :: takes) l'

/-- **A look flags the culprits of the resumptions that fail, and nothing else.** -/
theorem Resumes.flaggings {rig : Rig σ} {rs : List Resumption} {s s' : Session σ}
    {takes : List Take} (h : Resumes rig rs s takes s')
    (shallow : ∀ r ∈ rs, r.depth ≤ rig.settings.maxNesting) :
    Flaggings s.library takes s'.library := by
  induction h with
  | nothing => exact .none
  | dropped _ _ ih => exact ih (List.forall_mem_cons.mp shallow).2
  | @taken r rest s action events result s₁ takes s' found plays _ ih =>
    obtain ⟨hr, hrest⟩ := List.forall_mem_cons.mp shallow
    have hverdict := plays.verdict hr
    generalize s₁.library = l at hverdict ih
    cases hverdict with
    | spared => exact .spared rfl (ih hrest)
    | blamed blames =>
      cases blames with
      | last before e => exact .flagged (Library.flags_raiseAlert found) (ih hrest)
      | tooDeep opens _ => cases opens

/-! ## Alerts over a history -/

section History

variable {rig : Rig σ} {s s' : Session σ} {takes : List Take}

theorem Verdict.alertsRise {a : Activity} {l l' : Library} {events : List Event} {result : Result}
    (h : Verdict rig a l events result l') : l.AlertsRise l' := by
  cases h with
  | spared => exact .refl l
  | blamed _ => exact l.alertsRise_raiseAlert _ _ _

/-- A call takes no alert back, however deep it begins. -/
theorem Plays.alertsRise {r : Resumption} {events : List Event} {result : Result}
    (h : Plays rig (.drive r) s events result s') : s.library.AlertsRise s'.library := by
  by_cases shallow : r.depth ≤ rig.settings.maxNesting
  · exact (h.verdict shallow).alertsRise
  · cases h with
    | tooDeep _ => exact .refl _
    | gone inner _ => exact absurd inner shallow
    | pass inner _ _ => exact absurd inner shallow

theorem Resumes.alertsRise {rs : List Resumption} (h : Resumes rig rs s takes s') :
    s.library.AlertsRise s'.library := by
  induction h with
  | nothing => exact .refl _
  | dropped _ _ ih => exact ih
  | taken _ plays _ ih => exact plays.alertsRise.trans ih

theorem Session.releaseEach_library (rig : Rig σ) (waits : List RenderWait) (n : Nat)
    (s : Session σ) : (releaseEach rig waits n s).2.library = s.library :=
  releaseEach_keeps (p := fun s' => s'.library = s.library) (fun _ _ _ _ hs => hs) waits n s rfl

theorem Cue.Runs.alertsRise {cue : Cue} (h : cue.Runs rig s takes s') :
    s.library.AlertsRise s'.library := by
  cases h with
  | play plays =>
    cases plays with
    | refused _ => exact .refl _
    | driven _ drives => exact drives.alertsRise
  | look resumes => exact resumes.alertsRise
  | rendered =>
    rw [Session.renderComplete, Session.releaseEach_library]
    exact .refl _

/-- **Over a history alerts are raised, and none is taken back.** -/
theorem Unfolds.alertsRise {allowed : List Take → Session σ → Cue → Prop} {earlier : List Take}
    (h : Unfolds rig allowed earlier s takes s') : s.library.AlertsRise s'.library := by
  induction h with
  | start => exact .refl _
  | cue _ _ runs ih => exact ih.trans runs.alertsRise

end History

/-! ## What is flagged -/

/-- The steps of a beginning are steps of its action. -/
theorem Resumption.holds_start (collection : Collection) (id : String) (steps : List Step) :
    (Activity.drive (.start collection id steps)).Holds (· ∈ steps) :=
  ⟨⟨fun _ hstep => (List.mem_filter.mp hstep).1, nofun⟩, nofun⟩

/-- Playing an action drives its beginning, unless there is no such action. -/
theorem Turn.begins_play {s : Session σ} {collection : Collection} {id : String}
    {begins : Except PlayError Resumption} (h : (Turn.play collection id).begins s = begins) :
    begins = .error (.missingAction id) ∨
      ∃ action, s.library.action? collection id = some action ∧
        begins = .ok (.start collection id action.steps) := by
  subst h
  simp only [Turn.begins]
  cases hfound : s.library.action? collection id with
  | none => exact .inl rfl
  | some action =>
    obtain rfl := Library.id_of_action? hfound
    exact .inr ⟨action, rfl, rfl⟩

/-- **A failure flags its culprit.** Playing an action leaves the library as it is, unless it fails;
if it fails, and not because there is no such action, two flags are set: that of the action and that
of the step that playback has come to last (of the first step, if others have the same id). A look
at the timetable does the same for each resumption that fails, except that the step may be gone from
the action. Whatever the player is made to do, no alert is taken back. -/
theorem Session.failures_flag_culprits (rig : Rig σ) (s : Session σ) :
    (∀ budget collection id outcome s', s.play rig budget collection id = .done outcome s' →
      s'.library = s.library) ∧
    (∀ budget collection id error s', s.play rig budget collection id = .failed error s' →
      error ≠ .missingAction id →
      ∃ action before last, s.library.action? collection id = some action ∧
        (Turn.play collection id).Plays rig s (before ++ [last]) (.error error) s' ∧
        last.step ∈ action.steps ∧
        s.library.FlagsStep collection id last.step.id s'.library) ∧
    (Arises rig s → ∀ budget now report s', s.tick rig budget now = .done report s' →
      ∃ takes, Resumes rig ((s.timetable.takeDue now).1.map TimetableEntry.payload)
          { s with timetable := (s.timetable.takeDue now).2 } takes s' ∧
        report = TickReport.quiet.extended (s.timetable.takeDue now).1.length takes ∧
        Flaggings s.library takes s'.library) ∧
    ∀ allowed takes s', Unfolds rig allowed [] s takes s' → s.library.AlertsRise s'.library := by
  refine ⟨?_, ?_, ?_, fun allowed takes s' h => h.alertsRise⟩
  · intro budget collection id outcome s' hplay
    have hrun : ∃ n, (Turn.play collection id).run rig n s = .ofResult (.ok outcome) s' :=
      ⟨budget, hplay⟩
    obtain ⟨events, hplays⟩ := Turn.run_iff_plays.mp hrun
    cases hplays with
    | driven start drives =>
      obtain hbegins | ⟨_, _, hbegins⟩ := Turn.begins_play start <;> cases hbegins
      exact (drives.verdict (Nat.zero_le _)).library_eq
  · intro budget collection id error s' hplay hmissing
    have hrun : ∃ n, (Turn.play collection id).run rig n s = .ofResult (.error error) s' :=
      ⟨budget, hplay⟩
    obtain ⟨events, hplays⟩ := Turn.run_iff_plays.mp hrun
    have hturn := hplays
    cases hplays with
    | refused failure =>
      obtain hbegins | ⟨_, _, hbegins⟩ := Turn.begins_play failure <;> cases hbegins
      exact absurd rfl hmissing
    | @driven r _ _ _ start drives =>
      obtain hbegins | ⟨action, hfound, hbegins⟩ := Turn.begins_play start <;> cases hbegins
      have hverdict := drives.verdict (Nat.zero_le _)
      generalize s'.library = l at hverdict
      cases hverdict with
      | blamed blames =>
        cases blames with
        | last before last =>
          have hlast := drives.held (Resumption.holds_start collection id action.steps) last
            (List.mem_append_right _ List.mem_cons_self)
          exact ⟨action, before, last, hfound, hturn, hlast,
            Library.flagsStep_raiseAlert hfound ⟨last.step, hlast, rfl⟩⟩
        | tooDeep opens _ => cases opens
  · intro harises budget now report s' htick
    obtain ⟨takes, hresumes, hreport⟩ := tick_iff_resumes.mp ⟨budget, htick⟩
    refine ⟨takes, hresumes, hreport, hresumes.flaggings fun r hr => ?_⟩
    obtain ⟨e, he, rfl⟩ := Timetable.mem_takeDue hr
    exact harises.scheduled .shallow (fun _ _ _ => Nat.zero_le _) e he

/-- The flags that are set in the local actions: of each action, and of its steps. -/
def Session.localAlerts (s : Session σ) : List (Bool × List Bool) :=
  s.library.locals.map fun a => (a.alert, a.steps.map Step.alert)

/-- A range loop in a counted loop, with a command in it that no operator knows. The step behind the
command has the same id. -/
def failingRounds : List Step := [
  .recorded "l" "ar.event:\x7b\"Type\":\"Loop\",\"StatementType\":\"repeat\",\"RepeatCount\":2\x7d",
  .recorded "k" ("ar.event:\x7b\"Type\":\"Loop\",\"StatementType\":\"count\"," ++
    "\"Startnumber\":0,\"Endnumber\":2,\"Stepnumber\":1\x7d"),
  .recorded "x" "bpy.ops.object.fly()",
  .recorded "x" "bpy.context.scene.x = 1",
  .recorded "f" "ar.event:\x7b\"Type\":\"EndLoop\"\x7d",
  .recorded "e" "ar.event:\x7b\"Type\":\"EndLoop\"\x7d"]

theorem failingRounds_outcome :
    (Turn.rehearse 10 failingRounds).failure? Session.localAlerts =
      some (.invocation "bpy.ops.object.fly()"
        "Calling operator \"bpy.ops.object.fly\" error, could not be found",
        [(true, [false, false, true, false, false, false])]) := by
  decide +kernel

theorem failingRounds_flagged :
    ∃ error s' last, Turn.rehearse 10 failingRounds = .failed error s' ∧ last ∈ failingRounds ∧
      (Session.rehearsal failingRounds).library.FlagsStep .locals "a" last.id s'.library ∧
      s'.localAlerts = [(true, [false, false, true, false, false, false])] := by
  obtain ⟨s', hrun, halerts⟩ := Run.of_failure? failingRounds_outcome
  obtain ⟨-, hflags, -, -⟩ :=
    Session.failures_flag_culprits .rehearsal (.rehearsal failingRounds)
  obtain ⟨action, before, last, hfound, -, hlast, hflagged⟩ :=
    hflags 10 .locals "a" _ s' hrun (by simp)
  cases hfound
  exact ⟨_, s', last.step, hrun, hlast, hflagged, halerts⟩

end Replay
