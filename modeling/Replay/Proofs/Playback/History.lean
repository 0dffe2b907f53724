import Replay.Proofs.Playback.Timers

/-!
# Histories

A player is cued from outside: an action is to be played, the timetable is to be looked at, or a
render has been reported complete. Cue after cue it takes turns, each of which comes to some events
and has a result. A history is the list of the turns taken so far.

* `Resumes` — the turns that a look at the timetable takes
* `Session.tick_iff_resumes` — looks within budgets take just these turns
* `Cue.Runs` — what a cue brings about
* `Unfolds` — cue after cue, as far as they are allowed
* `Arises` — the sessions that come up, whatever is edited in between
-/

set_option autoImplicit false

namespace Replay

variable {σ : Type}

/-! ## Turns that have been taken -/

/-- The step that an event is about. -/
def Event.step : Event → Step
  | reached _ step => step
  | asked _ opening => opening

/-- A turn that has been taken: what it came to, and how it ended. -/
structure Take where
  turn : Turn
  events : List Event
  result : Result

namespace Take

/-- What a look at the timetable reports of a turn: the failure of a resumption. -/
def failure? (t : Take) : Option (String × PlayError) :=
  match t.turn, t.result with
  | .resume r, .error e => some (r.actionId, e)
  | _, _ => none

/-- The steps that a turn has come to, in the order in which it has. -/
def steps (t : Take) : List Step := t.events.map Event.step

/-- Whether a turn has failed. -/
def fails (t : Take) : Bool :=
  match t.result with
  | .ok _ => false
  | .error _ => true

end Take

/-! ## The turns of a look -/

/-- Resumptions are taken up one after the other; those whose action is gone are dropped. -/
inductive Resumes (rig : Rig σ) : List Resumption → Session σ → List Take → Session σ → Prop
  | nothing {s} : Resumes rig [] s [] s
  | dropped {r rest s takes s'} (missing : s.library.action? r.collection r.actionId = none)
      (later : Resumes rig rest s takes s') : Resumes rig (r :: rest) s takes s'
  | taken {r rest s action events result s₁ takes s'}
      (found : s.library.action? r.collection r.actionId = some action)
      (plays : Plays rig (.drive r) s events result s₁) (later : Resumes rig rest s₁ takes s') :
      Resumes rig (r :: rest) s (⟨.resume r, events, result⟩ :: takes) s'

/-- A report with some turns added to it, and the resumptions that were dropped among so many. -/
def Session.TickReport.extended (report : TickReport) (due : Nat) (takes : List Take) :
    TickReport :=
  ⟨report.resumed + takes.length, report.skipped + (due - takes.length),
    report.failures ++ takes.filterMap Take.failure?⟩

theorem Resumes.length_le {rig : Rig σ} {rs : List Resumption} {s s' : Session σ}
    {takes : List Take} (h : Resumes rig rs s takes s') : takes.length ≤ rs.length := by
  induction h with
  | nothing => exact Nat.le_refl _
  | dropped _ _ ih => exact Nat.le_succ_of_le ih
  | taken _ _ _ ih => exact Nat.succ_le_succ ih

/-- A look that reports no failure is one in which no turn fails. -/
theorem Resumes.sound {rig : Rig σ} {rs : List Resumption} {s s' : Session σ} {takes : List Take}
    (h : Resumes rig rs s takes s') (none : takes.filterMap Take.failure? = []) :
    ∀ t ∈ takes, t.fails = false := by
  induction h with
  | nothing => exact List.forall_mem_nil _
  | dropped _ _ ih => exact ih none
  | @taken r rest s action events result s₁ takes s' _ _ _ ih =>
    cases result with
    | ok outcome => exact List.forall_mem_cons.mpr ⟨rfl, ih none⟩
    | error e => simp [Take.failure?] at none

namespace Session

open TickReport

variable {rig : Rig σ} {r : Resumption} {rest : List Resumption} {report : TickReport}
  {s s' : Session σ} {takes : List Take}

theorem TickReport.extended_dropped (h : takes.length ≤ rest.length) :
    ({ report with skipped := report.skipped + 1 } : TickReport).extended rest.length takes =
      report.extended (r :: rest).length takes := by
  simp only [extended, List.length_cons, mk.injEq, and_true, true_and]
  omega

theorem TickReport.extended_taken (h : takes.length ≤ rest.length) (events : List Event)
    (result : Result) :
    (⟨report.resumed + 1, report.skipped, report.failures ++
        (Take.mk (.resume r) events result).failure?.toList⟩ : TickReport).extended
        rest.length takes =
      report.extended (r :: rest).length (⟨.resume r, events, result⟩ :: takes) := by
  have hfailures : ((⟨.resume r, events, result⟩ : Take) :: takes).filterMap Take.failure? =
      (Take.mk (.resume r) events result).failure?.toList ++ takes.filterMap Take.failure? := by
    rw [List.filterMap_cons]
    cases (Take.mk (.resume r) events result).failure? <;> rfl
  simp only [extended, hfailures, List.length_cons, List.append_assoc, mk.injEq, and_true]
  omega

/-- What has been resumed within a budget has been taken turn by turn. -/
theorem resumes_of_resumeEach {budget : Nat} : ∀ {rs : List Resumption} {report report'}
    {s : Session σ}, resumeEach rig budget rs report s = .done report' s' →
      ∃ takes, Resumes rig rs s takes s' ∧ report' = report.extended rs.length takes := by
  intro rs
  induction rs with
  | nil =>
    intro report report' s h
    cases h
    exact ⟨[], .nothing, by simp [extended]⟩
  | cons r rest ih =>
    intro report report' s h
    unfold resumeEach at h
    split at h
    · rename_i missing
      obtain ⟨takes, hresumes, rfl⟩ := ih h
      exact ⟨takes, .dropped missing hresumes, extended_dropped hresumes.length_le⟩
    · rename_i found
      split at h
      · rename_i outcome s₁ hrun
        obtain ⟨events, hplays⟩ := Plays.of_drive budget r s (.ok outcome) s₁ hrun
        obtain ⟨takes, hresumes, rfl⟩ := ih h
        refine ⟨_, .taken found hplays hresumes, ?_⟩
        rw [← extended_taken hresumes.length_le]
        simp [Take.failure?]
      · rename_i e s₁ hrun
        obtain ⟨events, hplays⟩ := Plays.of_drive budget r s (.error e) s₁ hrun
        obtain ⟨takes, hresumes, rfl⟩ := ih h
        refine ⟨_, .taken found hplays hresumes, ?_⟩
        rw [← extended_taken hresumes.length_le]
        rfl
      · cases h

/-- What is taken turn by turn is resumed within some budget. -/
theorem resumeEach_of_resumes {rs : List Resumption} (h : Resumes rig rs s takes s') :
    ∀ report, ∃ budget, resumeEach rig budget rs report s =
      .done (report.extended rs.length takes) s' := by
  induction h with
  | nothing => exact fun report => ⟨0, by simp [resumeEach, extended]⟩
  | dropped missing later ih =>
    intro report
    obtain ⟨budget, h⟩ := ih { report with skipped := report.skipped + 1 }
    refine ⟨budget, ?_⟩
    rw [resumeEach, missing, h, extended_dropped later.length_le]
  | @taken r rest s action events result s₁ takes s' found plays later ih =>
    intro report
    obtain ⟨n, hn⟩ := plays.exists_run
    obtain ⟨m, hm⟩ := ih ⟨report.resumed + 1, report.skipped, report.failures ++
      (Take.mk (.resume r) events result).failure?.toList⟩
    have hn' : r.drive rig (max n m) s = .ofResult result s₁ :=
      Activity.run_stable (a := .drive r) (Nat.le_max_left n m) hn
    have hm' := resumeEach_agrees rig (Nat.le_max_right n m) rest _ s₁ (by rw [hm]; simp)
    refine ⟨max n m, ?_⟩
    rw [← extended_taken later.length_le, ← hm, ← hm', resumeEach, found]
    simp only [hn']
    cases result <;> simp [Run.ofResult, Take.failure?]

/-- **Looks within budgets take just these turns.** -/
theorem tick_iff_resumes {now : Time} :
    (∃ budget, s.tick rig budget now = .done report s') ↔
      ∃ takes, Resumes rig ((s.timetable.takeDue now).1.map TimetableEntry.payload)
          { s with timetable := (s.timetable.takeDue now).2 } takes s' ∧
        report = quiet.extended (s.timetable.takeDue now).1.length takes := by
  constructor
  · rintro ⟨budget, h⟩
    obtain ⟨takes, hresumes, hreport⟩ := resumes_of_resumeEach h
    exact ⟨takes, hresumes, by rwa [List.length_map] at hreport⟩
  · rintro ⟨takes, hresumes, rfl⟩
    obtain ⟨budget, h⟩ := resumeEach_of_resumes hresumes quiet
    exact ⟨budget, by rwa [List.length_map] at h⟩

end Session

/-! ## Cues -/

/-- What a player is asked for. -/
inductive Cue
  /-- An action is to be played. -/
  | play (collection : Collection) (id : String)
  /-- The timetable is to be looked at. -/
  | look (now : Time)
  /-- A render has been reported complete. -/
  | rendered
deriving DecidableEq, Repr

/-- What a cue brings about: the turns that are taken, and the session that is left. -/
inductive Cue.Runs (rig : Rig σ) : Cue → Session σ → List Take → Session σ → Prop
  | play {collection id s events result s'}
      (plays : (Turn.play collection id).Plays rig s events result s') :
      Runs rig (.play collection id) s [⟨.play collection id, events, result⟩] s'
  | look {now s takes s'}
      (resumes : Resumes rig ((s.timetable.takeDue now).1.map TimetableEntry.payload)
        { s with timetable := (s.timetable.takeDue now).2 } takes s') :
      Runs rig (.look now) s takes s'
  | rendered {s} : Runs rig .rendered s [] (s.renderComplete rig).2

/-- **A history.** Cue after cue, each of which is allowed by then: the turns that are taken behind
some others, and the session that is left in the end. -/
inductive Unfolds (rig : Rig σ) (allowed : List Take → Session σ → Cue → Prop)
    (earlier : List Take) (s₀ : Session σ) : List Take → Session σ → Prop
  | start : Unfolds rig allowed earlier s₀ earlier s₀
  | cue {takes s new s'} {cue : Cue} (before : Unfolds rig allowed earlier s₀ takes s)
      (allows : allowed takes s cue) (runs : cue.Runs rig s new s') :
      Unfolds rig allowed earlier s₀ (takes ++ new) s'

namespace Unfolds

variable {rig : Rig σ} {allowed : List Take → Session σ → Cue → Prop}
  {earlier takes later : List Take} {s₀ s s' : Session σ}

theorem trans (h : Unfolds rig allowed earlier s₀ takes s)
    (h' : Unfolds rig allowed takes s later s') : Unfolds rig allowed earlier s₀ later s' := by
  induction h' with
  | start => exact h
  | cue _ allows runs ih => exact .cue ih allows runs

/-- What is allowed is allowed by less strict rules, too. -/
theorem imp {loose : List Take → Session σ → Cue → Prop}
    (weaken : ∀ {takes s cue}, allowed takes s cue → loose takes s cue)
    (h : Unfolds rig allowed earlier s₀ takes s) : Unfolds rig loose earlier s₀ takes s := by
  induction h with
  | start => exact .start
  | cue _ allows runs ih => exact .cue ih (weaken allows) runs

/-- A signal that a render is complete takes no turn. -/
theorem signal (h : Unfolds rig allowed earlier s₀ takes s) (allows : allowed takes s .rendered) :
    Unfolds rig allowed earlier s₀ takes (s.renderComplete rig).2 := by
  have hcue := h.cue allows .rendered
  rwa [List.append_nil] at hcue

/-- A look within some budget takes turns of which none fails, unless it reports a failure. -/
theorem tick (h : Unfolds rig allowed earlier s₀ takes s) {now : Time}
    (allows : allowed takes s (.look now)) {budget : Nat} {report : Session.TickReport}
    (run : s.tick rig budget now = .done report s') :
    ∃ new, Unfolds rig allowed earlier s₀ (takes ++ new) s' ∧
      (report.failures = [] → ∀ t ∈ new, t.fails = false) := by
  obtain ⟨new, hresumes, rfl⟩ := Session.tick_iff_resumes.mp ⟨budget, run⟩
  exact ⟨new, h.cue allows (.look hresumes), fun none => hresumes.sound none⟩

end Unfolds

/-- **The sessions that come up.** A session begins with nothing scheduled; then there are cues, and
the host and the library may be edited in between. -/
inductive Arises (rig : Rig σ) : Session σ → Prop
  | begin {host library} : Arises rig (.begin host library)
  | cue {s takes s'} {cue : Cue} (before : Arises rig s) (runs : cue.Runs rig s takes s') :
      Arises rig s'
  | edit {s} (before : Arises rig s) (host : σ) (library : Library) :
      Arises rig { s with host := host, library := library }

end Replay
