import Replay.Proofs.Playback.Blame

/-!
# Relays

An action that is played on its own is handed from turn to turn. If it is scheduled, then in one
entry of the timetable; if it rests at a wait for a render, then nothing is scheduled, and the queue
says where it goes on. As long as signals that a render is complete come only when it rests, it is
never in two places.

What is handed on differs: how much of the action is left, or what it still leads to. A `Relay` says
what each turn makes of it; the rest is the same for all relays.

* `Solo` — an action that is played on its own
* `Cue.InTurn`, `Cue.WhenIdle` — signals that come when nothing is scheduled
* `Relay` — what the turns of such an action hand on
* `Relay.underway_of_unfolds` — the action stays in one place
* `Relay.Underway.completes` — cues can be given until nothing is scheduled or queued
-/

set_option autoImplicit false

namespace Replay

variable {σ : Type}

/-! ## Actions that are played on their own -/

/-- The steps behind the first wait for a render. -/
def Step.beyondRender : List Step → List Step
  | [] => []
  | step :: rest => if step.awaitsRender then rest else beyondRender rest

namespace Step

theorem afterRender?_eq_head? (steps : List Step) :
    afterRender? steps = (beyondRender steps).head? := by
  induction steps with
  | nil => rfl
  | cons step rest ih =>
    unfold afterRender? beyondRender
    split
    · rfl
    · exact ih

theorem beyondRender_append {before : List Step}
    (none : ∀ step ∈ before, step.awaitsRender = false) (rest : List Step) :
    beyondRender (before ++ rest) = beyondRender rest := by
  induction before with
  | nil => rfl
  | cons step before ih =>
    obtain ⟨hstep, hbefore⟩ := List.forall_mem_cons.mp none
    rw [List.cons_append, beyondRender, if_neg (by simp [hstep]), ih hbefore]

theorem beyondRender_of_none {steps : List Step}
    (none : ∀ step ∈ steps, step.awaitsRender = false) : beyondRender steps = [] := by
  have h := beyondRender_append none []
  rwa [List.append_nil] at h

theorem beyondRender_cons {step : Step} (h : step.awaitsRender = true) (rest : List Step) :
    beyondRender (step :: rest) = rest := by
  rw [beyondRender, if_pos h]

end Step

/-- With distinct ids, the place of an active step is the place from which on it is the first active
one. -/
theorem Action.stepIndex?_of_suffix {a : Action} (distinct : (a.steps.map Step.id).Nodup)
    {step : Step} {rest : List Step} (h : step :: rest <:+ a.steps.filter Step.active) :
    ∃ index, a.stepIndex? step.id = some index ∧
      (a.steps.drop index).filter Step.active = step :: rest := by
  unfold stepIndex?
  generalize a.steps = steps at *
  induction steps with
  | nil => simp at h
  | cons first others ih =>
    obtain ⟨hfirst, hothers⟩ := List.nodup_cons.mp distinct
    -- if the step stands further back, the first one has another id
    have behind : step :: rest <:+ others.filter Step.active →
        ∃ index, (first :: others).findIdx? (fun x => x.id == step.id) = some index ∧
          ((first :: others).drop index).filter Step.active = step :: rest := by
      intro hsuffix
      obtain ⟨index, hindex, hdrop⟩ := ih hothers hsuffix
      have hstep : step ∈ others := (List.mem_filter.mp (hsuffix.mem List.mem_cons_self)).1
      have hother : first.id ≠ step.id := fun hid => hfirst (hid ▸ List.mem_map_of_mem hstep)
      exact ⟨index + 1, by simp [List.findIdx?_cons, hother, hindex], hdrop⟩
    rw [List.filter_cons] at h
    split at h
    · rename_i hactive
      rcases List.suffix_cons_iff.mp h with heq | hsuffix
      · obtain ⟨rfl, rfl⟩ := List.cons.inj heq
        exact ⟨0, by simp [List.findIdx?_cons], by simp [hactive]⟩
      · exact behind hsuffix
    · exact behind h

/-- An action, where it is found, and what plays it. Its steps have ids of their own. -/
structure Solo (σ : Type) where
  rig : Rig σ
  library : Library
  collection : Collection
  actionId : String
  action : Action
  found : library.action? collection actionId = some action
  distinct : (action.steps.map Step.id).Nodup

namespace Solo

variable (k : Solo σ)

/-- The steps that are played. -/
def steps : List Step := k.action.steps.filter Step.active

/-- The beginning of some of the steps. -/
def start (steps : List Step) : Resumption := .start k.collection k.actionId steps

/-- The queue of an action that goes on with some steps after a render. -/
def queue (rest : List Step) : List RenderWait :=
  rest.head?.toList.map fun step => ⟨k.collection, k.actionId, step.id⟩

/-- A resumption of the action. -/
structure Owns (r : Resumption) : Prop where
  collection : r.collection = k.collection
  actionId : r.actionId = k.actionId
  shallow : r.depth ≤ k.rig.settings.maxNesting

/-- The pass that a resumption of the action begins with. -/
def leg (r : Resumption) (host : σ) : Leg :=
  ⟨r, k.action.grouping, r.surface.getD (k.rig.host.ambient host)⟩

theorem owns_start (steps : List Step) : k.Owns (k.start steps) := ⟨rfl, rfl, Nat.zero_le _⟩

variable {k}

theorem Owns.found {r : Resumption} (h : k.Owns r) {l : Library} (library : l = k.library) :
    l.action? r.collection r.actionId = some k.action := by
  rw [h.collection, h.actionId, library, k.found]

/-- A resumption of the action goes through its steps, behind the announcement. -/
theorem Owns.drive_iff {r : Resumption} (h : k.Owns r) {s s' : Session σ}
    (library : s.library = k.library) {events : List Event} {result : Result} :
    Plays k.rig (.drive r) s events result s' ↔
      Plays k.rig (.walk (k.leg r s.host) r.steps) (s.announce r) events result s' := by
  have hfound := h.found library
  constructor
  · intro hplays
    cases hplays with
    | tooDeep deep => exact absurd deep (Nat.not_lt.mpr h.shallow)
    | gone _ missing => cases hfound.symm.trans missing
    | pass _ found rest =>
      cases hfound.symm.trans found
      exact rest
  · exact fun hplays => .pass h.shallow hfound hplays

theorem start_of_suffix {steps : List Step} (h : steps <:+ k.steps) :
    (k.start steps).steps = steps := by
  refine List.filter_eq_self.mpr fun step hstep => ?_
  exact (List.mem_filter.mp (h.mem hstep)).2

/-! ## What a signal that a render is complete does -/

/-- Nothing is released if nothing waits. -/
theorem renderComplete_of_nil {s : Session σ} (waits : s.waits = []) :
    (s.renderComplete k.rig).2 = s := by
  cases s
  cases waits
  rfl

/-- What waits goes on at the steps behind its wait, afresh. -/
theorem renderComplete_of_queue {s : Session σ} (library : s.library = k.library) {step : Step}
    {rest : List Step} (suffix : step :: rest <:+ k.steps)
    (waits : s.waits = k.queue (step :: rest)) :
    (s.renderComplete k.rig).2 =
      Session.suspend k.rig { s with waits := [] } (k.start (step :: rest))
        k.rig.settings.resumeSpan := by
  obtain ⟨index, hindex, hdrop⟩ := Action.stepIndex?_of_suffix k.distinct suffix
  have hself : (step :: rest).filter Step.active = step :: rest := start_of_suffix suffix
  have hstart : Resumption.start k.collection k.action.id (k.action.steps.drop index) =
      k.start (step :: rest) := by
    rw [Library.id_of_action? k.found, start, Resumption.start, Resumption.start, hdrop, hself]
  have hfound := k.found
  rw [← library] at hfound
  simp only [Session.renderComplete, waits, queue, List.head?_cons, Option.toList_some,
    List.map_cons, List.map_nil, Session.releaseEach, hfound, hindex, hstart]

end Solo

/-! ## What turns hand on -/

/-- The steps that some turns have come to. -/
def Take.allSteps (takes : List Take) : List Step := takes.flatMap Take.steps

/-- What a turn that goes through some steps makes of an action that has `rest` behind its next wait
for a render: it fails, or it is scheduled again, or it rests at that wait or at its end. -/
inductive Solo.Handover (k : Solo σ) (Runs : Nat → Resumption → σ → List Step → List Step → Prop)
    (Rests : Nat → σ → List Step → List Step → Prop) (Fails : List Step → Prop) (n : Nat)
    (rest trace : List Step) (t : Timetable Resumption) (s' : Session σ) : Result → Prop
  | failed {e} (fails : Fails trace) (timetable : s'.timetable = t) :
      Handover k Runs Rests Fails n rest trace t s' (.error e)
  | scheduled {m entry} (less : m < n) (owns : k.Owns entry.payload)
      (stale : entry.payload.fresh = false) (runs : Runs m entry.payload s'.host rest trace)
      (timetable : s'.timetable = t.extended [entry]) :
      Handover k Runs Rests Fails n rest trace t s' (.ok .suspended)
  | rested {m outcome} (less : rest ≠ [] → m < n) (rests : Rests m s'.host rest trace)
      (timetable : s'.timetable = t) : Handover k Runs Rests Fails n rest trace t s' (.ok outcome)

/-- **What the turns of an action hand on.** A number that gets smaller from turn to turn, the state
of the host, the steps behind the next wait for a render, and the steps that have been come to. -/
structure Relay (k : Solo σ) where
  /-- A resumption is to run. -/
  Runs : Nat → Resumption → σ → List Step → List Step → Prop
  /-- Playback has come to a wait for a render, or to its end. -/
  Rests : Nat → σ → List Step → List Step → Prop
  /-- Playback has failed. -/
  Fails : List Step → Prop
  ends : ∀ {n r host rest trace s}, Runs n r host rest trace → k.Owns r →
    s.library = k.library → s.host = host →
    ∃ events result s', Plays k.rig (.walk (k.leg r host) r.steps) s events result s'
  turn : ∀ {n r host rest trace s events result s'}, Runs n r host rest trace → k.Owns r →
    s.library = k.library → s.host = host →
    Plays k.rig (.walk (k.leg r host) r.steps) s events result s' →
    k.Handover Runs Rests Fails n rest (trace ++ events.map Event.step) s.timetable s' result
  /-- A fresh resumption has its next wait among its steps. -/
  fresh : ∀ {n r host rest trace}, Runs n r host rest trace → r.fresh = true →
    rest = Step.beyondRender r.steps
  release : ∀ {n host step rest trace}, Rests n host (step :: rest) trace →
    step :: rest <:+ k.steps ∧
      Runs n (k.start (step :: rest)) host (Step.beyondRender (step :: rest)) trace

/-- Signals come when nothing is scheduled, and nothing else is played. -/
inductive Cue.InTurn (takes : List Take) (s : Session σ) : Cue → Prop
  | look {now} : InTurn takes s (.look now)
  | rendered (idle : s.pending = 0) (sound : ∀ t ∈ takes, t.fails = false) :
      InTurn takes s .rendered

/-- Signals come when nothing is scheduled, also after a failure, and nothing else is played. -/
inductive Cue.WhenIdle (takes : List Take) (s : Session σ) : Cue → Prop
  | look {now} : WhenIdle takes s (.look now)
  | rendered (idle : s.pending = 0) : WhenIdle takes s .rendered

theorem Cue.InTurn.whenIdle {takes : List Take} {s : Session σ} {cue : Cue}
    (h : cue.InTurn takes s) : cue.WhenIdle takes s := by
  cases h with
  | look => exact .look
  | rendered idle _ => exact .rendered idle

/-- A history without a failure has been without a failure all along. -/
theorem Unfolds.inTurn {rig : Rig σ} {earlier takes : List Take} {s₀ s : Session σ}
    (h : Unfolds rig Cue.WhenIdle earlier s₀ takes s) (sound : ∀ t ∈ takes, t.fails = false) :
    Unfolds rig Cue.InTurn earlier s₀ takes s := by
  induction h with
  | start => exact .start
  | cue _ allows runs ih =>
    have before := fun t ht => sound t (List.mem_append_left _ ht)
    refine .cue (ih before) ?_ runs
    cases allows with
    | look => exact .look
    | rendered idle => exact .rendered idle before

namespace Relay

variable {k : Solo σ} (b : Relay k)

/-- Whether a history has come to its end: a turn has failed, or nothing is scheduled or queued. -/
def Over (takes : List Take) (s : Session σ) : Prop :=
  (∃ t ∈ takes, t.fails = true) ∨ (s.pending = 0 ∧ s.waits = [])

/-- Where the action is, after some turns of which at most the last has failed. -/
inductive Underway : Nat → List Take → Session σ → Prop
  | scheduled {n entry rest takes s} (sound : ∀ t ∈ takes, t.fails = false)
      (library : s.library = k.library) (waiting : s.timetable.waiting = [entry])
      (owns : k.Owns entry.payload)
      (runs : b.Runs n entry.payload s.host rest (Take.allSteps takes))
      (waits : s.waits = if entry.payload.fresh then [] else k.queue rest) : Underway n takes s
  | rested {n rest takes s} (sound : ∀ t ∈ takes, t.fails = false)
      (library : s.library = k.library) (waiting : s.timetable.waiting = [])
      (rests : b.Rests n s.host rest (Take.allSteps takes)) (waits : s.waits = k.queue rest) :
      Underway n takes s
  | failed {n before take s} (sound : ∀ t ∈ before, t.fails = false) (fails : take.fails = true)
      (waiting : s.timetable.waiting = [])
      (stopped : b.Fails (Take.allSteps (before ++ [take]))) : Underway n (before ++ [take]) s

variable {b} {n : Nat} {r : Resumption} {rest : List Step} {takes : List Take} {s s' : Session σ}
  {events : List Event} {result : Result}

/-- The queue behind the beginning of a turn. -/
theorem announce_waits (owns : k.Owns r) (runs : b.Runs n r s.host rest (Take.allSteps takes))
    (waits : s.waits = if r.fresh then [] else k.queue rest) :
    (s.announce r).waits = k.queue rest := by
  cases hfresh : r.fresh with
  | false => rw [Session.announce_of_not_fresh hfresh, waits, hfresh]; rfl
  | true =>
    rw [hfresh] at waits
    rw [b.fresh runs hfresh, Session.announce, if_pos hfresh, Step.afterRender?_eq_head?]
    unfold Solo.queue
    cases (Step.beyondRender r.steps).head? with
    | none => exact waits
    | some step => simp [Session.await, waits, owns.collection, owns.actionId]

/-- **A turn leaves the action in one place.** -/
theorem underway_of_drive (h : Plays k.rig (.drive r) s events result s') (turn : Turn)
    (sound : ∀ t ∈ takes, t.fails = false) (library : s.library = k.library)
    (waiting : s.timetable.waiting = []) (owns : k.Owns r)
    (runs : b.Runs n r s.host rest (Take.allSteps takes))
    (waits : s.waits = if r.fresh then [] else k.queue rest) :
    ∃ m, b.Underway m (takes ++ [⟨turn, events, result⟩]) s' ∧
      (m < n ∨ Over (takes ++ [⟨turn, events, result⟩]) s') := by
  have hwalk := (owns.drive_iff library).mp h
  have hwaits : s'.waits = k.queue rest := by
    rw [hwalk.waits_eq rfl, announce_waits owns runs waits]
  have hlibrary : ∀ outcome, result = .ok outcome → s'.library = k.library := by
    rintro outcome rfl
    rw [(h.verdict owns.shallow).library_eq, library]
  have hsound : ∀ outcome, result = .ok outcome →
      ∀ t ∈ takes ++ [⟨turn, events, result⟩], t.fails = false := by
    rintro outcome rfl t ht
    rcases List.mem_append.mp ht with ht | ht
    · exact sound t ht
    · cases List.mem_singleton.mp ht
      rfl
  have htrace : Take.allSteps (takes ++ [⟨turn, events, result⟩]) =
      Take.allSteps takes ++ events.map Event.step := by
    simp [Take.allSteps, Take.steps]
  have hturn := b.turn runs owns ((Session.announce_library s r).trans library)
    (Session.announce_host s r) hwalk
  rw [← htrace, Session.announce_timetable] at hturn
  cases hturn with
  | failed fails timetable =>
    exact ⟨n, .failed sound rfl (by rw [timetable, waiting]) fails,
      .inr (.inl ⟨_, List.mem_concat_self, rfl⟩)⟩
  | @scheduled m entry less owns' stale runs' timetable =>
    refine ⟨m, .scheduled (hsound _ rfl) (hlibrary _ rfl) ?_ owns' runs' ?_, .inl less⟩
    · rw [timetable, Timetable.extended, waiting]
      rfl
    · rw [hwaits, stale]
      rfl
  | @rested m outcome less rests timetable =>
    have hwaiting : s'.timetable.waiting = [] := by rw [timetable, waiting]
    refine ⟨m, .rested (hsound _ rfl) (hlibrary _ rfl) hwaiting rests hwaits, ?_⟩
    cases rest with
    | nil => exact .inr (.inr ⟨Session.pending_of_waiting hwaiting, hwaits⟩)
    | cons step rest => exact .inl (less (List.cons_ne_nil step rest))

/-- Playing the action drives its beginning. -/
theorem drives_of_play (library : s.library = k.library)
    (h : (Turn.play k.collection k.actionId).Plays k.rig s events result s') :
    Plays k.rig (.drive (k.start k.action.steps)) s events result s' := by
  cases h with
  | refused failure => simp [Turn.begins, library, k.found] at failure
  | driven start drives =>
    obtain hbegins | ⟨action, hfound, hbegins⟩ := Turn.begins_play start
    · cases hbegins
    · rw [library, k.found] at hfound
      cases hfound
      cases hbegins
      exact drives

/-- Playing the action brings it underway. -/
theorem underway_of_play (idle : s.timetable.waiting = []) (waits : s.waits = [])
    (library : s.library = k.library)
    (runs : b.Runs n (k.start k.action.steps) s.host (Step.beyondRender k.steps) [])
    (h : (Turn.play k.collection k.actionId).Plays k.rig s events result s') :
    ∃ m, b.Underway m [⟨.play k.collection k.actionId, events, result⟩] s' := by
  have hnone : ∀ t ∈ ([] : List Take), t.fails = false := List.forall_mem_nil _
  have hruns : b.Runs n (k.start k.action.steps) s.host (Step.beyondRender k.steps)
      (Take.allSteps []) := runs
  have hwaits : s.waits =
      if (k.start k.action.steps).fresh then [] else k.queue (Step.beyondRender k.steps) := by
    rw [waits]
    rfl
  obtain ⟨m, hunderway, -⟩ := underway_of_drive (drives_of_play library h) _ hnone library idle
    (k.owns_start _) hruns hwaits
  exact ⟨m, hunderway⟩

/-! ## Cue after cue -/

/-- The turns of a look at which one resumption of an action that is there is due. -/
theorem Resumes.of_single {rig : Rig σ} {action : Action} (h : Resumes rig [r] s takes s')
    (found : s.library.action? r.collection r.actionId = some action) :
    ∃ events result, takes = [⟨.resume r, events, result⟩] ∧
      Plays rig (.drive r) s events result s' := by
  cases h with
  | dropped missing _ => cases found.symm.trans missing
  | taken _ plays later =>
    cases later
    exact ⟨_, _, rfl, plays⟩

/-- A signal that a render is complete schedules what rests. -/
theorem underway_of_release {step : Step} (sound : ∀ t ∈ takes, t.fails = false)
    (library : s.library = k.library) (waiting : s.timetable.waiting = [])
    (rests : b.Rests n s.host (step :: rest) (Take.allSteps takes))
    (waits : s.waits = k.queue (step :: rest)) :
    b.Underway n takes (s.renderComplete k.rig).2 ∧ (s.renderComplete k.rig).2.pending ≠ 0 := by
  obtain ⟨hsuffix, hruns⟩ := b.release rests
  rw [Solo.renderComplete_of_queue library hsuffix waits]
  have hwaiting : (Session.suspend k.rig { s with waits := [] } (k.start (step :: rest))
      k.rig.settings.resumeSpan).timetable.waiting =
      [⟨s.timetable.issued, Time.deadline (k.rig.clock s.timetable.issued)
        k.rig.settings.resumeSpan, k.start (step :: rest)⟩] := by
    rw [Session.suspend_timetable, Timetable.extended, waiting]
    rfl
  exact ⟨.scheduled sound library hwaiting (k.owns_start _) hruns rfl,
    by simp [Session.pending_of_waiting hwaiting]⟩

/-- **A cue leaves the action in one place.** -/
theorem Underway.of_cue (h : b.Underway n takes s) {cue : Cue} {new : List Take}
    (inTurn : cue.InTurn takes s) (runs : cue.Runs k.rig s new s') :
    ∃ m, b.Underway m (takes ++ new) s' := by
  have still : ∀ {now}, (∀ entry ∈ s.timetable.waiting, entry.isDue now = false) →
      (Cue.look now).Runs k.rig s new s' → ∃ m, b.Underway m (takes ++ new) s' := by
    intro now hdue hlook
    cases hlook with
    | look resumes =>
      rw [Timetable.takeDue_of_not_due hdue] at resumes
      cases resumes
      exact ⟨n, by rwa [List.append_nil]⟩
  cases h with
  | @scheduled entry rest _ _ sound library waiting owns runs' waits =>
    cases inTurn with
    | @look now =>
      cases hdue : entry.isDue now with
      | false => exact still (by simpa [waiting] using hdue) runs
      | true =>
        cases runs with
        | look resumes =>
          rw [Timetable.takeDue_of_due waiting hdue, List.map_singleton] at resumes
          obtain ⟨events, result, rfl, hplays⟩ := Resumes.of_single resumes (owns.found library)
          obtain ⟨m, hunderway, -⟩ := underway_of_drive hplays (.resume entry.payload) sound library
            rfl owns runs' waits
          exact ⟨m, hunderway⟩
    | rendered idle _ => simp [Session.pending_of_waiting waiting] at idle
  | @rested rest _ _ sound library waiting rests waits =>
    cases inTurn with
    | look => exact still (by simp [waiting]) runs
    | rendered _ _ =>
      cases runs
      rw [List.append_nil]
      cases rest with
      | nil =>
        rw [Solo.renderComplete_of_nil waits]
        exact ⟨n, .rested sound library waiting rests waits⟩
      | cons step rest =>
        exact ⟨n, (underway_of_release sound library waiting rests waits).1⟩
  | failed sound fails waiting stopped =>
    cases inTurn with
    | look => exact still (by simp [waiting]) runs
    | rendered _ sound' => simp [sound' _ List.mem_concat_self] at fails

/-- **An action that is played on its own stays in one place.** -/
theorem underway_of_unfolds {earlier : List Take} {s₀ : Session σ} (h : b.Underway n earlier s₀)
    (unfolds : Unfolds k.rig Cue.InTurn earlier s₀ takes s) : ∃ m, b.Underway m takes s := by
  induction unfolds with
  | start => exact ⟨n, h⟩
  | cue _ inTurn runs ih =>
    obtain ⟨m, hm⟩ := ih
    exact hm.of_cue inTurn runs

theorem Underway.pending_le_one (h : b.Underway n takes s) : s.pending ≤ 1 := by
  cases h with
  | scheduled _ _ waiting _ _ _ => simp [Session.pending_of_waiting waiting]
  | rested _ _ waiting _ _ | failed _ _ waiting _ =>
    simp [Session.pending_of_waiting waiting]

/-- Nothing comes behind a turn that has failed. -/
theorem Underway.nothing_behind (h : b.Underway n takes s) {earlier later : List Take} {take : Take}
    (split : takes = earlier ++ take :: later) (fails : take.fails = true) : later = [] := by
  have failed : ∀ {turns : List Take}, (∀ t ∈ turns, t.fails = false) → take ∉ turns :=
    fun sound hmem => by simp [sound take hmem] at fails
  cases h with
  | scheduled sound _ _ _ _ _ => exact absurd (by simp [split]) (failed sound)
  | rested sound _ _ _ _ => exact absurd (by simp [split]) (failed sound)
  | failed sound _ _ _ =>
    rcases List.eq_nil_or_concat later with rfl | ⟨later, last, rfl⟩
    · rfl
    · rw [List.concat_eq_append, ← List.cons_append, ← List.append_assoc] at split
      obtain ⟨hbefore, -⟩ := List.append_inj' split rfl
      exact absurd (by simp [hbefore]) (failed sound)

/-- If the action cannot fail, no turn does. -/
theorem Underway.sound (h : b.Underway n takes s) (never : ∀ trace, ¬b.Fails trace) :
    ∀ t ∈ takes, t.fails = false := by
  cases h with
  | scheduled sound _ _ _ _ _ => exact sound
  | rested sound _ _ _ _ => exact sound
  | failed _ _ _ stopped => exact absurd stopped (never _)

/-- Then signals that come when nothing is scheduled come in turn. -/
theorem inTurn_of_never {earlier : List Take} {s₀ : Session σ} (h : b.Underway n earlier s₀)
    (never : ∀ trace, ¬b.Fails trace) (unfolds : Unfolds k.rig Cue.WhenIdle earlier s₀ takes s) :
    Unfolds k.rig Cue.InTurn earlier s₀ takes s := by
  induction unfolds with
  | start => exact .start
  | cue _ allows runs ih =>
    obtain ⟨m, hunderway⟩ := underway_of_unfolds h ih
    refine .cue ih ?_ runs
    cases allows with
    | look => exact .look
    | rendered idle => exact .rendered idle (hunderway.sound never)

/-! ## To the end -/

/-- A resumption that is to run is played to an end. -/
theorem exists_drive (runs : b.Runs n r s.host rest (Take.allSteps takes)) (owns : k.Owns r)
    (library : s.library = k.library) :
    ∃ events result s', Plays k.rig (.drive r) s events result s' := by
  obtain ⟨events, result, s', hplays⟩ := b.ends runs owns
    ((Session.announce_library s r).trans library) (Session.announce_host s r)
  exact ⟨events, result, s', (owns.drive_iff library).mpr hplays⟩

/-- The action is played to an end. -/
theorem play_ends (library : s.library = k.library)
    (runs : b.Runs n (k.start k.action.steps) s.host (Step.beyondRender k.steps) []) :
    ∃ budget result s', s.play k.rig budget k.collection k.actionId = .ofResult result s' := by
  have hruns : b.Runs n (k.start k.action.steps) s.host (Step.beyondRender k.steps)
      (Take.allSteps []) := runs
  obtain ⟨events, result, s', hplays⟩ := exists_drive hruns (k.owns_start _) library
  have hbegins : (Turn.play k.collection k.actionId).begins s = .ok (k.start k.action.steps) := by
    simp only [Turn.begins, library, k.found, Library.id_of_action? k.found, Solo.start]
  obtain ⟨budget, hrun⟩ := Turn.run_iff_plays.mpr ⟨events, .driven hbegins hplays⟩
  exact ⟨budget, result, s', hrun⟩

/-- **Every look comes to an end.** -/
theorem Underway.look_runs (h : b.Underway n takes s) (now : Time) :
    ∃ new s', (Cue.look now).Runs k.rig s new s' := by
  have still : (∀ entry ∈ s.timetable.waiting, entry.isDue now = false) →
      ∃ new s', (Cue.look now).Runs k.rig s new s' := by
    intro hdue
    refine ⟨[], s, .look ?_⟩
    rw [Timetable.takeDue_of_not_due hdue]
    exact .nothing
  cases h with
  | @scheduled entry rest _ _ sound library waiting owns runs waits =>
    cases hdue : entry.isDue now with
    | false => exact still (by simpa [waiting] using hdue)
    | true =>
      obtain ⟨events, result, s', hplays⟩ :=
        exists_drive (s := { s with timetable := ⟨s.timetable.issued, []⟩ }) runs owns library
      refine ⟨[⟨.resume entry.payload, events, result⟩], s', .look ?_⟩
      rw [Timetable.takeDue_of_due waiting hdue]
      exact .taken (owns.found library) hplays .nothing
  | rested _ _ waiting _ _ | failed _ _ waiting _ => exact still (by simp [waiting])

/-- What is scheduled is taken up by a look at its deadline. -/
theorem Underway.next (h : b.Underway n takes s) (busy : s.pending ≠ 0) :
    ∃ m takes' s', Unfolds k.rig Cue.InTurn takes s takes' s' ∧ b.Underway m takes' s' ∧
      (m < n ∨ Over takes' s') := by
  cases h with
  | @scheduled entry rest _ _ sound library waiting owns runs waits =>
    have hdue : entry.isDue entry.deadline = true := by simp [TimetableEntry.isDue]
    obtain ⟨events, result, s', hplays⟩ :=
      exists_drive (s := { s with timetable := ⟨s.timetable.issued, []⟩ }) runs owns library
    have hlook : (Cue.look entry.deadline).Runs k.rig s [⟨.resume entry.payload, events, result⟩]
        s' := by
      refine .look ?_
      rw [Timetable.takeDue_of_due waiting hdue]
      exact .taken (owns.found library) hplays .nothing
    obtain ⟨m, hunderway, hless⟩ :=
      underway_of_drive hplays (.resume entry.payload) sound library rfl owns runs waits
    exact ⟨m, _, s', .cue .start .look hlook, hunderway, hless⟩
  | rested _ _ waiting _ _ | failed _ _ waiting _ =>
    simp [Session.pending_of_waiting waiting] at busy

/-- **Cues can be given until nothing is scheduled or queued**, unless a turn fails. -/
theorem Underway.completes (h : b.Underway n takes s) :
    ∃ takes' s', Unfolds k.rig Cue.InTurn takes s takes' s' ∧ Over takes' s' := by
  induction n using Nat.strongRecOn generalizing takes s with
  | ind n ih =>
    have busy : ∀ {s : Session σ}, b.Underway n takes s → s.pending ≠ 0 →
        ∃ takes' s', Unfolds k.rig Cue.InTurn takes s takes' s' ∧ Over takes' s' := by
      intro s h hbusy
      obtain ⟨m, takes₁, s₁, hfirst, hunderway, hless | hover⟩ := h.next hbusy
      · obtain ⟨takes', s', hlater, hover⟩ := ih m hless hunderway
        exact ⟨takes', s', hfirst.trans hlater, hover⟩
      · exact ⟨takes₁, s₁, hfirst, hover⟩
    cases h with
    | scheduled sound library waiting owns runs waits =>
      exact busy (.scheduled sound library waiting owns runs waits)
        (by simp [Session.pending_of_waiting waiting])
    | @rested rest _ _ sound library waiting rests waits =>
      have hidle : s.pending = 0 := Session.pending_of_waiting waiting
      cases rest with
      | nil => exact ⟨takes, s, .start, .inr ⟨hidle, waits⟩⟩
      | cons step rest =>
        obtain ⟨hreleased, hbusy⟩ := underway_of_release sound library waiting rests waits
        obtain ⟨takes', s', hlater, hover⟩ := busy hreleased hbusy
        exact ⟨takes', s', (Unfolds.start.signal (.rendered hidle sound)).trans hlater, hover⟩
    | failed sound fails waiting stopped =>
      exact ⟨_, s, .start, .inl ⟨_, List.mem_concat_self, fails⟩⟩

end Relay

end Replay
