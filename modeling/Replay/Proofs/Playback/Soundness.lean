import Replay.Proofs.Playback.Blame
import Replay.Proofs.Playback.Chronicle
import Replay.Proofs.Playback.Onward

/-!
# Sound resumptions

What is scheduled can be resumed: it holds active steps only, every loop around them has a round
left, and it is nested no deeper than allowed. All that a call goes on with from there is in order,
too, so nothing is looked at twice in vain: no inactive step is come to, and the depth at which a
playback begins need not be checked.

* `Resumption.Sound` — what is in order about a resumption
* `Activity.Orderly` — what every activity hands on of it
* `Cue.Ends.sound` — a call schedules what is sound
* `Hereditary.drive_unguarded` — playback without the check of its depth
* `Chronicle.scheduled_sound` — what is scheduled is sound, and so is what becomes of it
-/

set_option autoImplicit false

open Relation

namespace Replay

variable {σ : Type}

/-! ## What is in order -/

/-- **What is in order about a resumption** that rests in the timetable. -/
structure Resumption.Sound (limit : Nat) (r : Resumption) : Prop where
  shallow : r.depth ≤ limit
  /-- The steps ahead, and the bodies and the steps behind the loops around them, are active. -/
  active : r.Throughout fun steps => ∀ step ∈ steps, step.active = true
  /-- Every loop around the steps has a round left. -/
  rounds : ∀ f ∈ r.frames, 1 ≤ f.remaining
  /-- What has not begun yet is in no loop, and has no surface. -/
  bare : r.fresh = true → r.frames = [] ∧ r.surface = none ∧ r.depth = 0
  /-- What has begun has the surface that it began on. -/
  captured : r.fresh = false → r.surface.isSome = true

/-- The loops around an activity have a round left. -/
def Activity.Counted (a : Activity) : Prop := ∀ f ∈ a.source.frames, 1 ≤ f.remaining

/-- An activity of a resumption that is begun afresh is in no loop. -/
def Activity.Bare (a : Activity) : Prop :=
  a.source.fresh = true → a.source.frames = [] ∧ a.source.surface = none ∧ a.source.depth = 0

/-- What is in order about an activity: it is shallow enough, holds active steps only, every loop
around it has a round left, and none is around it when it begins afresh. -/
def Activity.Orderly (limit : Nat) (a : Activity) : Prop :=
  a.depth ≤ limit ∧ a.Holds (fun step => step.active = true) ∧ a.Counted ∧ a.Bare

theorem Resumption.counted_of_proceed {r next : Resumption} (h : r.close = .proceed next)
    (counted : ∀ f ∈ r.frames, 1 ≤ f.remaining) : ∀ f ∈ next.frames, 1 ≤ f.remaining := by
  unfold close at h
  split at h
  · cases h
  · rename_i f outer hframes
    rw [hframes] at counted
    obtain ⟨-, houter⟩ := List.forall_mem_cons.mp counted
    split at h <;> cases h
    · rename_i hmore
      refine List.forall_mem_cons.mpr ⟨?_, houter⟩
      show 1 ≤ f.remaining - 1
      omega
    · exact houter

namespace Hereditary

variable {rig : Rig σ}

theorem counted : Hereditary rig Activity.Counted where
  pass h := h
  close closed h := Resumption.counted_of_proceed closed h
  drop _ h := h
  suspend h := h
  enter _ _ _ positive h := List.forall_mem_cons.mpr ⟨positive, h⟩
  rounds _ _ _ _ h := h
  leave h := h
  round h := h
  loop h := h
  nested _ _ := List.forall_mem_nil _

theorem bare : Hereditary rig Activity.Bare where
  pass h := h
  close closed _ := by
    obtain ⟨steps, frames, rfl⟩ := Resumption.eq_proceed closed
    exact nofun
  drop _ h := h
  suspend _ := nofun
  enter _ _ _ _ _ := nofun
  rounds _ _ _ _ h := h
  leave h := h
  round h := h
  loop h := h
  nested _ _ := nofun

/-- **What is in order is handed on.** -/
theorem orderly : Hereditary rig (Activity.Orderly rig.settings.maxNesting) :=
  shallow.and (holds.and (counted.and bare))

end Hereditary

namespace Resumption

variable {limit : Nat} {r : Resumption}

theorem start_throughout_active (collection : Collection) (id : String) (steps : List Step) :
    (start collection id steps).Throughout fun steps => ∀ step ∈ steps, step.active = true :=
  ⟨fun _ hstep => (List.mem_filter.mp hstep).2, nofun⟩

theorem Sound.orderly (h : r.Sound limit) : (Activity.drive r).Orderly limit :=
  ⟨h.shallow, ⟨h.active, nofun⟩, h.rounds, h.bare⟩

/-- What an activity leaves for later has the surface of its pass. -/
theorem LeftBy.sound {rig : Rig σ} (h : r.LeftBy (Activity.Orderly rig.settings.maxNesting)) :
    r.Sound rig.settings.maxNesting := by
  obtain ⟨hshallow, hholds, hcounted, hbare⟩ := h.inherited .orderly
  obtain ⟨p, step, steps, -, rfl⟩ := h
  exact ⟨hshallow, hholds.ahead, hcounted, hbare, fun _ => rfl⟩

theorem Starts.sound (h : r.Starts) : r.Sound limit := by
  obtain ⟨collection, id, steps, rfl⟩ := h
  exact ⟨Nat.zero_le _, start_throughout_active collection id steps, nofun,
    fun _ => ⟨rfl, rfl, rfl⟩, nofun⟩

end Resumption

/-- A turn that plays an action begins with some steps of it. -/
theorem Turn.starts_of_begins {collection : Collection} {id : String} {s : Session σ}
    {r : Resumption} (h : (Turn.play collection id).begins s = .ok r) : r.Starts := by
  simp only [begins] at h
  split at h <;> cases h
  exact ⟨_, _, _, rfl⟩

/-- **A call schedules what is sound**, if what was scheduled before is. -/
theorem Cue.Ends.sound {rig : Rig σ} {cue : Cue} {s s' : Session σ} (h : cue.Ends rig s s')
    (hold : ∀ e ∈ s.timetable.waiting, e.payload.Sound rig.settings.maxNesting) :
    ∀ e ∈ s'.timetable.waiting, e.payload.Sound rig.settings.maxNesting := by
  obtain ⟨takes, runs⟩ := ends_iff_runs.mp h
  have hstart : ∀ collection id steps, (Activity.drive (.start collection id steps)).Orderly
      rig.settings.maxNesting := by
    intro collection id steps
    have hstarts : (Resumption.start collection id steps).Starts := ⟨_, _, _, rfl⟩
    exact hstarts.sound.orderly
  have hgains := runs.gains .orderly hstart fun e he => (hold e he).orderly
  refine (hgains.imp fun e he => ?_).forall_mem fun e he => hold e (mem_leaving he)
  rcases he with left | starts
  · exact left.sound
  · exact starts.sound

/-! ## Playback without the check of its depth -/

/-- Pass after pass, without a look at how deep the first one is. -/
def Resumption.unguarded (rig : Rig σ) : Nat → Resumption → Session σ → Run σ Outcome
  | 0, _, _ => .exhausted
  | budget + 1, r, s => (pass rig budget (unguarded rig budget) r s).follow (unguarded rig budget)

/-- Two passes come to the same, and a pass that follows has a property. -/
def Run.SameFlow (ok : Activity → Prop) (a b : Run σ Flow) : Prop :=
  a = b ∧ ∀ next s, a = .done (.proceed next) s → ok (.drive next)

namespace Run.SameFlow

variable {α : Type} {ok : Activity → Prop} {a b : Run σ Flow}

/-- No pass follows, and there is nothing to say of one. -/
theorem last (h : ∀ next s, a ≠ .done (.proceed next) s) : SameFlow ok a a :=
  ⟨rfl, fun next s hnext => absurd hnext (h next s)⟩

theorem failed (e : PlayError) (s : Session σ) : SameFlow ok (.failed e s) (.failed e s) :=
  last (by simp)

theorem suspended (s : Session σ) : SameFlow ok (.done .suspended s) (.done .suspended s) :=
  last (by simp)

theorem andThen {x : Run σ α} {f g : α → Session σ → Run σ Flow}
    (h : ∀ a s, SameFlow ok (f a s) (g a s)) : SameFlow ok (x.andThen f) (x.andThen g) := by
  cases x with
  | done a s => exact h a s
  | failed e s => exact failed e s
  | exhausted => exact last (by simp [Run.andThen])

theorem follow {next next' : Resumption → Session σ → Run σ Outcome} (h : SameFlow ok a b)
    (same : ∀ r s, ok (.drive r) → next r s = next' r s) : a.follow next = b.follow next' := by
  obtain ⟨rfl, hok⟩ := h
  cases a with
  | done flow s =>
    cases flow with
    | finished => rfl
    | suspended => rfl
    | proceed r => exact same r s (hok r s rfl)
  | failed e s => rfl
  | exhausted => rfl

end Run.SameFlow

namespace Hereditary

variable {rig : Rig σ} {ok : Activity → Prop} {inner inner' : Resumption → Session σ → Run σ Outcome}

theorem playBody_congr (h : Hereditary rig ok)
    (same : ∀ r s, ok (.drive r) → inner r s = inner' r s) {p : Leg} {opening : Step}
    {body behind : List Step} {again : Recurrence} {budget : Nat}
    (hok : ok (.loop p opening body behind again)) :
    Pass.playBody ⟨rig, p.source, p.grouping, p.base, budget, inner⟩ opening body =
      Pass.playBody ⟨rig, p.source, p.grouping, p.base, budget, inner'⟩ opening body := by
  funext s
  simp only [Pass.playBody]
  split
  · rfl
  · rename_i hshallow
    have hround : ok (.round p opening body behind again) := h.round hok
    rw [same _ s (h.nested (Nat.not_lt.mp hshallow) hround)]

/-- A pass only plays bodies that have inherited from it, and so has the pass that follows. -/
theorem walk_congr (h : Hereditary rig ok)
    (same : ∀ r s, ok (.drive r) → inner r s = inner' r s) (p : Leg) (budget : Nat) :
    ∀ (steps : List Step) (skip : Nat) (s : Session σ), ok (.walk p (steps.drop skip)) →
      Run.SameFlow ok
        (Pass.walk ⟨rig, p.source, p.grouping, p.base, budget, inner⟩ skip steps s)
        (Pass.walk ⟨rig, p.source, p.grouping, p.base, budget, inner'⟩ skip steps s) := by
  intro steps
  induction steps with
  | nil =>
    intro skip s hok
    rw [List.drop_nil] at hok
    refine ⟨by simp only [Pass.walk], fun next s' hnext => ?_⟩
    simp only [Pass.walk, Run.done.injEq] at hnext
    exact h.close hnext.1 hok
  | cons step rest ih =>
    intro skip s hok
    cases skip with
    | succ skip => exact ih skip s hok
    | zero =>
      rw [List.drop_zero] at hok
      have htail : ∀ s, Run.SameFlow ok _ _ := fun s => ih 0 s (h.tail hok)
      obtain ⟨f, hf⟩ | hi | ⟨t, hi⟩ | hi | ⟨l, hi⟩ :=
        step.effect?_cases rig.host p.grouping p.base
      · rw [Pass.walk_effect _ hf, Pass.walk_effect _ hf]
        exact .andThen fun _ s => htail s
      · simp only [Pass.walk, hi]
        exact .suspended s
      · simp only [Pass.walk, hi]
        exact .suspended _
      · simp only [Pass.walk, hi]
        exact htail s
      · simp only [Pass.walk, hi]
        split
        · exact htail s
        · rename_i place hclosing
          have hbehind : ∀ s, Run.SameFlow ok _ _ := fun s => ih (place + 1) s (h.drop _ hok)
          split
          · exact .failed _ _
          · rename_i condition hrepeats
            have hloop : ok (.loop p step _ _ (.whileTrue condition)) :=
              h.rounds hi hclosing hrepeats rfl hok
            rw [h.playBody_congr same hloop]
            exact .andThen fun _ s => hbehind s
          · rename_i start stop by' hrepeats
            split
            · exact .failed _ _
            · rename_i count hcount
              have hloop : ok (.loop p step _ _ (.times count)) :=
                h.rounds hi hclosing hrepeats rfl hok
              rw [h.playBody_congr same hloop]
              exact .andThen fun _ s => hbehind s
          · rename_i count hrepeats
            split
            · rename_i hpositive
              refine ⟨rfl, fun next s' hnext => ?_⟩
              simp only [Run.done.injEq, Flow.proceed.injEq] at hnext
              obtain ⟨rfl, -⟩ := hnext
              exact h.enter hi hclosing hrepeats hpositive hok
            · exact hbehind s

/-- **The depth of a playback need not be checked** where what it goes on with is shallow. -/
theorem drive_unguarded (h : Hereditary rig ok)
    (shallow : ∀ r, ok (.drive r) → r.depth ≤ rig.settings.maxNesting) :
    ∀ (budget : Nat) (r : Resumption) (s : Session σ), ok (.drive r) →
      r.drive rig budget s = r.unguarded rig budget s := by
  intro budget
  induction budget with
  | zero => exact fun _ _ _ => rfl
  | succ n ih =>
    intro r s hok
    have hguard : ¬rig.settings.maxNesting < r.depth := Nat.not_lt.mpr (shallow r hok)
    have hsame : ∀ r s, ok (.drive r) → Resumption.drive rig n r s = Resumption.unguarded rig n r s :=
      fun r s hr => ih r s hr
    rw [Resumption.drive_succ, if_neg hguard, Resumption.unguarded]
    refine Run.SameFlow.follow ?_ hsame
    unfold Resumption.pass
    split
    · exact .last (by simp)
    · rename_i action hfound
      let s' := s.announce r
      exact h.walk_congr hsame ⟨r, action.grouping, r.surface.getD (rig.host.ambient s'.host)⟩ n
        r.steps 0 s' (h.pass hok)

end Hereditary

/-! ## Whole runs -/

theorem Activity.depth_of_event {a : Activity} {e : Event} (h : a.event? = some e) :
    e.depth = a.depth := by
  unfold event? at h
  split at h <;> cases h <;> rfl

/-- The step that an event is about is held by the activity that begins with it. -/
theorem Activity.Holds.of_event {fit : Step → Prop} {a : Activity} {e : Event} (h : a.Holds fit)
    (begins : a.event? = some e) : fit e.step := by
  unfold event? at begins
  split at begins <;> cases begins
  · exact h.ahead.1 _ List.mem_cons_self
  · exact h.opening _ rfl

namespace Chronicle

/-- **What is scheduled is sound**, and so is what becomes of it. Whatever calls have been made of a
player, with whatever hosts, clocks and libraries: every resumption in its timetable is nested no
deeper than allowed, holds active steps only, is in loops that have a round left, and has a surface
unless it is still to begin, in no loop. So whatever session a scheduled resumption or an action is
played in, all that this goes on with is nested no deeper than allowed and holds active steps only,
and so does all that it comes to; and it makes no difference whether the depth of a playback is
checked. -/
theorem scheduled_sound {settings : PlaySettings} {calls : List Episode}
    {t : Timetable Resumption} {waits : List RenderWait} (h : Chronicle settings calls t waits) :
    (∀ e ∈ t.waiting, e.payload.Sound settings.maxNesting) ∧
    ∀ {σ : Type} (rig : Rig σ) (turn : Turn) (s : Session σ) (r : Resumption),
      rig.settings = settings →
      ((∃ collection id, turn = .play collection id) ∨ ∃ e ∈ t.waiting, turn = .resume e.payload) →
      turn.begins s = .ok r →
      (∀ y, Activity.Onward rig (.drive r, s) y →
        y.1.depth ≤ settings.maxNesting ∧ y.1.Holds fun step => step.active = true) ∧
      (∀ events, turn.Comes rig s events →
        ∀ e ∈ events, e.step.active = true ∧ e.depth ≤ settings.maxNesting) ∧
      ∀ budget, turn.run rig budget s = r.unguarded rig budget s := by
  have hscheduled : ∀ e ∈ t.waiting, e.payload.Sound settings.maxNesting := by
    induction h with
    | new => simp [Timetable.empty]
    | episode _ same ends ih =>
      subst same
      exact ends.sound ih
  refine ⟨hscheduled, ?_⟩
  rintro σ rig turn s r rfl hturn hbegins
  have hsound : r.Sound rig.settings.maxNesting := by
    rcases hturn with ⟨collection, id, rfl⟩ | ⟨e, he, rfl⟩
    · exact (Turn.starts_of_begins hbegins).sound
    · cases hbegins
      exact hscheduled e he
  have honward : ∀ y, Activity.Onward rig (.drive r, s) y →
      y.1.Orderly rig.settings.maxNesting :=
    fun y hy => Hereditary.orderly.onward hy hsound.orderly
  refine ⟨fun y hy => ⟨(honward y hy).1, (honward y hy).2.1⟩, ?_, fun budget => ?_⟩
  · rintro events ⟨r', hr', hcomes⟩ e he
    cases hbegins.symm.trans hr'
    obtain ⟨y, hy, hevent⟩ := hcomes.onward e he
    obtain ⟨hshallow, hholds, -⟩ := honward y hy
    exact ⟨hholds.of_event hevent, Activity.depth_of_event hevent ▸ hshallow⟩
  · rw [Turn.run_eq, hbegins]
    exact Hereditary.orderly.drive_unguarded (fun _ horderly => horderly.1) budget r s hsound.orderly

end Chronicle

/-- A loop of two rounds, each of which waits in front of a step that is left out. -/
def idleRounds : List Step := [
  .recorded "l" "ar.event:\x7b\"Type\":\"Loop\",\"StatementType\":\"repeat\",\"RepeatCount\":2\x7d",
  .recorded "t" "ar.event:\x7b\"Type\":\"Timer\",\"Time\":0.5\x7d",
  { Step.recorded "m" "bpy.ops.scene.increment(key=\"m\")" with active := false },
  .recorded "n" "bpy.ops.scene.increment(key=\"n\")",
  .recorded "e" "ar.event:\x7b\"Type\":\"EndLoop\"\x7d"]

theorem idleRounds_suspended :
    (Turn.rehearse 10 idleRounds).seen? (fun s => s.timetable.waiting.map fun e =>
      (e.payload.steps.map Step.id, e.payload.frames.map Frame.remaining)) =
      some (some .suspended, [(["n"], [2])]) := by
  decide +kernel

theorem idleRounds_sound :
    ∃ calls t waits, Chronicle .usual calls t waits ∧ ∃ e ∈ t.waiting,
      e.payload.frames.map Frame.remaining = [2] ∧ e.payload.Sound PlaySettings.usual.maxNesting ∧
      ∀ budget s, e.payload.drive .rehearsal budget s = e.payload.unguarded .rehearsal budget s := by
  obtain ⟨s₁, hplay, hwaiting⟩ := Run.of_seen?_done idleRounds_suspended
  obtain ⟨e, hentry, hseen⟩ := List.map_eq_singleton_iff.mp hwaiting
  have he : e ∈ s₁.timetable.waiting := by simp [hentry]
  have hplayed : Session.play .rehearsal 10 .locals "a" (.rehearsal idleRounds) =
      .ofResult (.ok .suspended) s₁ := hplay
  have hnew : Chronicle .usual [] (Session.rehearsal idleRounds).timetable
      (Session.rehearsal idleRounds).waits := .new
  have hchronicle := hnew.episode rfl (.play hplayed)
  obtain ⟨hsound, hruns⟩ := Chronicle.scheduled_sound hchronicle
  refine ⟨_, _, _, hchronicle, e, he, (Prod.mk.inj hseen).2, hsound e he, fun budget s => ?_⟩
  obtain ⟨-, -, hunguarded⟩ :=
    hruns .rehearsal (.resume e.payload) s e.payload rfl (.inr ⟨e, he, rfl⟩) rfl
  exact hunguarded budget

end Replay
