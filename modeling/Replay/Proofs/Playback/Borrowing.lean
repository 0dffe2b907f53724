import Replay.Proofs.Host.Layouts
import Replay.Proofs.Playback.Chronicle
import Replay.Proofs.Playback.Onward

/-!
# What is borrowed is given back

A call reaches its host by the effects of steps and by the conditions of loops. What neither of them
changes is the same after a call as before it, and between any two of its steps.

* `Host.Upholds` — what no step and no condition changes
* `Plays.upholds`, `Cue.Ends.upholds`, `Activity.Onward.upholds` — then no call changes it
* `Session.layout_kept` — playback on a stage leaves all windows as they are
-/

set_option autoImplicit false

open Relation

namespace Replay

variable {σ : Type}

/-! ## What steps and conditions leave alone -/

/-- Neither the effect of a step nor a condition leaves the states of a kind. -/
structure Host.Upholds (h : Host σ) (p : σ → Prop) : Prop where
  effect : ∀ {g base step f s r s'}, Step.effect? h g base step = some f → f s = (r, s') → p s → p s'
  condition : ∀ {condition s r s'}, h.evaluate s condition = (r, s') → p s → p s'

theorem Host.Lays.upholds {h : Host σ} {p : Layout → σ → Prop} (k : h.Lays p) (l : Layout) :
    h.Upholds (p l) :=
  ⟨fun hf hrun hs => k.effect hf hrun hs, fun hrun hs => k.condition hrun hs⟩

section Upholds

variable {rig : Rig σ} {p : σ → Prop} {a : Activity} {s s' : Session σ} {events : List Event}
  {result : Result}

theorem Plays.upholds (k : rig.host.Upholds p) (h : Plays rig a s events result s')
    (hs : p s.host) : p s'.host := by
  induction h with
  | tooDeep _ | gone _ _ | finish _ | awaitRender _ | wait _ | badLoop _ _ _ | badRange _ _ _ _
  | roundTooDeep _ => exact hs
  | pass _ _ _ ih => exact ih (by simpa using hs)
  | close _ _ ih | loopEnd _ _ ih | unmatched _ _ _ ih | enter _ _ _ _ _ ih | skip _ _ _ _ _ ih
  | range _ _ _ _ _ ih | whileTrue _ _ _ _ ih | noneLeft _ ih | nextRound _ ih
  | roundFailed _ _ ih => exact ih hs
  | act effect done _ ih => exact ih (k.effect effect done hs)
  | fail effect failed => exact k.effect effect failed hs
  | enough holds _ ih | again holds _ ih => exact ih (k.condition holds hs)
  | unknown holds => exact k.condition holds hs
  | roundDone _ _ _ ih ih' => exact ih' (ih hs)

theorem Resumes.upholds (k : rig.host.Upholds p) {rs : List Resumption} {takes : List Take}
    (h : Resumes rig rs s takes s') (hs : p s.host) : p s'.host := by
  induction h with
  | nothing => exact hs
  | dropped _ _ ih => exact ih hs
  | taken _ plays _ ih => exact ih (plays.upholds k hs)

/-- **What no step and no condition changes, no call changes.** -/
theorem Cue.Ends.upholds (k : rig.host.Upholds p) {cue : Cue} (h : cue.Ends rig s s')
    (hs : p s.host) : p s'.host := by
  obtain ⟨takes, plays | resumes | _⟩ := ends_iff_runs.mp h
  · cases plays with
    | refused _ => exact hs
    | driven _ drives => exact drives.upholds k hs
  · exact resumes.upholds k hs
  · exact Session.releaseEach_keeps (p := fun s => p s.host) (fun _ _ _ _ hs => hs) _ _ _ hs

theorem Activity.Next.upholds (k : rig.host.Upholds p) {x y : Activity × Session σ}
    (h : Activity.Next rig x y) (hs : p x.2.host) : p y.2.host := by
  cases h with
  | pass _ _ => simpa using hs
  | close _ | loopEnd _ | unmatched _ _ | enter _ _ _ _ | skip _ _ _ _ | range _ _ _ _
  | whileTrue _ _ _ | noneLeft | nextRound | round _ => exact hs
  | act effect done => exact k.effect effect done hs
  | enough holds | again holds => exact k.condition holds hs
  | roundDone _ inside => exact inside.upholds k hs

/-- **Nor is it changed between the steps of a call**, whether or not the call ends. -/
theorem Activity.Onward.upholds (k : rig.host.Upholds p) {x y : Activity × Session σ}
    (h : Activity.Onward rig x y) (hs : p x.2.host) : p y.2.host := by
  induction h with
  | refl => exact hs
  | tail _ next ih => exact next.upholds k ih

end Upholds

/-! ## Calls on a stage -/

namespace Session

/-- A call of a player on a stage, with settings and a clock of its own, after the library has been
edited. -/
def Called (s s' : Session Stage) : Prop :=
  ∃ settings clock library cue,
    Cue.Ends ⟨Stage.host, settings, clock⟩ cue { s with library := library } s'

/-- **Playback leaves all windows as they are.** On a stage with the built-in operators, whatever
areas it shows and whatever is in the library: after each of any number of calls, failed or not, the
layout is that before the first one. It is the same whenever a call goes on with an activity, so an
area is borrowed only while a command runs. -/
theorem layout_kept {s : Session Stage} (builtIn : s.host.operators = .builtIn) :
    (∀ s', ReflTransGen Called s s' → s'.host.scene.layout = s.host.scene.layout) ∧
    ∀ settings clock a y, Activity.Onward ⟨Stage.host, settings, clock⟩ (a, s) y →
      y.2.host.scene.layout = s.host.scene.layout := by
  have hupholds : Stage.host.Upholds (Stage.Displays s.host.scene.layout) := Stage.host_lays.upholds _
  have hs : s.host.Displays s.host.scene.layout := ⟨builtIn, rfl⟩
  constructor
  · intro s' hcalls
    have hdisplays : s'.host.Displays s.host.scene.layout := by
      induction hcalls with
      | refl => exact hs
      | tail _ call ih =>
        obtain ⟨settings, clock, library, cue, ends⟩ := call
        exact ends.upholds hupholds ih
    exact hdisplays.layout
  · intro settings clock a y honward
    have hdisplays : y.2.host.Displays s.host.scene.layout := honward.upholds hupholds hs
    exact hdisplays.layout

end Session

/-- Two windows whose areas have the same id. -/
def twinAreas : Layout :=
  ⟨[⟨1, ⟨1, [⟨1, "VIEW_3D", [⟨1, .window⟩]⟩, ⟨1, "OUTLINER", []⟩]⟩⟩, ⟨2, ⟨2, [⟨1, "CONSOLE", []⟩]⟩⟩]⟩

/-- Two commands that ask for an editor that no window shows; the second one is of an operator that
is not known. -/
def borrowers : List Step := [
  { Step.recorded "n" "bpy.ops.scene.increment(key=\"n\")" with uiType := "GRAPH" },
  { Step.recorded "f" "bpy.ops.object.fly()" with uiType := "GRAPH" }]

/-- The steps rehearsed in front of the twins. -/
def Session.borrowing : Session Stage :=
  { Session.rehearsal borrowers with host := .ofScene { Scene.blank with layout := twinAreas } }

/-- The first command has run in a borrowed area, and the second one has failed. -/
theorem borrowers_failed :
    (Session.borrowing.play .rehearsal 10 .locals "a").seen?
      (fun s => s.host.journal.map JournalEntry.uiType) = some (none, [some "GRAPH"]) := by
  decide +kernel

theorem borrowers_layout :
    ∃ e s', Session.borrowing.play .rehearsal 10 .locals "a" = .failed e s' ∧
      s'.host.journal.map JournalEntry.uiType = [some "GRAPH"] ∧
      s'.host.scene.layout = twinAreas := by
  obtain ⟨e, s', hfailed, hjournal⟩ := Run.of_seen?_failed borrowers_failed
  have hplayed : Session.borrowing.play .rehearsal 10 .locals "a" = .ofResult (.error e) s' := hfailed
  have hends : Cue.Ends .rehearsal (.play .locals "a") Session.borrowing s' := .play hplayed
  have hcalled : Session.borrowing.Called s' := ⟨_, _, _, _, hends⟩
  obtain ⟨hkept, -⟩ := Session.layout_kept (s := Session.borrowing) rfl
  exact ⟨e, s', hfailed, hjournal, hkept s' (.single hcalled)⟩

end Replay
