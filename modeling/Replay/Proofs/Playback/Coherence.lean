import Replay.Proofs.Host.Individually
import Replay.Proofs.Playback.Borrowing

/-!
# Scenes stay coherent

Names that tell objects apart, and an active object that is there: playback on a stage with the
built-in operators keeps both, from one invocation to the next.

* `Cue.Underway` — what a call goes on with, whether or not it ends
* `Stage.host_upholds_coherent` — neither a step nor a condition leaves a stage incoherent
* `Session.scene_coherent` — nor does any invocation inside any number of calls
-/

set_option autoImplicit false

open Relation

namespace Replay

variable {σ : Type}

/-! ## Calls under way -/

/-- **What a call of the player goes on with**, and in which session. A look at the timetable takes up
one resumption after the other, those in front to their ends. -/
inductive Cue.Underway (rig : Rig σ) : Cue → Session σ → Activity × Session σ → Prop
  | play {collection id s r y} (begins : (Turn.play collection id).begins s = .ok r)
      (onward : Activity.Onward rig (.drive r, s) y) : Underway rig (.play collection id) s y
  | look {now s front r back takes s₁ action y}
      (due : (s.timetable.takeDue now).1.map TimetableEntry.payload = front ++ r :: back)
      (resumes : Resumes rig front { s with timetable := (s.timetable.takeDue now).2 } takes s₁)
      (found : s₁.library.action? r.collection r.actionId = some action)
      (onward : Activity.Onward rig (.drive r, s₁) y) : Underway rig (.look now) s y

/-- **What no step and no condition changes is not changed while a call is under way.** -/
theorem Cue.Underway.upholds {rig : Rig σ} {p : σ → Prop} (k : rig.host.Upholds p) {cue : Cue}
    {s : Session σ} {y : Activity × Session σ} (h : cue.Underway rig s y) (hs : p s.host) :
    p y.2.host := by
  cases h with
  | play _ onward => exact onward.upholds k hs
  | look _ resumes _ onward => exact onward.upholds k (resumes.upholds k hs)

/-! ## Calls on a stage -/

/-- **Neither a step nor a condition leaves a stage incoherent.** -/
theorem Stage.host_upholds_coherent : Stage.host.Upholds Stage.Coherent where
  effect hf hrun hs := hs.effect hf hrun
  condition hrun hs := by
    cases hrun
    exact hs

namespace Session

theorem Called.upholds {p : Stage → Prop} (k : Stage.host.Upholds p) {s s' : Session Stage}
    (h : ReflTransGen Called s s') (hs : p s.host) : p s'.host := by
  induction h with
  | refl => exact hs
  | tail _ call ih =>
    obtain ⟨settings, clock, library, cue, ends⟩ := call
    exact ends.upholds k ih

/-- **Playback leaves no scene incoherent.** On a stage with the built-in operators on which names
tell the objects apart and the active object is there, this is so after any number of calls, and
while another call is under way: after each invocation of each step that the call comes to, failed or
not. The invocations of a step are all there are, since they account for what it enters in the
journal. -/
theorem scene_coherent {s : Session Stage} (builtIn : s.host.operators = .builtIn)
    (coherent : s.host.scene.Coherent) {s₁ : Session Stage} (calls : ReflTransGen Called s s₁) :
    s₁.host.scene.Coherent ∧
    ∀ settings clock library cue p step steps s₂,
      Cue.Underway ⟨Stage.host, settings, clock⟩ cue { s₁ with library := library }
        (.walk p (step :: steps), s₂) →
      (∀ v ∈ step.invoked p.grouping p.base s₂.host, v.after.scene.Coherent) ∧
      ∀ f, step.effect? Stage.host p.grouping p.base = some f →
        (f s₂.host).2.scene.Coherent ∧
        (f s₂.host).2.journal = s₂.host.journal ++
          (step.invoked p.grouping p.base s₂.host).filterMap Stage.Invoked.entry? := by
  have hupholds := Stage.host_upholds_coherent
  have hcalled : s₁.host.Coherent := Called.upholds hupholds calls ⟨builtIn, coherent⟩
  refine ⟨hcalled.scene, fun settings clock library cue p step steps s₂ underway => ?_⟩
  have hstage : s₂.host.Coherent := underway.upholds hupholds hcalled
  exact ⟨hstage.invoked step p.grouping p.base, fun f hf =>
    ⟨(hstage.effect hf rfl).scene, step.journal_effect hf s₂.host⟩⟩

end Session

/-- A step in front of the three objects, in an action that takes them one by one. -/
def Session.ofTrio (step : Step) : Session Stage :=
  .begin .trio { Library.empty with
    locals := [{ Action.titled "a" "a" with steps := [step], grouping := .individual }] }

/-- Both selected objects are gone, and with the first one the active object. -/
theorem deletion_played :
    ((Session.ofTrio deletion).play .rehearsal 10 .locals "a").seen?
      (fun s => (s.host.scene.names, s.host.scene.active)) =
        some (some .finished, ["C"], none) := by
  decide +kernel

theorem deletion_coherent : ∃ s',
    (Session.ofTrio deletion).play .rehearsal 10 .locals "a" = .done .finished s' ∧
      s'.host.scene.names = ["C"] ∧ s'.host.scene.Coherent ∧
      (∀ v ∈ deletion.invoked .individual Stage.trio.scene.ambient .trio, v.after.scene.Coherent) ∧
      (deletion.invoked .individual Stage.trio.scene.ambient .trio).length = 2 := by
  obtain ⟨s', hdone, hseen⟩ := Run.of_seen?_done deletion_played
  have hplayed : (Session.ofTrio deletion).play .rehearsal 10 .locals "a" =
    .ofResult (.ok .finished) s' := hdone
  have hends : Cue.Ends .rehearsal (.play .locals "a") (.ofTrio deletion) s' := .play hplayed
  have hcalled : (Session.ofTrio deletion).Called s' := ⟨_, _, _, _, hends⟩
  have hcoherent : (Session.ofTrio deletion).host.scene.Coherent := ⟨by decide, by decide⟩
  obtain ⟨hafter, -⟩ := Session.scene_coherent rfl hcoherent (.single hcalled)
  obtain ⟨-, hunderway⟩ := Session.scene_coherent rfl hcoherent .refl
  have hpass : Cue.Underway .rehearsal (.play .locals "a") (.ofTrio deletion) _ :=
    .play rfl (.single (.pass (Nat.zero_le _) rfl))
  exact ⟨s', hdone, congrArg Prod.fst hseen, hafter,
    (hunderway _ _ _ _ _ _ _ _ hpass).1, by decide +kernel⟩

end Replay
