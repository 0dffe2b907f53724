import Replay.Proofs.Library.Basic
import Replay.Proofs.Playback.Adequacy
import Replay.Proofs.Playback.Progress

/-!
# Structured playback

On a stage with the built-in operators, and on any other one whose operators leave it alone, the
surface that the user works on never changes, so an action is always in a scenario. Playing an action
without waits is then the same as performing the blocks that its active steps form: one comes to an
end if and only if the other does, and to the same end.

* `Scenario.onSteady`, `Scenario.onStage` — the scenario of an action on a stage
* `Scenario.performs_of_drive`, `Scenario.leads_of_performs` — the beginning of an action
* `Session.play_iff_performs` — playing is performing
-/

set_option autoImplicit false

namespace Replay

/-- The scenario of an action on a stage whose operators leave the user's surface alone. -/
def Scenario.onSteady {table : OperatorTable} (steady : table.Steady) (settings : PlaySettings)
    (clock : Nat → Time) (base : Surface) {library : Library} {collection : Collection}
    {id : String} {action : Action} (found : library.action? collection id = some action) :
    Scenario Stage where
  rig := ⟨Stage.host, settings, clock⟩
  library := library
  collection := collection
  actionId := id
  action := action
  base := base
  Usual := Stage.WorksOn table base
  found := found
  keeps := Stage.host_keeps_ambient steady base
  ambient _ h := h.ambient

/-- The scenario of an action on a stage with the built-in operators. -/
def Scenario.onStage (settings : PlaySettings) (clock : Nat → Time) (base : Surface)
    {library : Library} {collection : Collection} {id : String} {action : Action}
    (found : library.action? collection id = some action) : Scenario Stage :=
  .onSteady OperatorTable.builtIn_steady settings clock base found

/-! ## The beginning of an action -/

/-- The beginning of an action stands for the blocks that its active steps form. -/
theorem Resumption.blocks_start (collection : Collection) (id : String) (steps : List Step) :
    (Activity.drive (.start collection id steps)).blocks =
      Block.ofSteps (steps.filter Step.active) := by
  simp [Activity.blocks, start, around]

namespace Scenario

variable {σ : Type} (k : Scenario σ) {steps : List Step}

/-- The beginning of an action is in its scenario. -/
theorem fits_start (outside : TimersOutside (steps.filter Step.active)) :
    k.Fits (.drive (.start k.collection k.actionId steps)) :=
  ⟨⟨outside, fun _ h => nomatch h⟩, rfl, rfl, .inl rfl, Nat.zero_le _⟩

variable {k}

/-- What is played to its end from the beginning, without waits, is performed. -/
theorem performs_of_drive {s s' : Session σ} (admits : k.Admits s)
    (still : Waitless (steps.filter Step.active)) {events : List Event} {result : Result}
    (h : Plays k.rig (.drive (.start k.collection k.actionId steps)) s events result s') :
    ∃ ending, Performs k.manner 0 (Block.ofSteps (steps.filter Step.active)) s.host ending ∧
      result = ending.result ∧ s' = k.leave ending s := by
  have hstill : (Resumption.start k.collection k.actionId steps).Throughout Waitless :=
    ⟨still, fun _ h => nomatch h⟩
  obtain ⟨ending, hperforms, hresult, hs'⟩ :=
    h.performs (k.fits_start still.timersOutside) admits (h.not_suspended hstill)
  rw [Resumption.blocks_start] at hperforms
  exact ⟨ending, hperforms, hresult, hs'⟩

/-- What can be performed leads the beginning of the action to that ending. -/
theorem leads_of_performs {state : σ} {ending : Ending σ} (usual : k.Usual state)
    (outside : TimersOutside (steps.filter Step.active))
    (h : Performs k.manner 0 (Block.ofSteps (steps.filter Step.active)) state ending) :
    k.LeadsTo (.drive (.start k.collection k.actionId steps)) state ending :=
  h.leads usual _ (k.fits_start outside) rfl (Resumption.blocks_start _ _ steps)

end Scenario

/-- An action is played by driving its steps from the first one. -/
theorem Session.play_of_found {σ : Type} {rig : Rig σ} {s : Session σ} {collection : Collection}
    {id : String} {action : Action} (found : s.library.action? collection id = some action)
    (budget : Nat) :
    s.play rig budget collection id =
      (Resumption.start collection id action.steps).drive rig budget s := by
  obtain rfl := Library.id_of_action? found
  rw [Session.play, found]

/-- What is played to its end without waits is performed. -/
theorem Session.performs_of_play {settings : PlaySettings} {clock : Nat → Time}
    {s s' : Session Stage} (builtIn : s.host.operators = .builtIn)
    {collection : Collection} {id : String} {action : Action}
    (found : s.library.action? collection id = some action)
    (still : Waitless (action.steps.filter Step.active)) {budget : Nat} {result : Result}
    (h : s.play ⟨Stage.host, settings, clock⟩ budget collection id = .ofResult result s') :
    ∃ ending,
      Performs ⟨Stage.host, settings.maxNesting, action.grouping, s.host.scene.ambient⟩ 0
        (Block.ofSteps (action.steps.filter Step.active)) s.host ending ∧
      result = ending.result ∧ s' = ending.leave collection id s := by
  let k := Scenario.onStage settings clock s.host.scene.ambient found
  have admits : k.Admits s := ⟨rfl, builtIn, rfl⟩
  rw [play_of_found found] at h
  obtain ⟨events, hplays⟩ := drive_iff_plays.mp ⟨budget, h⟩
  exact Scenario.performs_of_drive admits still hplays

/-- What can be performed leads the beginning of the action to that ending. -/
theorem Session.leads_of_performs (settings : PlaySettings) (clock : Nat → Time) {s : Session Stage}
    (builtIn : s.host.operators = .builtIn)
    {collection : Collection} {id : String} {action : Action}
    (found : s.library.action? collection id = some action)
    (outside : TimersOutside (action.steps.filter Step.active)) {ending : Ending Stage}
    (h : Performs ⟨Stage.host, settings.maxNesting, action.grouping, s.host.scene.ambient⟩ 0
      (Block.ofSteps (action.steps.filter Step.active)) s.host ending) :
    (Scenario.onStage settings clock s.host.scene.ambient found).LeadsTo
      (.drive (.start collection id action.steps)) s.host ending :=
  Scenario.leads_of_performs (k := Scenario.onStage settings clock s.host.scene.ambient found)
    ⟨builtIn, rfl⟩ outside h

/-- **Playing an action without waits is performing its blocks.** For every result and session, the
action is played to that result and leaves that session within some budget, if and only if the
blocks of its active steps can be performed to an ending that has this result and leaves this
session: the host as it is then, and the alerts raised that belong to a failure. -/
theorem Session.play_iff_performs (settings : PlaySettings) (clock : Nat → Time) (s : Session Stage)
    (builtIn : s.host.operators = .builtIn)
    {collection : Collection} {id : String} {action : Action}
    (found : s.library.action? collection id = some action)
    (still : Waitless (action.steps.filter Step.active)) (result : Result) (s' : Session Stage) :
    (∃ budget, s.play ⟨Stage.host, settings, clock⟩ budget collection id = .ofResult result s') ↔
      ∃ ending,
        Performs ⟨Stage.host, settings.maxNesting, action.grouping, s.host.scene.ambient⟩ 0
          (Block.ofSteps (action.steps.filter Step.active)) s.host ending ∧
        result = ending.result ∧ s' = ending.leave collection id s := by
  constructor
  · rintro ⟨budget, h⟩
    exact performs_of_play builtIn found still h
  · rintro ⟨ending, hperforms, rfl, rfl⟩
    have hstill : (Resumption.start collection id action.steps).Throughout Waitless :=
      ⟨still, fun _ h => nomatch h⟩
    have hleads := leads_of_performs settings clock builtIn found still.timersOutside hperforms
    obtain ⟨events, hplays⟩ := hleads.at_once hstill ⟨rfl, builtIn, rfl⟩ rfl
    simp only [play_of_found found]
    exact hplays.exists_run

/-- A loop of two rounds in which a property is counted up. -/
def countedTwice : List Step := [
  .recorded "l" "ar.event:\x7b\"Type\":\"Loop\",\"StatementType\":\"repeat\",\"RepeatCount\":2\x7d",
  .recorded "n" "bpy.ops.scene.increment(key=\"n\")",
  .recorded "e" "ar.event:\x7b\"Type\":\"EndLoop\"\x7d"]

theorem countedTwice_outcome :
    (Turn.rehearse 10 countedTwice).seen? (fun s => s.host.journal.length) =
      some (some .finished, 2) := by
  decide +kernel

theorem countedTwice_performed :
    ∃ stage : Stage, stage.journal.length = 2 ∧
      Performs
        ⟨Stage.host, PlaySettings.usual.maxNesting, .group, (Stage.ofScene .blank).scene.ambient⟩
        0 (Block.ofSteps (countedTwice.filter Step.active)) (.ofScene .blank) (.done stage) := by
  obtain ⟨s', hrun, hjournal⟩ := Run.of_seen?_done countedTwice_outcome
  have hstill : Waitless (countedTwice.filter Step.active) := by decide +kernel
  have hplayed : ∃ budget, (Session.rehearsal countedTwice).play .rehearsal budget .locals "a" =
      .ofResult (.ok .finished) s' := ⟨10, hrun⟩
  have hfound : (Session.rehearsal countedTwice).library.action? .locals "a" =
      some { Action.titled "a" "a" with steps := countedTwice } := rfl
  obtain ⟨ending, hperforms, hresult, rfl⟩ :=
    (Session.play_iff_performs .usual (fun _ => 0) (.rehearsal countedTwice) rfl hfound hstill
      (.ok .finished) s').mp hplayed
  obtain ⟨stage, rfl⟩ := Ending.eq_done hresult
  exact ⟨stage, hjournal, hperforms⟩

end Replay
