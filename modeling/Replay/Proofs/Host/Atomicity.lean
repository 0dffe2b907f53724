import Replay.Proofs.Host.Individually

/-!
# All or nothing

A command that fails on a stage leaves no trace. Each operator that can fail looks at everything it
complains about before it changes anything lasting: the one that tags objects complains after its
round over the objects, but only if the round has met none that is selected. A command that succeeds
is entered in the journal once, as it was run and as things stand right after it.

* `Operator.Atomic`, `OperatorTable.Atomic` — operators that leave a scene as it is when they fail
* `OperatorTable.builtIn_atomic` — the built-in ones do
* `Stage.invoke_all_or_nothing` — a command is run with a trace, or it has not been run
-/

set_option autoImplicit false

namespace Replay

/-! ## Operators that fail -/

/-- **A failure changes nothing.** -/
def Operator.Atomic (o : Operator) : Prop :=
  ∀ c s e s', o.run c s = (.error e, s') → s' = s

/-- No operator of a table changes anything when it fails. -/
def OperatorTable.Atomic (t : OperatorTable) : Prop :=
  ∀ id o, t.get? id = some o → o.Atomic

namespace Operator

variable {c : Call} {s s' : Scene} {e : SceneError}

theorem addObject_failed (h : addObject c s = (.error e, s')) : s' = s := by
  unfold addObject at h
  split at h
  · cases h; rfl
  · split at h
    · cases h; rfl
    · cases h

theorem selectAll_failed (h : selectAll c s = (.error e, s')) : s' = s := by
  unfold selectAll at h
  dsimp only at h
  split at h
  · cases h; rfl
  · cases h

/-- The round over the objects comes before the complaint, but has changed none of them by then. -/
theorem tagSelected_failed (h : tagSelected c s = (.error e, s')) : s' = s := by
  unfold tagSelected at h
  split at h
  · cases h; rfl
  · rename_i tag _
    dsimp only at h
    split at h
    · cases h
    · rename_i hnone
      cases h
      have hnone' : ∀ o ∈ s.objects, o.selected = false := by simpa using hnone
      have hsame : s.objects.map (fun o =>
          if o.selected then { o with tags := o.tags ++ [tag] } else o) = s.objects := by
        refine (List.map_congr_left fun o ho => ?_).trans (List.map_id _)
        simp [hnone' o ho]
      rw [hsame]

theorem increment_failed (h : increment c s = (.error e, s')) : s' = s := by
  unfold increment at h
  split at h
  · cases h; rfl
  · split at h
    · cases h; rfl
    · split at h
      · cases h
      · split at h
        · cases h; rfl
        · cases h

end Operator

namespace OperatorTable

/-- **No built-in operator changes anything when it fails.** -/
theorem builtIn_atomic : builtIn.Atomic := by
  intro id o h c s e s' hrun
  have hmem := mem_entries_of_get? h
  simp only [builtIn, List.mem_cons, Prod.mk.injEq, List.not_mem_nil, or_false] at hmem
  rcases hmem with ⟨-, rfl⟩ | ⟨-, rfl⟩ | ⟨-, rfl⟩ | ⟨-, rfl⟩ | ⟨-, rfl⟩ | ⟨-, rfl⟩
  · exact Operator.addObject_failed hrun
  · cases hrun
  · exact Operator.selectAll_failed hrun
  · exact Operator.tagSelected_failed hrun
  · exact Operator.increment_failed hrun
  · cases hrun

end OperatorTable

/-! ## Commands that fail -/

namespace Stage

variable {st : Stage} {c : Command} {surface : Surface}

/-- An operator that is not known, one that does not run on the surface, and a value that means
nothing are complained about before anything is done. -/
theorem perform_failed (atomic : st.operators.Atomic) {e : SceneError} {scene : Scene}
    (h : st.perform c surface = (.error e, scene)) : scene = st.scene := by
  unfold perform at h
  split at h
  · split at h
    · cases h; rfl
    · rename_i o ho
      split at h
      · cases h; rfl
      · exact atomic _ o ho _ _ _ _ h
  · split at h
    · cases h; rfl
    · cases h
  · cases h; rfl

theorem invoke_failed (atomic : st.operators.Atomic) {i : Invocation} {e : SceneError} {st' : Stage}
    (h : st.invoke i surface = (.error e, st')) : st' = st := by
  unfold invoke at h
  split at h
  · rename_i e' scene hperform
    cases h
    rw [perform_failed atomic hperform]
  · cases h

theorem invoke_done {i : Invocation} {st' : Stage} (h : st.invoke i surface = (.ok (), st')) :
    st' = { st with
      scene := st'.scene
      journal := st.journal ++ [entryFor st'.scene i surface] } := by
  unfold invoke at h
  split at h
  · cases h
  · cases h; rfl

/-- **All or nothing.** A command on a stage with the built-in operators, whatever it says and on
whatever surface, fails and leaves the stage exactly as it was, or it succeeds; then the operators
and the requests to draw stay as they are, and the journal has one more entry, with the text that was
run and with the type of editor, the active object and the selection as they are now. -/
theorem invoke_all_or_nothing (builtIn : st.operators = .builtIn) (i : Invocation)
    (surface : Surface) :
    (∃ report, host.invoke st i surface = (.error report, st)) ∨
    ∃ st' entry, host.invoke st i surface = (.ok (), st') ∧
      st' = { st with scene := st'.scene, journal := st.journal ++ [entry] } ∧
      entry.command = i.rendered ∧ entry.surface = surface ∧
      entry.uiType = (surface.area.bind st'.scene.layout.area?).map Area.uiType ∧
      entry.active = st'.scene.active ∧ entry.selected = st'.scene.selected := by
  have hatomic : st.operators.Atomic := builtIn ▸ OperatorTable.builtIn_atomic
  have hhost : host.invoke st i surface = worded (st.invoke i surface) := rfl
  cases hinvoke : st.invoke i surface with
  | mk result st' =>
    rw [hhost, hinvoke]
    cases result with
    | error e =>
      left
      exact ⟨e.message, by rw [invoke_failed hatomic hinvoke]; rfl⟩
    | ok done =>
      right
      exact ⟨st', _, rfl, invoke_done hinvoke, rfl, rfl, rfl, rfl, rfl⟩

/-- Nothing is selected, so there is nothing to tag. -/
theorem idleTagging_untouched :
    (host.deselectAll .trio).operators = .builtIn ∧
    host.invoke (host.deselectAll .trio) (.ofText "bpy.ops.object.tag(tag='x')" .execute) .nowhere =
      (.error "No objects selected", host.deselectAll .trio) := by
  refine ⟨rfl, ?_⟩
  have hfailed : (host.invoke (host.deselectAll .trio)
    (.ofText "bpy.ops.object.tag(tag='x')" .execute) .nowhere).1 = .error "No objects selected" := by
    rfl
  rcases @invoke_all_or_nothing (host.deselectAll .trio) rfl
    (.ofText "bpy.ops.object.tag(tag='x')" .execute) .nowhere with
      ⟨report, hreport⟩ | ⟨st', entry, hdone, -⟩
  · rw [hreport] at hfailed ⊢
    cases hfailed
    rfl
  · rw [hdone] at hfailed
    cases hfailed

end Stage

end Replay
