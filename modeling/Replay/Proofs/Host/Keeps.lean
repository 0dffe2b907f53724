import Replay.Proofs.Playback.Rules
import Replay.Scene.Stage

/-!
# What hosts keep

Steps reach a host by its operations only, so what every operation keeps, every step keeps. A stage
keeps the surface that the user works on, if its operators do; the built-in ones do.

* `Host.Keeps` — no operation of a host leaves a set of states
* `Host.Keeps.effect` — then no step does
* `OperatorTable.builtIn_leaves_room` — what the built-in operators leave
* `Stage.host_keeps_ambient` — the user's surface on a stage
-/

set_option autoImplicit false

namespace Replay

variable {σ : Type}

/-- No operation of a host leaves the states of a kind. -/
structure Host.Keeps (h : Host σ) (p : σ → Prop) : Prop where
  setLayout : ∀ s layout, p s → p (h.setLayout s layout)
  select : ∀ s name on, p s → p (h.select s name on)
  deselectAll : ∀ s, p s → p (h.deselectAll s)
  setActive : ∀ s name, p s → p (h.setActive s name)
  invoke : ∀ s i surface, p s → p (h.invoke s i surface).2
  evaluate : ∀ s condition, p s → p (h.evaluate s condition).2
  runScript : ∀ s script, p s → p (h.runScript s script).2
  redraw : ∀ s area, p s → p (h.redraw s area)

namespace Host.Keeps

variable {h : Host σ} {p : σ → Prop}

theorem selectExisting (k : h.Keeps p) (names : List String) {s : σ} (hs : p s) :
    p (h.selectExisting names s) := by
  unfold Host.selectExisting
  induction names generalizing s with
  | nil => exact hs
  | cons name rest ih =>
    rw [List.foldl_cons]
    split
    · exact ih (k.select s name true hs)
    · exact ih hs

theorem selectEach (k : h.Keeps p) (names : List String) (on : Bool) {s : σ} (hs : p s) :
    p (h.selectEach names on s) := by
  unfold Host.selectEach
  induction names generalizing s with
  | nil => exact hs
  | cons name rest ih =>
    rw [List.foldl_cons]
    exact ih (k.select s name on hs)

theorem makeSelection (k : h.Keeps p) (sel : Selection) {s : σ} (hs : p s) :
    p (h.makeSelection sel s).2 := by
  have hcleared : p (if sel.keep then s else h.deselectAll s) := by
    split
    · exact hs
    · exact k.deselectAll s hs
  have hlisted := k.selectExisting sel.objects hcleared
  unfold Host.makeSelection
  dsimp only
  generalize (if sel.keep then s else h.deselectAll s) = cleared at hlisted
  split
  · exact hlisted
  · split
    · exact k.select _ _ _ (k.setActive _ _ hlisted)
    · exact hlisted

theorem playScript (k : h.Keeps p) (stepId source : String) {s : σ} (hs : p s) :
    p (h.playScript stepId source s).2 := by
  have hrun := k.runScript s ⟨stepId, source⟩ hs
  unfold Host.playScript
  dsimp only
  split <;> rename_i hresult <;> rwa [hresult] at hrun

theorem invokeForEach (k : h.Keeps p) (i : Invocation) (surface : Surface) (names : List String)
    {s : σ} (hs : p s) : p (h.invokeForEach i surface names s).2 := by
  induction names generalizing s with
  | nil => exact hs
  | cons name rest ih =>
    have hrun := k.invoke _ i surface (k.setActive _ (some name) (k.select s name true hs))
    unfold Host.invokeForEach
    split <;> rename_i hresult <;> rw [hresult] at hrun
    · exact ih (k.select _ name false hrun)
    · exact k.select _ name false hrun

theorem invokeGrouped (k : h.Keeps p) (grouping : Grouping) (i : Invocation) (surface : Surface)
    {s : σ} (hs : p s) : p (h.invokeGrouped grouping i surface s).2 := by
  cases grouping with
  | group => exact k.invoke s i surface hs
  | individual =>
    have hafter := k.invokeForEach i surface (h.selected s)
      (k.selectEach (h.selected s) false hs)
    exact k.setActive _ _ (k.selectEach _ true hafter)

theorem occupy (k : h.Keeps p) (during : Layout) (t : Target) {s : σ} (hs : p s) :
    p (h.occupy during t s) := by
  unfold Host.occupy
  split
  · exact k.setLayout s during hs
  · exact hs

theorem vacate (k : h.Keeps p) (t : Target) {s : σ} (hs : p s) : p (h.vacate t s) := by
  unfold Host.vacate
  split
  · exact k.setLayout s _ hs
  · exact hs

theorem redrawAt (k : h.Keeps p) (surface : Surface) {s : σ} (hs : p s) :
    p (h.redrawAt surface s) := by
  unfold Host.redrawAt
  split
  · exact k.redraw s _ hs
  · exact hs

theorem playCommand (k : h.Keeps p) (grouping : Grouping) (base : Surface) (step : Step)
    (c : Command) {s : σ} (hs : p s) : p (h.playCommand grouping base step c s).2 := by
  unfold Host.playCommand
  split
  · exact hs
  · split
    rename_i during target _
    have hrun := k.invokeGrouped grouping
      ⟨c, step.callMode, String.ofList (Text.trim step.text.toList)⟩ target.surface
      (k.occupy during target hs)
    dsimp only
    split <;> rename_i hresult <;> rw [hresult] at hrun
    · exact k.redrawAt _ (k.vacate target hrun)
    · exact k.vacate target hrun

/-- **What the operations of a host keep, every step keeps.** -/
theorem effect (k : h.Keeps p) {g : Grouping} {base : Surface} {step : Step}
    {f : σ → Except PlayError Unit × σ} (hf : step.effect? h g base = some f) {s s' : σ}
    {r : Except PlayError Unit} (hrun : f s = (r, s')) (hs : p s) : p s' := by
  obtain rfl : (f s).2 = s' := by rw [hrun]
  unfold Step.effect? at hf
  split at hf
  · cases hf; exact hs
  · cases hf; exact k.makeSelection _ hs
  · cases hf; exact k.playScript _ _ hs
  · cases hf; exact k.playCommand _ _ _ _ hs
  · cases hf

theorem condition (k : h.Keeps p) {s s' : σ} {condition : String} {r : Except String Bool}
    (hrun : h.evaluate s condition = (r, s')) (hs : p s) : p s' := by
  have := k.evaluate s condition hs
  rwa [hrun] at this

end Host.Keeps

/-! ## Stages -/

namespace Scene

/-- What operators have no business with: the layout, and the surface that the user works on. -/
def room (s : Scene) : Layout × Surface := (s.layout, s.ambient)

@[simp] theorem select_room (s : Scene) (name : String) (on : Bool) :
    (s.select name on).room = s.room := rfl

@[simp] theorem addObject_room (s : Scene) (name : String) : (s.addObject name).room = s.room := by
  unfold addObject
  split <;> rfl

@[simp] theorem deselectAll_room (s : Scene) : s.deselectAll.room = s.room := by
  unfold deselectAll
  generalize s.selected = names
  induction names generalizing s with
  | nil => rfl
  | cons name rest ih => rw [List.foldl_cons, ih, select_room]

end Scene

namespace OperatorTable

/-- What is read off a scene stays the same, whichever operator of a table runs. -/
def Leaves {α : Type} (t : OperatorTable) (read : Scene → α) : Prop :=
  ∀ id o, t.get? id = some o → ∀ c s, read (o.run c s).2 = read s

/-- No operator of a table changes the surface that the user works on. -/
def Steady (t : OperatorTable) : Prop :=
  ∀ id o, t.get? id = some o → ∀ c s, (o.run c s).2.ambient = s.ambient

theorem mem_entries_of_get? {t : OperatorTable} {id : String} {o : Operator}
    (h : t.get? id = some o) : (id, o) ∈ t.entries := by
  obtain ⟨before, after, hentries, -⟩ := List.lookup_eq_some_iff.mp h
  rw [hentries]
  exact List.mem_append_right _ List.mem_cons_self

/-- The built-in operators leave the layout and the user's surface. -/
theorem builtIn_leaves_room : builtIn.Leaves Scene.room := by
  intro id o h c s
  have hmem := mem_entries_of_get? h
  simp only [builtIn, List.mem_cons, Prod.mk.injEq, List.not_mem_nil, or_false] at hmem
  rcases hmem with ⟨-, rfl⟩ | ⟨-, rfl⟩ | ⟨-, rfl⟩ | ⟨-, rfl⟩ | ⟨-, rfl⟩ | ⟨-, rfl⟩
  · show (Operator.addObject c s).2.room = s.room
    unfold Operator.addObject
    split
    · rfl
    · split
      · rfl
      · exact Scene.addObject_room _ _
  · show (Operator.deleteObjects c s).2.room = s.room
    unfold Operator.deleteObjects
    simp only
    split <;> rfl
  · show (Operator.selectAll c s).2.room = s.room
    unfold Operator.selectAll
    simp only
    split <;> rfl
  · show (Operator.tagSelected c s).2.room = s.room
    unfold Operator.tagSelected
    split
    · rfl
    · simp only
      split <;> rfl
  · show (Operator.increment c s).2.room = s.room
    unfold Operator.increment
    split
    · rfl
    · split
      · rfl
      · split
        · rfl
        · split <;> rfl
  · rfl

/-- The built-in operators leave the surface that the user works on. -/
theorem builtIn_steady : builtIn.Steady :=
  fun id o h c s => congrArg Prod.snd (builtIn_leaves_room id o h c s)

/-- The built-in operators leave the layout. -/
theorem builtIn_leaves_layout : builtIn.Leaves Scene.layout :=
  fun id o h c s => congrArg Prod.fst (builtIn_leaves_room id o h c s)

end OperatorTable

namespace Stage

theorem invoke_operators (st : Stage) (i : Invocation) (surface : Surface) :
    (st.invoke i surface).2.operators = st.operators := by
  unfold invoke
  split <;> rfl

section Leaves

variable {α : Type} {read : Scene → α} {st : Stage}

/-- What operators and assignments leave, every command leaves. -/
theorem perform_leaves (leaves : st.operators.Leaves read)
    (assigned : ∀ s key value, read (Scene.setProperty s key value) = read s) (command : Command)
    (surface : Surface) : read (st.perform command surface).2 = read st.scene := by
  unfold perform
  split
  · split
    · rfl
    · rename_i o ho
      split
      · rfl
      · exact leaves _ o ho _ _
  · split
    · rfl
    · exact assigned _ _ _
  · rfl

theorem invoke_leaves (leaves : st.operators.Leaves read)
    (assigned : ∀ s key value, read (Scene.setProperty s key value) = read s) (i : Invocation)
    (surface : Surface) : (st.invoke i surface).2.operators = st.operators ∧
      read (st.invoke i surface).2.scene = read st.scene := by
  have hperform := perform_leaves leaves assigned i.command surface
  refine ⟨st.invoke_operators i surface, ?_⟩
  unfold invoke
  split <;> rename_i hresult <;> rw [hresult] at hperform <;> exact hperform

end Leaves

/-- What every invocation keeps, every script keeps. -/
theorem runLines_keeps {p : Stage → Prop}
    (keeps : ∀ st i surface, p st → p (st.invoke i surface).2) (surface : Surface)
    (lines : List (List Char)) : ∀ (number : Nat) {st : Stage}, p st →
      p (runLines surface number lines st).2 := by
  induction lines with
  | nil => exact fun _ _ h => h
  | cons line rest ih =>
    intro number st h
    unfold runLines
    simp only
    split
    · exact ih _ h
    · have hline := keeps st (.ofText (String.ofList (Text.trim line)) .execute) surface h
      split <;> rename_i hresult <;> rw [hresult] at hline
      · exact hline
      · exact ih _ hline

/-- A stage with some operators, on which the user works on a surface. -/
structure WorksOn (operators : OperatorTable) (surface : Surface) (st : Stage) : Prop where
  operators : st.operators = operators
  ambient : st.scene.ambient = surface

variable {table : OperatorTable}

theorem WorksOn.invoke (steady : table.Steady) {base : Surface} {st : Stage}
    (h : st.WorksOn table base) (i : Invocation) (surface : Surface) :
    (st.invoke i surface).2.WorksOn table base := by
  have hleaves : st.operators.Leaves Scene.ambient := h.operators ▸ steady
  obtain ⟨hoperators, hambient⟩ := invoke_leaves hleaves (fun _ _ _ => rfl) i surface
  exact ⟨hoperators.trans h.operators, hambient.trans h.ambient⟩

/-- **No operation of a stage changes the surface that the user works on**, if no operator does. -/
theorem host_keeps_ambient (steady : table.Steady) (base : Surface) :
    Stage.host.Keeps (WorksOn table base) where
  setLayout _ _ h := ⟨h.operators, h.ambient⟩
  select _ _ _ h := ⟨h.operators, h.ambient⟩
  deselectAll s h :=
    ⟨h.operators, (congrArg Prod.snd (Scene.deselectAll_room s.scene)).trans h.ambient⟩
  setActive _ _ h := ⟨h.operators, h.ambient⟩
  invoke _ i surface h := h.invoke steady i surface
  evaluate _ _ h := h
  runScript s script h :=
    runLines_keeps (p := WorksOn table base) (fun _ i surface h => h.invoke steady i surface)
      s.scene.ambient (Text.lines script.source.toList) 1 h
  redraw _ _ h := ⟨h.operators, h.ambient⟩

end Stage

end Replay
