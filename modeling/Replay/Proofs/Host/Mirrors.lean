import Replay.Proofs.Host.Keeps

/-!
# Hosts whose states look alike

Two states of a host look alike if no operation that a step may use tells them apart: each gives the
same answer in both and leaves states that look alike again. Then no step tells them apart. What a
step is *not* to use is the surface that the user works on; scripts use it, since they run there.

On a stage that surface is stored with the scene, and nothing else on it depends on it.

* `Host.Mirrors` — states that no operation tells apart, the user's surface and scripts aside
* `Host.Mirrors.effect` — no step tells them apart but one that runs a script
* `Stage.seatedAt` — a stage with its user on another surface
* `Stage.host_mirrors_seats` — stages that differ in the user's surface look alike
-/

set_option autoImplicit false

namespace Replay

variable {σ : Type}

/-- Two results are the same, in states that are related. -/
def SameIn {α : Type} (rel : σ → σ → Prop) (a b : α × σ) : Prop := b.1 = a.1 ∧ rel a.2 b.2

theorem SameIn.exists_eq {α : Type} {rel : σ → σ → Prop} {a b : α × σ} (h : SameIn rel a b) :
    ∃ result s t, a = (result, s) ∧ b = (result, t) ∧ rel s t :=
  ⟨a.1, a.2, b.2, rfl, Prod.ext h.1 rfl, h.2⟩

/-- **No operation of a host tells related states apart**, save for the surface that the user works
on and for the running of scripts. -/
structure Host.Mirrors (h : Host σ) (rel : σ → σ → Prop) : Prop where
  layout : ∀ {s t}, rel s t → h.layout t = h.layout s
  setLayout : ∀ {s t} layout, rel s t → rel (h.setLayout s layout) (h.setLayout t layout)
  hasObject : ∀ {s t}, rel s t → h.hasObject t = h.hasObject s
  showsObject : ∀ {s t}, rel s t → h.showsObject t = h.showsObject s
  selected : ∀ {s t}, rel s t → h.selected t = h.selected s
  select : ∀ {s t} name on, rel s t → rel (h.select s name on) (h.select t name on)
  deselectAll : ∀ {s t}, rel s t → rel (h.deselectAll s) (h.deselectAll t)
  active : ∀ {s t}, rel s t → h.active t = h.active s
  setActive : ∀ {s t} name, rel s t → rel (h.setActive s name) (h.setActive t name)
  invoke : ∀ {s t} i surface, rel s t → SameIn rel (h.invoke s i surface) (h.invoke t i surface)
  evaluate : ∀ {s t} condition, rel s t →
    SameIn rel (h.evaluate s condition) (h.evaluate t condition)
  redraw : ∀ {s t} area, rel s t → rel (h.redraw s area) (h.redraw t area)

/-- Whether a step runs a script. -/
def Step.runsScript (step : Step) : Bool :=
  match step.instruction with
  | .ok (.directive (.script _)) => true
  | _ => false

namespace Host.Mirrors

variable {h : Host σ} {rel : σ → σ → Prop} {s t : σ}

theorem selectExisting (m : h.Mirrors rel) (names : List String) (related : rel s t) :
    rel (h.selectExisting names s) (h.selectExisting names t) := by
  unfold Host.selectExisting
  induction names generalizing s t with
  | nil => exact related
  | cons name rest ih =>
    rw [List.foldl_cons, List.foldl_cons, m.hasObject related]
    split
    · exact ih (m.select name true related)
    · exact ih related

theorem selectEach (m : h.Mirrors rel) (names : List String) (on : Bool) (related : rel s t) :
    rel (h.selectEach names on s) (h.selectEach names on t) := by
  unfold Host.selectEach
  induction names generalizing s t with
  | nil => exact related
  | cons name rest ih =>
    rw [List.foldl_cons, List.foldl_cons]
    exact ih (m.select name on related)

theorem makeSelection (m : h.Mirrors rel) (sel : Selection) (related : rel s t) :
    SameIn rel (h.makeSelection sel s) (h.makeSelection sel t) := by
  have hcleared : rel (if sel.keep then s else h.deselectAll s)
      (if sel.keep then t else h.deselectAll t) := by
    split
    · exact related
    · exact m.deselectAll related
  have hlisted := m.selectExisting sel.objects hcleared
  unfold Host.makeSelection
  dsimp only
  generalize h.selectExisting sel.objects (if sel.keep then s else h.deselectAll s) = listed,
    h.selectExisting sel.objects (if sel.keep then t else h.deselectAll t) = listed' at hlisted
  cases sel.main? with
  | none => exact ⟨rfl, hlisted⟩
  | some name =>
    simp only [m.showsObject hlisted]
    split
    · exact ⟨rfl, m.select _ _ (m.setActive _ hlisted)⟩
    · exact ⟨rfl, hlisted⟩

theorem invokeForEach (m : h.Mirrors rel) (i : Invocation) (surface : Surface)
    (names : List String) (related : rel s t) :
    SameIn rel (h.invokeForEach i surface names s) (h.invokeForEach i surface names t) := by
  induction names generalizing s t with
  | nil => exact ⟨rfl, related⟩
  | cons name rest ih =>
    obtain ⟨result, s', t', hs, ht, hstates⟩ :=
      (m.invoke i surface (m.setActive (some name) (m.select name true related))).exists_eq
    simp only [Host.invokeForEach, hs, ht]
    cases result with
    | ok _ => exact ih (m.select name false hstates)
    | error report => exact ⟨rfl, m.select name false hstates⟩

theorem invokeIndividually (m : h.Mirrors rel) (i : Invocation) (surface : Surface)
    (related : rel s t) :
    SameIn rel (h.invokeIndividually i surface s) (h.invokeIndividually i surface t) := by
  obtain ⟨hresult, hafter⟩ := m.invokeForEach i surface (h.selected s)
    (m.selectEach (h.selected s) false related)
  have hrestored := m.selectEach (h.selected s) true hafter
  simp only [Host.invokeIndividually, m.selected related, m.active related]
  refine ⟨hresult, ?_⟩
  rw [m.hasObject hrestored]
  exact m.setActive _ hrestored

theorem invokeGrouped (m : h.Mirrors rel) (grouping : Grouping) (i : Invocation)
    (surface : Surface) (related : rel s t) :
    SameIn rel (h.invokeGrouped grouping i surface s) (h.invokeGrouped grouping i surface t) := by
  cases grouping with
  | group => exact m.invoke i surface related
  | individual => exact m.invokeIndividually i surface related

theorem occupy (m : h.Mirrors rel) (during : Layout) (target : Target) (related : rel s t) :
    rel (h.occupy during target s) (h.occupy during target t) := by
  unfold Host.occupy
  split
  · exact m.setLayout during related
  · exact related

theorem vacate (m : h.Mirrors rel) (target : Target) (related : rel s t) :
    rel (h.vacate target s) (h.vacate target t) := by
  unfold Host.vacate
  split
  · rw [m.layout related]
    exact m.setLayout _ related
  · exact related

theorem redrawAt (m : h.Mirrors rel) (surface : Surface) (related : rel s t) :
    rel (h.redrawAt surface s) (h.redrawAt surface t) := by
  unfold Host.redrawAt
  split
  · exact m.redraw _ related
  · exact related

theorem playCommand (m : h.Mirrors rel) (grouping : Grouping) (base : Surface) (step : Step)
    (c : Command) (related : rel s t) :
    SameIn rel (h.playCommand grouping base step c s) (h.playCommand grouping base step c t) := by
  unfold Host.playCommand
  split
  · exact ⟨rfl, related⟩
  · rw [m.layout related]
    obtain ⟨during, target⟩ := (h.layout s).aim base step.requiredType?
    obtain ⟨result, s', t', hs, ht, hstates⟩ := (m.invokeGrouped grouping
      ⟨c, step.callMode, String.ofList (Text.trim step.text.toList)⟩ target.surface
      (m.occupy during target related)).exists_eq
    simp only [hs, ht]
    cases result with
    | ok _ => exact ⟨rfl, m.redrawAt _ (m.vacate target hstates)⟩
    | error report => exact ⟨rfl, m.vacate target hstates⟩

/-- **No step tells related states apart but one that runs a script.** -/
theorem effect (m : h.Mirrors rel) {g : Grouping} {base : Surface} {step : Step}
    {f : σ → Except PlayError Unit × σ} (hf : step.effect? h g base = some f)
    (scriptless : step.runsScript = false) (related : rel s t) : SameIn rel (f s) (f t) := by
  unfold Step.effect? at hf
  unfold Step.runsScript at scriptless
  split at hf
  · cases hf; exact ⟨rfl, related⟩
  · cases hf; exact m.makeSelection _ related
  · rename_i hreads
    simp [hreads] at scriptless
  · cases hf; exact m.playCommand _ _ _ _ related
  · cases hf

end Host.Mirrors

/-! ## The user's seat -/

namespace Scene

/-- The scene with its user on another surface. -/
def seatedAt (s : Scene) (base : Surface) : Scene := { s with ambient := base }

theorem objects_seatedAt (s : Scene) (base : Surface) : (s.seatedAt base).objects = s.objects := rfl

theorem properties_seatedAt (s : Scene) (base : Surface) :
    (s.seatedAt base).properties = s.properties := rfl

theorem deselectAll_seatedAt (s : Scene) (base : Surface) :
    (s.seatedAt base).deselectAll = s.deselectAll.seatedAt base := by
  show s.selected.foldl (fun s name => s.select name false) (s.seatedAt base) = _
  unfold deselectAll
  generalize s.selected = names
  induction names generalizing s with
  | nil => rfl
  | cons name rest ih =>
    rw [List.foldl_cons, List.foldl_cons]
    exact ih (s.select name false)

theorem addObject_seatedAt (s : Scene) (name : String) (base : Surface) :
    (s.seatedAt base).addObject name = (s.addObject name).seatedAt base := by
  unfold addObject
  show (if s.hasObject name then _ else _) = _
  split <;> rfl

theorem operand_seatedAt (s : Scene) (base : Surface) :
    Operand.of (s.seatedAt base) = Operand.of s := by
  funext written
  unfold Operand.of
  rfl

theorem satisfies_seatedAt (s : Scene) (base : Surface) (condition : String) :
    (s.seatedAt base).satisfies condition = s.satisfies condition := by
  simp only [satisfies, operand_seatedAt]

/-- Two scenes differ in nothing but the surface that their users work on; the second user's is
`base`. -/
def Reseated (base : Surface) (s t : Scene) : Prop := t = s.seatedAt base

end Scene

/-- What an operator does to a scene does not depend on the surface that the user works on. -/
def Operator.Unseeing (run : Call → Scene → Except SceneError Unit × Scene) : Prop :=
  ∀ c s base, SameIn (Scene.Reseated base) (run c s) (run c (s.seatedAt base))

namespace Operator

theorem addObject_unseeing : Unseeing addObject := by
  intro c s base
  unfold addObject
  cases textArgument c "name" with
  | error e => exact ⟨rfl, rfl⟩
  | ok name =>
    show SameIn _ (if s.hasObject name then _ else _) (if s.hasObject name then _ else _)
    split
    · exact ⟨rfl, rfl⟩
    · refine ⟨rfl, ?_⟩
      have hadded := Scene.addObject_seatedAt
        { s with objects := s.objects.map fun o => { o with selected := false } } name base
      exact congrArg (fun t : Scene => { t.select name true with active := some name }) hadded

theorem deleteObjects_unseeing : Unseeing deleteObjects := by
  intro c s base
  refine ⟨rfl, ?_⟩
  let kept : Scene := { s with objects := s.objects.filter fun o => !o.selected }
  show (if kept.active.any fun name => !kept.hasObject name then _ else _) =
    Scene.seatedAt (if kept.active.any fun name => !kept.hasObject name then _ else _) base
  split <;> rfl

theorem selectAll_unseeing : Unseeing selectAll := by
  intro c s base
  simp only [selectAll, Scene.objects_seatedAt]
  split <;> exact ⟨rfl, rfl⟩

theorem tagSelected_unseeing : Unseeing tagSelected := by
  intro c s base
  unfold tagSelected
  cases textArgument c "tag" with
  | error e => exact ⟨rfl, rfl⟩
  | ok tag =>
    show SameIn _ (if s.objects.any fun o => o.selected then _ else _)
      (if s.objects.any fun o => o.selected then _ else _)
    split <;> exact ⟨rfl, rfl⟩

theorem increment_unseeing : Unseeing increment := by
  intro c s base
  unfold increment
  cases textArgument c "key" with
  | error e => exact ⟨rfl, rfl⟩
  | ok key =>
    cases amount c with
    | error e => exact ⟨rfl, rfl⟩
    | ok step =>
      simp only [Scene.properties_seatedAt]
      split
      · exact ⟨rfl, rfl⟩
      · split <;> exact ⟨rfl, rfl⟩

end Operator

namespace OperatorTable

/-- What the operators of a table do does not depend on the surface that the user works on. -/
def Unseeing (t : OperatorTable) : Prop := ∀ id o, t.get? id = some o → Operator.Unseeing o.run

/-- **No built-in operator looks at the surface that the user works on.** -/
theorem builtIn_unseeing : builtIn.Unseeing := by
  intro id o h
  have hmem := mem_entries_of_get? h
  simp only [builtIn, List.mem_cons, Prod.mk.injEq, List.not_mem_nil, or_false] at hmem
  rcases hmem with ⟨-, rfl⟩ | ⟨-, rfl⟩ | ⟨-, rfl⟩ | ⟨-, rfl⟩ | ⟨-, rfl⟩ | ⟨-, rfl⟩
  · exact Operator.addObject_unseeing
  · exact Operator.deleteObjects_unseeing
  · exact Operator.selectAll_unseeing
  · exact Operator.tagSelected_unseeing
  · exact Operator.increment_unseeing
  · exact fun _ _ _ => ⟨rfl, rfl⟩

end OperatorTable

namespace Stage

/-- The stage with its user on another surface. -/
def seatedAt (st : Stage) (base : Surface) : Stage := st.onScene fun s => s.seatedAt base

/-- Two stages with the same operators differ in nothing but the surface that their users work on;
the second user's is `base`. -/
structure Reseated (table : OperatorTable) (base : Surface) (st st' : Stage) : Prop where
  operators : st.operators = table
  seated : st' = st.seatedAt base

variable {st : Stage} {table : OperatorTable}

theorem perform_seatedAt (unseeing : st.operators.Unseeing) (command : Command)
    (base surface : Surface) : SameIn (Scene.Reseated base) (st.perform command surface)
      ((st.seatedAt base).perform command surface) := by
  cases command with
  | call c =>
    have hoperators : (st.seatedAt base).operators = st.operators := rfl
    simp only [perform, hoperators]
    cases ho : st.operators.get? c.id with
    | none => exact ⟨rfl, rfl⟩
    | some o =>
      show SameIn _ (if o.area.isSome ∧ st.scene.layout.typeAt? surface ≠ o.area then _ else _)
        (if o.area.isSome ∧ st.scene.layout.typeAt? surface ≠ o.area then _ else _)
      split
      · exact ⟨rfl, rfl⟩
      · exact unseeing _ o ho c st.scene base
  | assign path value =>
    unfold perform
    dsimp only
    split <;> exact ⟨rfl, rfl⟩
  | expression text => exact ⟨rfl, rfl⟩

/-- A command does the same wherever the user is, and enters the same in the journal. -/
theorem invoke_seatedAt (unseeing : st.operators.Unseeing) (i : Invocation)
    (base surface : Surface) : SameIn (fun st st' => st' = st.seatedAt base)
      (st.invoke i surface) ((st.seatedAt base).invoke i surface) := by
  obtain ⟨result, scene, scene', hscene, hscene', hseated⟩ :=
    (perform_seatedAt unseeing i.command base surface).exists_eq
  obtain rfl : scene' = scene.seatedAt base := hseated
  unfold invoke
  rw [hscene, hscene']
  cases result with
  | ok _ => exact ⟨rfl, rfl⟩
  | error e => exact ⟨rfl, rfl⟩

theorem Reseated.invoke (unseeing : table.Unseeing) {base : Surface} {st st' : Stage}
    (h : st.Reseated table base st') (i : Invocation) (surface : Surface) :
    SameIn (Reseated table base) (worded (st.invoke i surface))
      (worded (st'.invoke i surface)) := by
  obtain ⟨rfl, rfl⟩ := h
  obtain ⟨result, st₁, st₁', hrun, hrun', hseated⟩ :=
    (invoke_seatedAt unseeing i base surface).exists_eq
  have hoperators : (st.invoke i surface).2.operators = st.operators :=
    invoke_operators st i surface
  rw [hrun] at hoperators
  rw [hrun, hrun']
  exact ⟨rfl, hoperators, hseated⟩

/-- **No operation of a stage tells where its user is**, if no operator does, save for the running
of scripts. -/
theorem host_mirrors_seats (unseeing : table.Unseeing) (base : Surface) :
    Stage.host.Mirrors (Reseated table base) where
  layout h := by rw [h.seated]; rfl
  setLayout _ h := ⟨h.operators, by rw [h.seated]; rfl⟩
  hasObject h := by rw [h.seated]; rfl
  showsObject h := by rw [h.seated]; rfl
  selected h := by rw [h.seated]; rfl
  select _ _ h := ⟨h.operators, by rw [h.seated]; rfl⟩
  deselectAll {s t} h := ⟨h.operators, by
    rw [h.seated]
    exact congrArg (fun scene => { s with scene := scene }) (s.scene.deselectAll_seatedAt base)⟩
  active h := by rw [h.seated]; rfl
  setActive _ h := ⟨h.operators, by rw [h.seated]; rfl⟩
  invoke i surface h := h.invoke unseeing i surface
  evaluate {s t} condition h := by
    obtain ⟨hoperators, rfl⟩ := h
    have hholds := s.scene.satisfies_seatedAt base condition
    exact ⟨congrArg (Except.mapError SceneError.message) hholds, hoperators, rfl⟩
  redraw _ h := ⟨h.operators, by rw [h.seated]; rfl⟩

end Stage

end Replay
