import Replay.Proofs.Host.Layouts
import Replay.Proofs.Scene.Alterations

/-!
# The invocations of a step

A step invokes nothing, one command, the lines of a script one after the other, or one command for
each selected object. Which invocations these are, on which stages, is what a step comes down to:
the journal grows by an entry for each that succeeds, and what every invocation keeps under the
conditions that it meets, the step keeps.

* `Step.invoked` — the invocations of a step, in order
* `Step.journal_effect` — they account for all that the step enters in the journal
* `Stage.Ready` — what lets a command be run for one object after the other
* `Stage.Coherent.invoked`, `Stage.Coherent.effect` — no invocation of a step leaves a scene
  incoherent, and no step does
-/

set_option autoImplicit false

namespace Replay

/-! ## Invocations -/

namespace Stage

/-- An invocation: the stage right before it, and what is run where. -/
structure Invoked where
  before : Stage
  invocation : Invocation
  surface : Surface

namespace Invoked

def result (v : Invoked) : Except SceneError Unit := (v.before.invoke v.invocation v.surface).1

/-- The stage right after the invocation. -/
def after (v : Invoked) : Stage := (v.before.invoke v.invocation v.surface).2

/-- The journal's entry for the invocation, if it succeeds. -/
def entry? (v : Invoked) : Option JournalEntry :=
  match v.result with
  | .ok () => some (entryFor v.after.scene v.invocation v.surface)
  | .error _ => none

variable {v : Invoked}

theorem invoke_eq : v.before.invoke v.invocation v.surface = (v.result, v.after) := rfl

theorem after_journal : v.after.journal = v.before.journal ++ v.entry?.toList := by
  unfold entry? result after invoke
  cases hrun : v.before.perform v.invocation.command v.surface with
  | mk result scene => cases result <;> simp

@[simp] theorem after_operators : v.after.operators = v.before.operators :=
  invoke_operators v.before v.invocation v.surface

/-- The entries for invocations, that for the first one in front. -/
theorem entries_cons (v : Invoked) (runs : List Invoked) :
    (v :: runs).filterMap entry? = v.entry?.toList ++ runs.filterMap entry? := by
  cases hentry : v.entry? <;> simp [hentry]

theorem after_scene :
    v.after.scene = (v.before.perform v.invocation.command v.surface).2 := by
  unfold after invoke
  split <;> rename_i hrun <;> rw [hrun]

theorem alters (builtIn : v.before.operators = .builtIn) :
    v.invocation.command.Alters v.before.scene v.after.scene := by
  rw [after_scene]
  exact perform_alters builtIn v.surface

end Invoked

/-- The stage with one object selected and active. -/
def focus (st : Stage) (name : String) : Stage :=
  host.setActive (host.select st name true) (some name)

/-- The invocations of a command for one object after the other. -/
def invokedEach (i : Invocation) (surface : Surface) : List String → Stage → List Invoked
  | [], _ => []
  | name :: rest, st =>
    let v : Invoked := ⟨st.focus name, i, surface⟩
    match v.result with
    | .ok () => v :: invokedEach i surface rest (host.select v.after name false)
    | .error _ => [v]

/-- The invocations of the lines of a script. -/
def invokedLines (surface : Surface) : List (List Char) → Stage → List Invoked
  | [], _ => []
  | line :: rest, st =>
    let text := Text.trim line
    if text = [] ∨ text.head? = some '#' then invokedLines surface rest st
    else
      let v : Invoked := ⟨st, .ofText (String.ofList text) .execute, surface⟩
      match v.result with
      | .ok () => v :: invokedLines surface rest v.after
      | .error _ => [v]

/-- The invocations of a command in the way that an action treats its objects. -/
def invokedGrouped (grouping : Grouping) (i : Invocation) (surface : Surface) (st : Stage) :
    List Invoked :=
  match grouping with
  | .group => [⟨st, i, surface⟩]
  | .individual =>
    invokedEach i surface st.scene.selected (host.selectEach st.scene.selected false st)

end Stage

open Stage

/-- **The invocations of a step**, in order: the last one may have failed. -/
def Step.invoked (step : Step) (g : Grouping) (base : Surface) (st : Stage) : List Invoked :=
  match step.instruction with
  | .ok (.directive (.script source)) =>
    invokedLines st.scene.ambient (Text.lines source.toList) st
  | .ok (.plain c) =>
    if Host.playsItself c then []
    else
      let (during, target) := st.scene.layout.aim base step.requiredType?
      invokedGrouped g ⟨c, step.callMode, String.ofList (Text.trim step.text.toList)⟩
        target.surface (host.occupy during target st)
  | _ => []

/-! ## One object after the other -/

namespace Stage

/-- A command is run for one object after the other: its invocations, how this ends, and the stage
that is left. -/
inductive Iterates (i : Invocation) (surface : Surface) :
    List String → Stage → List Invoked → Except SceneError Unit → Stage → Prop
  | nothing {st} : Iterates i surface [] st [] (.ok ()) st
  | next {name rest st v runs result st'} (focused : v = ⟨st.focus name, i, surface⟩)
      (done : v.result = .ok ())
      (later : Iterates i surface rest (host.select v.after name false) runs result st') :
      Iterates i surface (name :: rest) st (v :: runs) result st'
  | stop {name rest st v e} (focused : v = ⟨st.focus name, i, surface⟩)
      (failed : v.result = .error e) :
      Iterates i surface (name :: rest) st [v] (.error e) (host.select v.after name false)

theorem iterates (i : Invocation) (surface : Surface) : ∀ (names : List String) (st : Stage),
    ∃ result, Iterates i surface names st (invokedEach i surface names st) result
        (host.invokeForEach i surface names st).2 ∧
      (host.invokeForEach i surface names st).1 = result.mapError SceneError.message
  | [], _ => ⟨_, .nothing, rfl⟩
  | name :: rest, st => by
    have hinvoke : host.invoke (host.setActive (host.select st name true) (some name)) i surface =
      (Except.mapError SceneError.message (Invoked.mk (st.focus name) i surface).result,
        (Invoked.mk (st.focus name) i surface).after) := rfl
    rw [Host.invokeForEach, hinvoke, invokedEach]
    cases hresult : (Invoked.mk (st.focus name) i surface).result with
    | ok _ =>
      obtain ⟨result, hiterates, hreport⟩ := iterates i surface rest
        (host.select (Invoked.mk (st.focus name) i surface).after name false)
      exact ⟨result, .next rfl hresult hiterates, hreport⟩
    | error e => exact ⟨.error e, .stop rfl hresult, rfl⟩

/-! ## What invocations enter in the journal -/

/-- The stage has some operators, and a journal. -/
def Records (operators : OperatorTable) (journal : List JournalEntry) (st : Stage) : Prop :=
  st.operators = operators ∧ st.journal = journal

end Stage

/-- The host, on which nothing is run. -/
def Host.idle {σ : Type} (h : Host σ) : Host σ :=
  { h with invoke := fun s _ _ => (.ok (), s), runScript := fun s _ => (.ok (), s) }

namespace Stage

/-- Only what is run changes the journal. -/
theorem host_idle_keeps (operators : OperatorTable) (journal : List JournalEntry) :
    host.idle.Keeps (Records operators journal) := by
  constructor <;> intros <;> assumption

variable {st st' : Stage} {i : Invocation} {surface : Surface} {names : List String}
  {runs : List Invoked} {result : Except SceneError Unit}

theorem Iterates.records (h : Iterates i surface names st runs result st') :
    st'.Records st.operators (st.journal ++ runs.filterMap Invoked.entry?) := by
  induction h with
  | nothing => exact ⟨rfl, (List.append_nil _).symm⟩
  | @next name rest st v runs result st' focused done later ih =>
    obtain ⟨hoperators, hjournal⟩ := ih
    have hbefore : v.before = st.focus name := by rw [focused]
    refine ⟨hoperators.trans (v.after_operators.trans (by rw [hbefore]; rfl)), hjournal.trans ?_⟩
    show v.after.journal ++ runs.filterMap Invoked.entry? = _
    rw [v.after_journal, hbefore, v.entries_cons, List.append_assoc]
    rfl
  | @stop name rest st v e focused failed =>
    have hbefore : v.before = st.focus name := by rw [focused]
    refine ⟨v.after_operators.trans (by rw [hbefore]; rfl), ?_⟩
    show v.after.journal = _
    rw [v.after_journal, hbefore, v.entries_cons, List.filterMap_nil, List.append_nil]
    rfl

theorem runLines_records (surface : Surface) : ∀ (lines : List (List Char)) (number : Nat)
    (st : Stage), (runLines surface number lines st).2.Records st.operators
      (st.journal ++ (invokedLines surface lines st).filterMap Invoked.entry?)
  | [], _, _ => ⟨rfl, (List.append_nil _).symm⟩
  | line :: rest, number, st => by
    unfold runLines invokedLines
    simp only
    split
    · exact runLines_records surface rest _ st
    · generalize Invocation.ofText (String.ofList (Text.trim line)) .execute = i
      have hinvoke : st.invoke i surface = (_, _) := (Invoked.mk st i surface).invoke_eq
      have hbefore : (Invoked.mk st i surface).before = st := rfl
      generalize Invoked.mk st i surface = v at hinvoke hbefore ⊢
      rw [hinvoke]
      have hjournal := v.after_journal
      have hoperators := v.after_operators
      rw [hbefore] at hjournal hoperators
      cases hresult : v.result with
      | ok _ =>
        obtain ⟨hoperators', hjournal'⟩ := runLines_records surface rest (number + 1) v.after
        refine ⟨hoperators'.trans hoperators, hjournal'.trans ?_⟩
        rw [hjournal, v.entries_cons, List.append_assoc]
      | error e =>
        refine ⟨hoperators, hjournal.trans ?_⟩
        rw [v.entries_cons, List.filterMap_nil, List.append_nil]

theorem invokeGrouped_records (grouping : Grouping) (i : Invocation) (surface : Surface)
    (st : Stage) : (host.invokeGrouped grouping i surface st).2.Records st.operators
      (st.journal ++ (invokedGrouped grouping i surface st).filterMap Invoked.entry?) := by
  cases grouping with
  | group =>
    let v : Invoked := ⟨st, i, surface⟩
    refine ⟨v.after_operators, v.after_journal.trans ?_⟩
    show st.journal ++ v.entry?.toList = st.journal ++ [v].filterMap Invoked.entry?
    rw [v.entries_cons, List.filterMap_nil, List.append_nil]
  | individual =>
    obtain ⟨_, hiterates, -⟩ := iterates i surface st.scene.selected
      (host.selectEach st.scene.selected false st)
    have hidle := host_idle_keeps st.operators
    obtain ⟨hoperators, hjournal⟩ :=
      (hidle st.journal).selectEach st.scene.selected false (s := st) ⟨rfl, rfl⟩
    have hrecords := hiterates.records
    have hcleared : (host.selectEach st.scene.selected false st).operators = st.operators :=
      hoperators
    have hcleared' : (host.selectEach st.scene.selected false st).journal = st.journal := hjournal
    rw [hcleared, hcleared'] at hrecords
    exact (hidle _).setActive _ _ ((hidle _).selectEach st.scene.selected true hrecords)

/-- A script leaves the stage that its lines leave. -/
theorem playScript_stage (stepId source : String) (st : Stage) :
    (host.playScript stepId source st).2 =
      (runLines st.scene.ambient 1 (Text.lines source.toList) st).2 := by
  have hrun : (host.runScript st ⟨stepId, source⟩).2 =
    (runLines st.scene.ambient 1 (Text.lines source.toList) st).2 := rfl
  unfold Host.playScript
  dsimp only
  split <;> rename_i hresult <;> rw [hresult] at hrun <;> exact hrun

theorem effect_records {step : Step} {g : Grouping} {base : Surface}
    {f : Stage → Except PlayError Unit × Stage} (hf : step.effect? host g base = some f)
    (st : Stage) : (f st).2.Records st.operators
      (st.journal ++ (step.invoked g base st).filterMap Invoked.entry?) := by
  have hidle := host_idle_keeps st.operators
  have hsame : st.Records st.operators (st.journal ++ [].filterMap Invoked.entry?) :=
    ⟨rfl, (List.append_nil _).symm⟩
  unfold Step.effect? at hf
  unfold Step.invoked
  split at hf
  · rename_i hreads
    cases hf
    rw [hreads]
    exact hsame
  · rename_i selection hreads
    cases hf
    rw [hreads]
    exact (hidle _).makeSelection selection hsame
  · rename_i source hreads
    cases hf
    rw [hreads]
    rw [playScript_stage]
    exact runLines_records st.scene.ambient (Text.lines source.toList) 1 st
  · rename_i c hreads
    cases hf
    rw [hreads]
    unfold Host.playCommand
    simp only
    split
    · exact hsame
    · have haim : host.layout st = st.scene.layout := rfl
      rw [haim]
      generalize st.scene.layout.aim base step.requiredType? = aimed
      obtain ⟨during, target⟩ := aimed
      generalize Invocation.mk c step.callMode _ = i
      obtain ⟨hoperators, hjournal⟩ :=
        (hidle st.journal).occupy during target (s := st) ⟨rfl, rfl⟩
      have hrecords := invokeGrouped_records g i target.surface (host.occupy during target st)
      have hoccupied : (host.occupy during target st).operators = st.operators := hoperators
      have hoccupied' : (host.occupy during target st).journal = st.journal := hjournal
      rw [hoccupied, hoccupied'] at hrecords
      dsimp only
      split <;> rename_i hresult <;> rw [hresult] at hrecords
      · exact (hidle _).redrawAt _ ((hidle _).vacate target hrecords)
      · exact (hidle _).vacate target hrecords
  · cases hf

end Stage

/-- **The invocations of a step account for all that it enters in the journal.** -/
theorem Step.journal_effect {step : Step} {g : Grouping} {base : Surface}
    {f : Stage → Except PlayError Unit × Stage} (hf : step.effect? Stage.host g base = some f)
    (st : Stage) : (f st).2.journal =
      st.journal ++ (step.invoked g base st).filterMap Invoked.entry? :=
  (effect_records hf st).2

namespace Stage

/-! ## Objects that are taken in turn -/

section Ready

variable {st st' : Stage} {c : Command} {i : Invocation} {surface : Surface} {name other : String}
  {rest names : List String} {v : Invoked} {runs : List Invoked} {result : Except SceneError Unit}

/-- A stage with objects selected or not. -/
theorem selectEach_scene (names : List String) (on : Bool) (st : Stage) :
    host.selectEach names on st = st.onScene fun s => s.selectEach names on := by
  unfold Host.selectEach Scene.selectEach
  induction names generalizing st with
  | nil => rfl
  | cons name rest ih => exact ih (st.onScene fun s => s.select name on)

/-- Nothing is selected after all that was selected has been deselected. -/
theorem selectEach_clears (distinct : st.scene.names.Nodup) :
    (host.selectEach st.scene.selected false st).scene.selected = [] := by
  rw [selectEach_scene]
  exact Scene.selectEach_clears distinct

theorem focus_names (st : Stage) (name : String) :
    (st.focus name).scene.names = st.scene.names := Scene.select_names st.scene name true

theorem mem_selected_focus (distinct : st.scene.names.Nodup) (there : name ∈ st.scene.names) :
    other ∈ (st.focus name).scene.selected ↔ other = name ∨ other ∈ st.scene.selected := by
  refine (Scene.mem_selected_select distinct).trans ?_
  by_cases heq : other = name <;> simp [heq, there]

/-- **What lets a command be run for one object after the other**: each of them is there, and is not
touched before its turn by a command that deletes. -/
structure Ready (c : Command) (names : List String) (st : Stage) : Prop where
  operators : st.operators = .builtIn
  distinct : st.scene.names.Nodup
  each : names.Nodup
  there : ∀ name ∈ names, name ∈ st.scene.names
  untouched : c.deletes = true → ∀ name ∈ names, name ∉ st.scene.selected

namespace Ready

/-- The object whose turn it is, is there when it is made the active one. -/
theorem focus_coherent (h : Ready c (name :: rest) st) : (st.focus name).scene.Coherent := by
  refine ⟨focus_names st name ▸ h.distinct, fun other hactive => ?_⟩
  obtain rfl : name = other := Option.some.inj hactive
  rw [focus_names]
  exact h.there _ List.mem_cons_self

/-- What the command does when it is an object's turn. -/
theorem alters (h : Ready i.command (name :: rest) st)
    (focused : v = ⟨st.focus name, i, surface⟩) :
    i.command.Alters (st.focus name).scene v.after.scene := by
  subst focused
  exact Invoked.alters (v := ⟨st.focus name, i, surface⟩) h.operators

/-- **After the turn of an object, the others can have theirs.** -/
theorem next (h : Ready i.command (name :: rest) st)
    (focused : v = ⟨st.focus name, i, surface⟩) :
    Ready i.command rest (host.select v.after name false) := by
  have halters := h.alters focused
  have hnames := focus_names st name
  have hthere := h.there name List.mem_cons_self
  obtain ⟨hfresh, heach⟩ := List.nodup_cons.mp h.each
  have hdistinct : v.after.scene.names.Nodup := halters.distinct (hnames ▸ h.distinct)
  have hselect : (host.select v.after name false).scene.names = v.after.scene.names :=
    Scene.select_names _ _ _
  refine ⟨?_, hselect ▸ hdistinct, heach, fun other hother => ?_, fun deletes other _ hselected => ?_⟩
  · subst focused
    exact Invoked.after_operators.trans h.operators
  · rw [hselect]
    have hbefore : other ∈ (st.focus name).scene.names :=
      hnames ▸ h.there other (List.mem_cons_of_mem _ hother)
    cases hdeletes : i.command.deletes with
    | false => exact halters.keeps hdeletes hbefore
    | true =>
      refine (halters.deleted hdeletes).2 other hbefore fun hselected => ?_
      rcases (mem_selected_focus h.distinct hthere).mp hselected with rfl | hselected
      · exact hfresh hother
      · exact h.untouched hdeletes other (List.mem_cons_of_mem _ hother) hselected
  · have hgone : v.after.scene.selected = [] := (halters.deleted deletes).1
    rcases (Scene.mem_selected_select hdistinct).mp hselected with ⟨-, hon, -⟩ | ⟨-, hselected⟩
    · cases hon
    · rw [hgone] at hselected
      cases hselected

/-- At first the selected objects are there, and none of them is selected any more. -/
theorem selected (c : Command) (operators : st.operators = .builtIn)
    (distinct : st.scene.names.Nodup) :
    Ready c st.scene.selected (host.selectEach st.scene.selected false st) := by
  have hclear := selectEach_clears distinct
  rw [selectEach_scene] at hclear ⊢
  have hnames : (st.scene.selectEach st.scene.selected false).names = st.scene.names :=
    Scene.selectEach_names _ _ _
  refine ⟨operators, hnames ▸ distinct, Scene.selected_sublist.nodup distinct, fun name hname => ?_,
    fun _ name _ hselected => ?_⟩
  · exact hnames ▸ Scene.mem_names_of_selected hname
  · rw [hclear] at hselected
    cases hselected

end Ready

/-- No invocation for one object after the other leaves a scene incoherent. -/
theorem Iterates.coherent (h : Iterates i surface names st runs result st')
    (ready : Ready i.command names st) :
    (∀ v ∈ runs, v.after.scene.Coherent) ∧ st'.scene.names.Nodup := by
  induction h with
  | nothing => exact ⟨List.forall_mem_nil _, ready.distinct⟩
  | next focused _ _ ih =>
    obtain ⟨hruns, hdistinct⟩ := ih (ready.next focused)
    have hafter := (ready.alters focused).coherent ready.focus_coherent
    exact ⟨List.forall_mem_cons.mpr ⟨hafter, hruns⟩, hdistinct⟩
  | stop focused _ =>
    have hafter := (ready.alters focused).coherent ready.focus_coherent
    exact ⟨List.forall_mem_singleton.mpr hafter, (ready.next focused).distinct⟩

end Ready

/-! ## Coherent stages -/

/-- A stage with the built-in operators, in whose scene names tell objects apart, and the active
object is there. -/
structure Coherent (st : Stage) : Prop where
  operators : st.operators = .builtIn
  scene : st.scene.Coherent

namespace Coherent

variable {st st' : Stage} {i : Invocation} {surface : Surface}

theorem of_same (h : st.Coherent) (operators : st'.operators = st.operators)
    (names : st'.scene.names = st.scene.names) (active : st'.scene.active = st.scene.active) :
    st'.Coherent :=
  ⟨operators.trans h.operators, h.scene.of_same names active⟩

/-- **An invocation leaves a coherent stage coherent.** -/
theorem invoke (h : st.Coherent) (i : Invocation) (surface : Surface) :
    (st.invoke i surface).2.Coherent := by
  let v : Invoked := ⟨st, i, surface⟩
  exact ⟨v.after_operators.trans h.operators, (v.alters h.operators).coherent h.scene⟩

theorem selectEach (h : st.Coherent) (names : List String) (on : Bool) :
    (host.selectEach names on st).Coherent := by
  rw [selectEach_scene]
  exact ⟨h.operators, h.scene.selectEach names on⟩

/-- Whatever was active, an object that is there can be made the active one. -/
theorem setActive (operators : st.operators = .builtIn) (distinct : st.scene.names.Nodup)
    {active : Option String} (there : ∀ name, active = some name → name ∈ st.scene.names) :
    (host.setActive st active).Coherent :=
  ⟨operators, distinct, there⟩

theorem makeSelection (h : st.Coherent) (sel : Selection) :
    (host.makeSelection sel st).2.Coherent := by
  have hcleared : (if sel.keep then st else host.deselectAll st).Coherent := by
    split
    · exact h
    · exact ⟨h.operators, h.scene.selectEach st.scene.selected false⟩
  unfold Host.makeSelection
  dsimp only
  generalize (if sel.keep then st else host.deselectAll st) = cleared at hcleared
  have hlisted : (host.selectExisting sel.objects cleared).Coherent := by
    unfold Host.selectExisting
    induction sel.objects generalizing cleared with
    | nil => exact hcleared
    | cons name rest ih =>
      rw [List.foldl_cons]
      refine ih _ ?_
      split
      · exact hcleared.selectEach [name] true
      · exact hcleared
  split
  · exact hlisted
  · rename_i name _
    split
    · rename_i hshown
      let listed := host.selectExisting sel.objects cleared
      have hactive : (host.setActive listed (some name)).Coherent :=
        setActive hlisted.operators hlisted.scene.distinct fun other hother => by
          cases hother
          exact Scene.mem_names_of_showsObject hshown
      exact hactive.selectEach [name] true
    · exact hlisted

theorem occupy (h : st.Coherent) (during : Layout) (t : Target) :
    (host.occupy during t st).Coherent := by
  unfold Host.occupy
  split
  · exact h.of_same rfl rfl rfl
  · exact h

theorem vacate (h : st.Coherent) (t : Target) : (host.vacate t st).Coherent := by
  unfold Host.vacate
  split
  · exact h.of_same rfl rfl rfl
  · exact h

theorem redrawAt (h : st.Coherent) (surface : Surface) : (host.redrawAt surface st).Coherent := by
  unfold Host.redrawAt
  split
  · exact h.of_same rfl rfl rfl
  · exact h

/-- **A command leaves a coherent stage coherent**, also if it is run for one object after the other:
the object that was active is made active again only if it is still there. -/
theorem invokeGrouped (h : st.Coherent) (grouping : Grouping) (i : Invocation)
    (surface : Surface) : (host.invokeGrouped grouping i surface st).2.Coherent := by
  cases grouping with
  | group => exact h.invoke i surface
  | individual =>
    obtain ⟨_, hiterates, -⟩ := iterates i surface st.scene.selected
      (host.selectEach st.scene.selected false st)
    obtain ⟨-, hdistinct⟩ := hiterates.coherent (.selected _ h.operators h.scene.distinct)
    let after := (host.invokeForEach i surface st.scene.selected
      (host.selectEach st.scene.selected false st)).2
    have hoperators : after.operators = .builtIn := by
      refine hiterates.records.1.trans ?_
      rw [selectEach_scene]
      exact h.operators
    have hrestored := selectEach_scene st.scene.selected true after
    show (host.setActive (host.selectEach st.scene.selected true after) _).Coherent
    refine setActive ?_ ?_ fun name hname => ?_
    · rw [hrestored]
      exact hoperators
    · rw [hrestored]
      exact Scene.selectEach_names st.scene.selected true after.scene ▸ hdistinct
    · exact Scene.hasObject_iff.mp (Option.filter_eq_some_iff.mp hname).2

/-- Each invocation of a command leaves a coherent scene. -/
theorem invokedGrouped (h : st.Coherent) (grouping : Grouping) (i : Invocation)
    (surface : Surface) : ∀ v ∈ invokedGrouped grouping i surface st, v.after.scene.Coherent := by
  cases grouping with
  | group => exact List.forall_mem_singleton.mpr (h.invoke i surface).scene
  | individual =>
    obtain ⟨_, hiterates, -⟩ := iterates i surface st.scene.selected
      (host.selectEach st.scene.selected false st)
    exact (hiterates.coherent (.selected _ h.operators h.scene.distinct)).1

/-- The lines of a script leave a coherent stage coherent, one by one. -/
theorem invokedLines (surface : Surface) : ∀ (lines : List (List Char)) {st : Stage},
    st.Coherent → ∀ v ∈ Stage.invokedLines surface lines st, v.after.scene.Coherent
  | [], _, _ => List.forall_mem_nil _
  | line :: rest, st, h => by
    rw [Stage.invokedLines]
    split
    · exact invokedLines surface rest h
    · generalize Invocation.ofText (String.ofList (Text.trim line)) .execute = i
      have hafter : (Invoked.mk st i surface).after.Coherent := h.invoke i surface
      generalize Invoked.mk st i surface = v at hafter
      dsimp only
      split
      · exact List.forall_mem_cons.mpr ⟨hafter.scene, invokedLines surface rest hafter⟩
      · exact List.forall_mem_singleton.mpr hafter.scene

/-- **No invocation of a step leaves a scene incoherent.** -/
theorem invoked (h : st.Coherent) (step : Step) (g : Grouping) (base : Surface) :
    ∀ v ∈ step.invoked g base st, v.after.scene.Coherent := by
  unfold Step.invoked
  split
  · exact invokedLines _ _ h
  · split
    · exact List.forall_mem_nil _
    · dsimp only
      generalize st.scene.layout.aim base step.requiredType? = aimed
      obtain ⟨during, target⟩ := aimed
      generalize Invocation.mk _ step.callMode _ = i
      exact (h.occupy during target).invokedGrouped g i target.surface
  · exact List.forall_mem_nil _

theorem playCommand (h : st.Coherent) (g : Grouping) (base : Surface) (step : Step) (c : Command) :
    (host.playCommand g base step c st).2.Coherent := by
  unfold Host.playCommand
  split
  · exact h
  · generalize (host.layout st).aim base step.requiredType? = aimed
    obtain ⟨during, target⟩ := aimed
    have hrun := (h.occupy during target).invokeGrouped g
      ⟨c, step.callMode, String.ofList (Text.trim step.text.toList)⟩ target.surface
    dsimp only
    split <;> rename_i hresult <;> rw [hresult] at hrun
    · exact (hrun.vacate target).redrawAt _
    · exact hrun.vacate target

/-- **No step leaves a stage incoherent**, whether it fails or not. -/
theorem effect (h : st.Coherent) {step : Step} {g : Grouping} {base : Surface}
    {f : Stage → Except PlayError Unit × Stage} (hf : step.effect? host g base = some f)
    {r : Except PlayError Unit} (hrun : f st = (r, st')) : st'.Coherent := by
  obtain rfl : (f st).2 = st' := by rw [hrun]
  unfold Step.effect? at hf
  split at hf
  · cases hf; exact h
  · cases hf; exact h.makeSelection _
  · rename_i source _
    cases hf
    rw [playScript_stage]
    exact runLines_keeps (p := Coherent) (fun _ i surface h => h.invoke i surface)
      st.scene.ambient (Text.lines source.toList) 1 h
  · cases hf; exact h.playCommand _ _ _ _
  · cases hf

end Coherent

end Stage

end Replay
