import Replay.Proofs.Host.Invocations

/-!
# One object after the other

An action may treat its objects one by one: a command is run for each selected object, alone
selected and active, and then the selection and the active object are put back. Between two turns
only the object whose turn is over is deselected. So a command that selects more than that leaves
it to the next turn, and the last turn to what comes after the action.

* `Stage.Turns` — whose turn it is, and how the turns end
* `Stage.Strayless` — no turn leaves anything selected that has no business to be
* `Step.individual_command` — the turns of a command, and when they are of one object each
-/

set_option autoImplicit false

namespace Replay

open Stage

/-! ## Whose turn it is -/

namespace Stage

/-- An invocation for one object, which alone is selected and active. -/
def Invoked.Alone (v : Invoked) : Prop :=
  ∃ name, v.before.scene.active = some name ∧ v.before.scene.selected = [name]

/-- **Turns of objects up to the first failure**: each is active and selected in its turn. -/
structure Turns (names : List String) (runs : List Invoked) (result : Except SceneError Unit) :
    Prop where
  active : runs.map (fun v => v.before.scene.active) = (names.take runs.length).map some
  selected : ∀ v ∈ runs, ∃ name ∈ v.before.scene.selected, v.before.scene.active = some name
  /-- Only the last turn may fail. -/
  early : ∀ v ∈ runs.dropLast, v.result = .ok ()
  done : result = .ok () → runs.length = names.length ∧ ∀ v ∈ runs, v.result = .ok ()
  failed : ∀ e, result = .error e → ∃ v, runs.getLast? = some v ∧ v.result = .error e

/-- **Nothing is left selected that has no business to be**: between two turns, nothing but the
objects of the two; after the last turn, nothing but objects that have a turn. -/
def Strayless (names : List String) : List Invoked → Prop
  | [] => True
  | [v] => ∀ name ∈ v.after.scene.selected, name ∈ names
  | v :: w :: rest =>
    (∀ name ∈ v.after.scene.selected,
      v.before.scene.active = some name ∨ w.before.scene.active = some name) ∧
      Strayless names (w :: rest)

variable {st st' : Stage} {i : Invocation} {surface : Surface} {name other : String}
  {rest names every : List String} {v : Invoked} {runs : List Invoked}
  {result : Except SceneError Unit}

/-- In its turn an object is the active one. -/
theorem active_of_focus (focused : v = ⟨st.focus name, i, surface⟩) :
    v.before.scene.active = some name := by
  rw [focused]
  rfl

/-- In its turn an object is selected. -/
theorem Ready.selected_of_focus (ready : Ready i.command (name :: rest) st)
    (focused : v = ⟨st.focus name, i, surface⟩) : name ∈ v.before.scene.selected := by
  rw [focused]
  exact (mem_selected_focus ready.distinct (ready.there name List.mem_cons_self)).mpr (.inl rfl)

theorem Iterates.command (h : Iterates i surface names st runs result st') :
    ∀ v ∈ runs, v.invocation.command = i.command := by
  induction h with
  | nothing => exact List.forall_mem_nil _
  | next focused _ _ ih => exact List.forall_mem_cons.mpr ⟨by rw [focused], ih⟩
  | stop focused _ => exact List.forall_mem_singleton.mpr (by rw [focused])

theorem Iterates.turns (h : Iterates i surface names st runs result st')
    (ready : Ready i.command names st) : Turns names runs result := by
  induction h with
  | nothing => exact ⟨rfl, List.forall_mem_nil _, List.forall_mem_nil _,
      fun _ => ⟨rfl, List.forall_mem_nil _⟩, fun _ he => nomatch he⟩
  | @next name rest st v runs result st' focused done later ih =>
    have hlater := ih (ready.next focused)
    have hactive := active_of_focus focused
    have hselected := ready.selected_of_focus focused
    constructor
    · simp [hactive, hlater.active]
    · exact List.forall_mem_cons.mpr ⟨⟨name, hselected, hactive⟩, hlater.selected⟩
    · cases runs with
      | nil => exact List.forall_mem_nil _
      | cons w runs => exact List.forall_mem_cons.mpr ⟨done, hlater.early⟩
    · intro hdone
      obtain ⟨hlength, hall⟩ := hlater.done hdone
      exact ⟨congrArg (· + 1) hlength, List.forall_mem_cons.mpr ⟨done, hall⟩⟩
    · intro e hfailed
      obtain ⟨w, hw, hwfailed⟩ := hlater.failed e hfailed
      refine ⟨w, ?_, hwfailed⟩
      rw [List.getLast?_cons, hw]
      rfl
  | @stop name rest st v e focused failed =>
    have hactive := active_of_focus focused
    have hselected := ready.selected_of_focus focused
    refine ⟨?_, List.forall_mem_singleton.mpr ⟨name, hselected, hactive⟩, List.forall_mem_nil _,
      nofun, fun e' he => ⟨v, rfl, failed.trans he⟩⟩
    simp [hactive]

/-! ## What is selected in a turn -/

theorem eq_singleton_of_mem_iff {l : List String} (distinct : l.Nodup)
    (h : ∀ other, other ∈ l ↔ other = name) : l = [name] := by
  cases l with
  | nil => exact absurd ((h name).mpr rfl) List.not_mem_nil
  | cons first rest =>
    obtain rfl : first = name := (h first).mp List.mem_cons_self
    obtain ⟨hfresh, -⟩ := List.nodup_cons.mp distinct
    have hrest : rest = [] := by
      refine List.eq_nil_iff_forall_not_mem.mpr fun other hother => ?_
      have hsame := (h other).mp (List.mem_cons_of_mem _ hother)
      exact hfresh (hsame ▸ hother)
    rw [hrest]

/-- An object is alone in its turn if nothing else was selected before. -/
theorem Ready.alone_iff (ready : Ready i.command (name :: rest) st)
    (focused : v = ⟨st.focus name, i, surface⟩) :
    v.Alone ↔ ∀ other ∈ st.scene.selected, other = name := by
  subst focused
  have hmem : ∀ {other}, other ∈ (st.focus name).scene.selected ↔
      other = name ∨ other ∈ st.scene.selected :=
    mem_selected_focus ready.distinct (ready.there name List.mem_cons_self)
  constructor
  · rintro ⟨_, hactive, hselected⟩ other hother
    obtain rfl := Option.some.inj hactive
    have hfocused := hmem.mpr (.inr hother)
    rw [show (st.focus name).scene.selected = [name] from hselected] at hfocused
    exact List.mem_singleton.mp hfocused
  · intro hall
    have hdistinct : (st.focus name).scene.selected.Nodup :=
      Scene.selected_sublist.nodup (focus_names st name ▸ ready.distinct)
    refine ⟨name, rfl, eq_singleton_of_mem_iff hdistinct fun other => hmem.trans ?_⟩
    exact ⟨fun h => h.elim id (hall other), .inl⟩

/-- After the turn of an object what the command has left selected stays selected, but for the
object itself. -/
theorem Ready.mem_selected_next (ready : Ready i.command (name :: rest) st)
    (focused : v = ⟨st.focus name, i, surface⟩) :
    other ∈ (host.select v.after name false).scene.selected ↔
      other ≠ name ∧ other ∈ v.after.scene.selected := by
  have hdistinct : v.after.scene.names.Nodup :=
    (ready.alters focused).distinct (focus_names st name ▸ ready.distinct)
  refine (Scene.mem_selected_select hdistinct).trans ?_
  simp

/-- What may be selected when the turn of the first of some objects comes. -/
def room (every : List String) : List String → List String
  | [] => every
  | name :: _ => [name]

/-- **The turns are of one object each, and nothing else is selected in the end**, just if no turn
leaves a stray selection. -/
theorem Iterates.alone_iff (h : Iterates i surface names st runs result st')
    (ready : Ready i.command names st) (among : ∀ name ∈ names, name ∈ every) :
    ((∀ v ∈ runs, v.Alone) ∧ ∀ name ∈ st'.scene.selected, name ∈ every) ↔
      (∀ name ∈ st.scene.selected, name ∈ room every names) ∧ Strayless every runs := by
  induction h with
  | nothing => simp [room, Strayless]
  | @next name rest st v runs result st' focused done later ih =>
    have hactive := active_of_focus focused
    have hnext := ready.next focused
    rw [List.forall_mem_cons, and_assoc, ih hnext (fun other hother =>
      among other (List.mem_cons_of_mem _ hother)), ready.alone_iff focused]
    simp only [ready.mem_selected_next focused, room, List.mem_singleton]
    refine and_congr_right fun _ => ?_
    have hown := among name List.mem_cons_self
    cases later with
    | nothing => grind [room, Strayless]
    | @next second _ _ w _ _ _ focused' _ _ =>
      have hactive' := active_of_focus focused'
      simp only [Strayless, hactive, hactive', List.mem_singleton, Option.some.injEq]
      grind
    | @stop second _ _ w _ focused' _ =>
      have hactive' := active_of_focus focused'
      simp only [Strayless, hactive, hactive', List.mem_singleton, Option.some.injEq]
      grind
  | @stop name rest st v e focused failed =>
    rw [List.forall_mem_singleton, ready.alone_iff focused]
    simp only [ready.mem_selected_next focused, room, List.mem_singleton]
    refine and_congr_right fun _ => ?_
    have hown := among name List.mem_cons_self
    simp only [Strayless]
    grind

/-- A command that gathers nothing leaves no object selected but the one whose turn it is, if that one
is alone. -/
theorem Ready.leaves_own (ready : Ready i.command (name :: rest) st)
    (focused : v = ⟨st.focus name, i, surface⟩) (idle : i.command.gathers = false)
    (clear : st.scene.selected = []) : ∀ other ∈ v.after.scene.selected, other = name := by
  have hmem : ∀ {other}, other ∈ (st.focus name).scene.selected ↔
      other = name ∨ other ∈ st.scene.selected :=
    mem_selected_focus ready.distinct (ready.there name List.mem_cons_self)
  intro other hother
  have hown : name ∈ (st.focus name).scene.selected := hmem.mpr (.inl rfl)
  have hbefore := (ready.alters focused).narrows idle (List.ne_nil_of_mem hown) other hother
  rw [hmem, clear] at hbefore
  simpa using hbefore

/-- **A command that gathers nothing leaves no stray selection.** -/
theorem Iterates.strayless (h : Iterates i surface names st runs result st')
    (ready : Ready i.command names st) (idle : i.command.gathers = false)
    (clear : st.scene.selected = []) (among : ∀ name ∈ names, name ∈ every) :
    Strayless every runs := by
  induction h with
  | nothing => trivial
  | @next name rest st v runs result st' focused done later ih =>
    have hactive := active_of_focus focused
    have howns := ready.leaves_own focused idle clear
    have hclear : (host.select v.after name false).scene.selected = [] := by
      refine List.eq_nil_iff_forall_not_mem.mpr fun other hother => ?_
      obtain ⟨hother, hafter⟩ := (ready.mem_selected_next focused).mp hother
      exact hother (howns other hafter)
    have hlater := ih (ready.next focused) hclear fun other hother =>
      among other (List.mem_cons_of_mem _ hother)
    cases runs with
    | nil => exact fun other hother => howns other hother ▸ among name List.mem_cons_self
    | cons w runs => exact ⟨fun other hother => .inl (howns other hother ▸ hactive), hlater⟩
  | @stop name rest st v e focused failed =>
    exact fun other hother =>
      ready.leaves_own focused idle clear other hother ▸ among name List.mem_cons_self

/-! ## What is put back -/

/-- **The turns are of one object each**, and afterwards those objects are selected that were selected
before, and are still there. -/
structure Isolates (names : List String) (runs : List Invoked) (after : Scene) : Prop where
  alone : ∀ v ∈ runs, v.Alone
  restored : ∀ name, name ∈ after.selected ↔ name ∈ names ∧ name ∈ after.names

end Stage

namespace Scene

variable {s : Scene} {names : List String} {active : Option String}

/-- The scene in which a selection and the active object are put back, as far as they are there. -/
def restored (s : Scene) (names : List String) (active : Option String) : Scene :=
  { s.selectEach names true with active := active.filter (s.selectEach names true).hasObject }

theorem restored_names : (s.restored names active).names = s.names :=
  selectEach_names names true s

theorem mem_selected_restored (distinct : s.names.Nodup) {name : String} :
    name ∈ (s.restored names active).selected ↔
      (name ∈ names ∧ name ∈ s.names) ∨ (name ∉ names ∧ name ∈ s.selected) := by
  refine (mem_selected_selectEach distinct).trans ?_
  simp

/-- A selection is put back just if nothing else is selected by then. -/
theorem restored_iff (distinct : s.names.Nodup) :
    (∀ name, name ∈ (s.restored names active).selected ↔
      name ∈ names ∧ name ∈ (s.restored names active).names) ↔
      ∀ name ∈ s.selected, name ∈ names := by
  simp only [mem_selected_restored distinct, restored_names]
  constructor
  · intro h name hname
    by_cases hlisted : name ∈ names
    · exact hlisted
    · exact absurd ((h name).mp (.inr ⟨hlisted, hname⟩)).1 hlisted
  · intro h name
    exact ⟨fun hname => hname.elim id fun hstray => absurd (h name hstray.2) hstray.1, .inl⟩

end Scene

namespace Stage

/-- A command for the selected objects one by one: its turns, and what is put back after them. -/
theorem invokeIndividually_iterates (i : Invocation) (surface : Surface) (st : Stage) :
    ∃ result after, Iterates i surface st.scene.selected
        (host.selectEach st.scene.selected false st)
        (invokedGrouped .individual i surface st) result after ∧
      (host.invokeGrouped .individual i surface st).1 = result.mapError SceneError.message ∧
      (host.invokeGrouped .individual i surface st).2.scene =
        after.scene.restored st.scene.selected st.scene.active := by
  obtain ⟨result, hiterates, hreport⟩ := iterates i surface st.scene.selected
    (host.selectEach st.scene.selected false st)
  refine ⟨result, _, hiterates, hreport, ?_⟩
  let after := (host.invokeForEach i surface st.scene.selected
    (host.selectEach st.scene.selected false st)).2
  have hrestored := selectEach_scene st.scene.selected true after
  show (host.setActive (host.selectEach st.scene.selected true after)
    (st.scene.active.filter (host.hasObject (host.selectEach st.scene.selected true after)))).scene =
      after.scene.restored st.scene.selected st.scene.active
  rw [hrestored]
  rfl

end Stage

/-! ## Commands -/

/-- What commands are about in a scene: the objects, and which one is active. -/
def Scene.things (s : Scene) : List SceneObject × Option String := (s.objects, s.active)

namespace Stage

theorem occupy_things (during : Layout) (t : Target) (st : Stage) :
    (host.occupy during t st).scene.things = st.scene.things := by
  unfold Host.occupy
  split <;> rfl

theorem vacate_things (t : Target) (st : Stage) :
    (host.vacate t st).scene.things = st.scene.things := by
  unfold Host.vacate
  split <;> rfl

theorem redrawAt_things (surface : Surface) (st : Stage) :
    (host.redrawAt surface st).scene.things = st.scene.things := by
  unfold Host.redrawAt
  split <;> rfl

/-- A command that is not refused is run on a stage with the same things, and they stay as it leaves
them. -/
theorem playCommand_grouped {step : Step} {c : Command}
    (reads : step.instruction = .ok (.plain c)) (guarded : Host.playsItself c = false)
    (g : Grouping) (base : Surface) (st : Stage) :
    ∃ (i : Invocation) (surface : Surface) (occupied : Stage),
      i.command = c ∧ occupied.operators = st.operators ∧
      occupied.scene.things = st.scene.things ∧
      step.invoked g base st = invokedGrouped g i surface occupied ∧
      (host.playCommand g base step c st).1 =
        (host.invokeGrouped g i surface occupied).1.mapError
          (.invocation (String.ofList (Text.trim step.text.toList))) ∧
      (host.playCommand g base step c st).2.scene.things =
        (host.invokeGrouped g i surface occupied).2.scene.things := by
  have hnot : ¬Host.playsItself c = true := by simp [guarded]
  have haim : host.layout st = st.scene.layout := rfl
  unfold Step.invoked Host.playCommand
  rw [reads, haim]
  simp only [if_neg hnot]
  generalize st.scene.layout.aim base step.requiredType? = aimed
  obtain ⟨during, target⟩ := aimed
  have hoperators : (host.occupy during target st).operators = st.operators := by
    unfold Host.occupy
    split <;> rfl
  refine ⟨_, _, _, rfl, hoperators, occupy_things during target st, rfl, ?_, ?_⟩
  · dsimp only
    split <;> rename_i hresult <;> rw [hresult] <;> rfl
  · dsimp only
    split <;> rename_i hresult <;> rw [hresult]
    · exact (redrawAt_things _ _).trans (vacate_things _ _)
    · exact vacate_things _ _

end Stage

/-- **A command for the selected objects one by one**, on a stage with the built-in operators on which
names tell the objects apart. It has its turns in the order of the objects up to the first failure,
which is reported; each object is active and selected in its turn. Afterwards, failed or not, the
object that was active is active if it is still there, and the objects that were selected and are
still there are selected. In each turn the object is the only one selected, and no other object is
selected in the end, just if no turn leaves a stray selection; no turn does, unless the command is
one that selects objects. -/
theorem Step.individual_command {st : Stage} {step : Step} {c : Command}
    (builtIn : st.operators = .builtIn) (distinct : st.scene.names.Nodup)
    (reads : step.instruction = .ok (.plain c)) (guarded : Host.playsItself c = false)
    (base : Surface) :
    ∃ result after runs, runs = step.invoked .individual base st ∧
      host.playCommand .individual base step c st = (result.mapError fun e : SceneError =>
        .invocation (String.ofList (Text.trim step.text.toList)) e.message, after) ∧
      after.journal = st.journal ++ runs.filterMap Invoked.entry? ∧
      (∀ v ∈ runs, v.invocation.command = c) ∧ Turns st.scene.selected runs result ∧
      after.scene.active = st.scene.active.filter after.scene.hasObject ∧
      (∀ name ∈ st.scene.selected, name ∈ after.scene.names → name ∈ after.scene.selected) ∧
      (Isolates st.scene.selected runs after.scene ↔ Strayless st.scene.selected runs) ∧
      (c.gathers = false → Strayless st.scene.selected runs) := by
  have heffect : step.effect? host .individual base =
      some (host.playCommand .individual base step c) := by
    unfold Step.effect?
    rw [reads]
  have hjournal := step.journal_effect heffect st
  obtain ⟨i, surface, occupied, rfl, hoperators, hthings, hinvoked, hreport, hleft⟩ :=
    playCommand_grouped reads guarded .individual base st
  obtain ⟨result, left, hiterates, hreported, hrestored⟩ :=
    invokeIndividually_iterates i surface occupied
  have hobjects : occupied.scene.objects = st.scene.objects := congrArg Prod.fst hthings
  have hactive : occupied.scene.active = st.scene.active := congrArg Prod.snd hthings
  have hselected := Scene.selected_of_objects hobjects
  have hdistinct : occupied.scene.names.Nodup := Scene.names_of_objects hobjects ▸ distinct
  have hready := Ready.selected i.command (hoperators.trans builtIn) hdistinct
  have hclear := selectEach_clears hdistinct
  have hleftDistinct : left.scene.names.Nodup := (hiterates.coherent hready).2
  rw [← hinvoked] at hiterates
  rw [hselected] at hiterates hready hclear hrestored
  rw [hrestored, hactive] at hleft
  generalize hplayed : host.playCommand .individual base step i.command st = played
    at hreport hleft hjournal
  obtain ⟨outcome, after⟩ := played
  have hreport : outcome = _ := hreport
  have hobjects' : after.scene.objects = _ := congrArg Prod.fst hleft
  have hactive' : after.scene.active = _ := congrArg Prod.snd hleft
  have hnames : after.scene.names = left.scene.names :=
    (Scene.names_of_objects hobjects').trans Scene.restored_names
  have hafter := Scene.selected_of_objects hobjects'
  refine ⟨result, after, _, rfl, ?_, hjournal, hiterates.command, hiterates.turns hready, ?_, ?_, ?_,
    fun idle => hiterates.strayless hready idle hclear fun _ h => h⟩
  · rw [hreport, hreported]
    cases result <;> rfl
  · rw [hactive', Scene.hasObject_of_objects hobjects']
    rfl
  · intro name hname hthere
    rw [hafter]
    exact (Scene.mem_selected_restored hleftDistinct).mpr (.inl ⟨hname, hnames ▸ hthere⟩)
  · have halone := hiterates.alone_iff hready fun _ h => h
    rw [hclear] at halone
    have hrestore : (∀ name, name ∈ after.scene.selected ↔
        name ∈ st.scene.selected ∧ name ∈ after.scene.names) ↔
          ∀ name ∈ left.scene.selected, name ∈ st.scene.selected := by
      rw [hafter, Scene.names_of_objects hobjects']
      exact Scene.restored_iff hleftDistinct
    constructor
    · intro h
      exact (halone.mp ⟨h.alone, hrestore.mp h.restored⟩).2
    · intro h
      obtain ⟨hruns, hleft⟩ := halone.mpr ⟨List.forall_mem_nil _, h⟩
      exact ⟨hruns, hrestore.mpr hleft⟩

/-! ## Three objects -/

/-- A stage on which two of three objects are selected, and the first one is active. -/
def Stage.trio : Stage :=
  .ofScene { Scene.blank with
    objects := [⟨"A", true, true, []⟩, ⟨"B", true, true, []⟩, ⟨"C", true, false, []⟩]
    active := some "A" }

/-- The command that deletes what is selected. -/
def deletion : Step := Step.recorded "d" "bpy.ops.object.delete()"

theorem deletion_isolates : ∃ result after,
    host.playCommand .individual Stage.trio.scene.ambient deletion
      (.call ⟨"object", "delete", "", []⟩) .trio = (result, after) ∧
    after.scene.names = ["C"] ∧ after.scene.active = none ∧
    Isolates ["A", "B"] (deletion.invoked .individual Stage.trio.scene.ambient .trio)
      after.scene := by
  have builtIn : Stage.trio.operators = .builtIn := rfl
  have reads : deletion.instruction = .ok (.plain (.call ⟨"object", "delete", "", []⟩)) := rfl
  have hnames : (host.playCommand .individual Stage.trio.scene.ambient deletion
    (.call ⟨"object", "delete", "", []⟩) .trio).2.scene.names = ["C"] := by decide +kernel
  obtain ⟨result, after, runs, rfl, hplayed, -, -, -, hactive, -, hisolates, hidle⟩ :=
    Step.individual_command builtIn (by decide) reads (by decide +kernel) Stage.trio.scene.ambient
  rw [hplayed] at hnames
  have hgone : after.scene.hasObject "A" = false := by
    rw [Bool.eq_false_iff, ne_eq, Scene.hasObject_iff, show after.scene.names = ["C"] from hnames]
    decide
  have hwas : Stage.trio.scene.active = some "A" := rfl
  refine ⟨_, after, hplayed, hnames, ?_, hisolates.mpr (hidle (by decide +kernel))⟩
  rw [hactive, hwas, Option.filter_some, hgone]
  rfl

/-- The command that selects all objects. -/
def gathering : Step := Step.recorded "s" "bpy.ops.object.select_all(action='SELECT')"

/-- The first turn leaves the third object selected. So it is selected in the second turn, too, and in
the end. -/
theorem gathering_strays :
    gathering.instruction =
      .ok (.plain (.call ⟨"object", "select_all", "", [("action", "'SELECT'")]⟩)) ∧
    Stage.trio.scene.selected = ["A", "B"] ∧
    (gathering.invoked .individual Stage.trio.scene.ambient .trio).map
      (fun v => v.before.scene.selected) = [["A"], ["B", "C"]] ∧
    (host.playCommand .individual Stage.trio.scene.ambient gathering
      (.call ⟨"object", "select_all", "", [("action", "'SELECT'")]⟩) .trio).2.scene.selected =
        ["A", "B", "C"] :=
  ⟨rfl, by decide, by decide +kernel, by decide +kernel⟩

end Replay
