import Replay.Proofs.Host.Keeps
import Replay.Proofs.Scene.Selecting

/-!
# What commands do to objects

A command on a stage with the built-in operators leaves the objects as they are, adds one, deletes
those that are selected, selects anew, or tags. What holds of objects after commands is proved by
these five cases.

* `Scene.Coherent` — names tell objects apart, and the active object is there
* `Command.Alters` — what a command may do to the objects of a scene
* `Stage.perform_alters` — with the built-in operators it does nothing else
* `Command.Alters.coherent`, `Command.Alters.keeps`, `Command.Alters.narrows` — names, objects and
  the selection after a command
-/

set_option autoImplicit false

namespace Replay

/-! ## Coherent scenes -/

/-- **Names tell the objects of a scene apart, and the active object is there**, if there is one. -/
structure Scene.Coherent (s : Scene) : Prop where
  distinct : s.names.Nodup
  active : ∀ name, s.active = some name → name ∈ s.names

namespace Scene.Coherent

variable {s s' : Scene}

theorem of_same (h : s.Coherent) (names : s'.names = s.names) (active : s'.active = s.active) :
    s'.Coherent := by
  refine ⟨names ▸ h.distinct, fun name hname => ?_⟩
  rw [names]
  exact h.active name (active ▸ hname)

theorem selectEach (h : s.Coherent) (names : List String) (on : Bool) :
    (s.selectEach names on).Coherent :=
  h.of_same (selectEach_names names on s) (selectEach_active names on s)

end Scene.Coherent

/-! ## What a command does -/

namespace Command

/-- Whether a command deletes the selected objects. -/
def deletes : Command → Bool
  | call c => c.id == "object.delete"
  | assign _ _ | expression _ => false

/-- Whether a command may select objects that were not selected. -/
def gathers : Command → Bool
  | call c =>
    c.id == "object.add" || (c.id == "object.select_all" &&
      ["SELECT", "INVERT"].contains ((c.textArgument? "action").getD "TOGGLE"))
  | assign _ _ | expression _ => false

/-- **What a command may do to the objects of a scene.** -/
inductive Alters : Command → Scene → Scene → Prop
  | leaves {c s s'} (stays : deletes c = false) (objects : s'.objects = s.objects)
      (active : s'.active = s.active) : Alters c s s'
  /-- The new object alone is selected. -/
  | adds {c s s' name} (id : Call.id c = "object.add") (fresh : name ∉ s.names)
      (objects : s'.objects =
        s.objects.map (fun o => { o with selected := false }) ++ [⟨name, true, true, []⟩])
      (active : s'.active = some name) : Alters (.call c) s s'
  /-- The active object stays active if it is still there. -/
  | deletes {c s s'} (id : Call.id c = "object.delete")
      (objects : s'.objects = s.objects.filter fun o => !o.selected)
      (active : s'.active = s.active.filter s'.hasObject) : Alters (.call c) s s'
  | selects {c s s' rule} (id : Call.id c = "object.select_all")
      (rules : Operator.selectionAfter? ((c.textArgument? "action").getD "TOGGLE")
        (s.objects.any fun o => o.selected) = some rule)
      (objects : s'.objects = s.objects.map fun o =>
        if o.inViewLayer then { o with selected := rule o.selected } else o)
      (active : s'.active = s.active) : Alters (.call c) s s'
  | tags {c s s' tag} (id : Call.id c = "object.tag")
      (objects : s'.objects = s.objects.map fun o =>
        if o.selected then { o with tags := o.tags ++ [tag] } else o)
      (active : s'.active = s.active) : Alters (.call c) s s'

end Command

namespace Scene

/-- An object that is added alone selected, and made active. -/
theorem addObject_select {s : Scene} {name : String} (fresh : s.hasObject name = false) :
    (s.addObject name).select name true =
      { s with objects := s.objects ++ [⟨name, true, true, []⟩] } := by
  have hothers : ∀ objects : List SceneObject, name ∉ objects.map SceneObject.name →
      selectIn name true (objects ++ [⟨name, true, false, []⟩]) =
        objects ++ [⟨name, true, true, []⟩] := by
    intro objects
    induction objects with
    | nil => simp [selectIn]
    | cons o rest ih =>
      intro hname
      rw [List.map_cons, List.mem_cons, not_or] at hname
      rw [List.cons_append, selectIn, if_neg (Ne.symm hname.1), ih hname.2, List.cons_append]
  have hname : name ∉ s.objects.map SceneObject.name := by
    rw [← Bool.not_eq_true, hasObject_iff] at fresh
    exact fresh
  simp only [addObject, fresh, Bool.false_eq_true, if_false, select, hothers _ hname]

end Scene

namespace Operator

variable {c : Call} {s : Scene}

/-- An action that gathers nothing deselects, if anything is selected before it. -/
theorem selectionAfter?_idle (idle : (Command.call c).gathers = false)
    (id : c.id = "object.select_all") {rule : Bool → Bool}
    (rules : selectionAfter? ((c.textArgument? "action").getD "TOGGLE") true = some rule)
    (on : Bool) : rule on = false := by
  simp only [Command.gathers, id] at idle
  generalize (c.textArgument? "action").getD "TOGGLE" = action at rules idle
  unfold selectionAfter? at rules
  grind

theorem addObject_alters (id : c.id = "object.add") :
    Command.Alters (.call c) s (addObject c s).2 := by
  have hstays : (Command.call c).deletes = false := by simp [Command.deletes, id]
  unfold addObject
  split
  · exact .leaves hstays rfl rfl
  · rename_i name _
    split
    · exact .leaves hstays rfl rfl
    · rename_i hfresh
      rw [Bool.not_eq_true] at hfresh
      let cleared : Scene :=
        { s with objects := s.objects.map fun o => { o with selected := false } }
      have hnames : cleared.names = s.names := by simp [cleared, Scene.names]
      have hcleared : cleared.hasObject name = false := by
        rw [← Bool.not_eq_true, Scene.hasObject_iff] at hfresh ⊢
        rwa [hnames]
      refine .adds id (?_ : name ∉ s.names) ?_ rfl
      · rwa [← Bool.not_eq_true, Scene.hasObject_iff] at hfresh
      · exact congrArg Scene.objects (Scene.addObject_select hcleared)

theorem deleteObjects_alters (id : c.id = "object.delete") :
    Command.Alters (.call c) s (deleteObjects c s).2 := by
  let kept : Scene := { s with objects := s.objects.filter fun o => !o.selected }
  show Command.Alters (.call c) s
    (if kept.active.any fun name => !kept.hasObject name then { kept with active := none } else kept)
  split
  · rename_i hgone
    refine .deletes id rfl ?_
    show none = kept.active.filter kept.hasObject
    cases hactive : kept.active <;> simp_all [Option.filter]
  · rename_i hthere
    refine .deletes id rfl ?_
    show kept.active = kept.active.filter kept.hasObject
    cases hactive : kept.active <;> simp_all [Option.filter]

theorem selectAll_alters (id : c.id = "object.select_all") :
    Command.Alters (.call c) s (selectAll c s).2 := by
  unfold selectAll
  simp only
  split
  · exact .leaves (by simp [Command.deletes, id]) rfl rfl
  · rename_i rule hrule
    exact .selects id hrule rfl rfl

theorem tagSelected_alters (id : c.id = "object.tag") :
    Command.Alters (.call c) s (tagSelected c s).2 := by
  unfold tagSelected
  split
  · exact .leaves (by simp [Command.deletes, id]) rfl rfl
  · simp only
    split <;> exact .tags id rfl rfl

theorem increment_alters (id : c.id = "scene.increment") :
    Command.Alters (.call c) s (increment c s).2 := by
  have hstays : (Command.call c).deletes = false := by simp [Command.deletes, id]
  unfold increment
  split
  · exact .leaves hstays rfl rfl
  · split
    · exact .leaves hstays rfl rfl
    · split
      · exact .leaves hstays rfl rfl
      · split <;> exact .leaves hstays rfl rfl

theorem snapCursor_alters (id : c.id = "view3d.snap_cursor_to_center") :
    Command.Alters (.call c) s (snapCursor c s).2 :=
  .leaves (by simp [Command.deletes, id]) rfl rfl

end Operator

namespace OperatorTable

/-- What the built-in operators do to the objects of a scene. -/
theorem builtIn_alters {c : Call} {o : Operator} (h : builtIn.get? c.id = some o) (s : Scene) :
    Command.Alters (.call c) s (o.run c s).2 := by
  have hmem := mem_entries_of_get? h
  simp only [builtIn, List.mem_cons, Prod.mk.injEq, List.not_mem_nil, or_false] at hmem
  rcases hmem with ⟨id, rfl⟩ | ⟨id, rfl⟩ | ⟨id, rfl⟩ | ⟨id, rfl⟩ | ⟨id, rfl⟩ | ⟨id, rfl⟩
  · exact Operator.addObject_alters id
  · exact Operator.deleteObjects_alters id
  · exact Operator.selectAll_alters id
  · exact Operator.tagSelected_alters id
  · exact Operator.increment_alters id
  · exact Operator.snapCursor_alters id

/-- The operator that deletes is known, and runs in any editor. -/
theorem builtIn_deletes {c : Call} (h : (Command.call c).deletes = true) :
    builtIn.get? c.id = some ⟨none, Operator.deleteObjects⟩ := by
  have id : c.id = "object.delete" := by simpa [Command.deletes] using h
  rw [id]
  rfl

end OperatorTable

namespace Stage

variable {st : Stage} {c : Command}

/-- **What a command does to the objects of a stage** with the built-in operators. -/
theorem perform_alters (builtIn : st.operators = .builtIn) (surface : Surface) :
    c.Alters st.scene (st.perform c surface).2 := by
  cases c with
  | call c =>
    unfold perform
    simp only [builtIn]
    split
    · rename_i hunknown
      refine .leaves (Bool.eq_false_iff.mpr fun hdeletes => ?_) rfl rfl
      rw [OperatorTable.builtIn_deletes hdeletes] at hunknown
      cases hunknown
    · rename_i o ho
      split
      · rename_i hwrong
        refine .leaves (Bool.eq_false_iff.mpr fun hdeletes => ?_) rfl rfl
        rw [OperatorTable.builtIn_deletes hdeletes] at ho
        cases ho
        simp at hwrong
      · exact OperatorTable.builtIn_alters ho st.scene
  | assign path value =>
    unfold perform
    dsimp only
    split <;> exact .leaves rfl rfl rfl
  | expression text => exact .leaves rfl rfl rfl

end Stage

/-! ## What holds after a command -/

namespace Command.Alters

variable {c : Command} {s s' : Scene} {name : String}

/-- Names stay, unless objects are added or deleted. -/
theorem names_of_map {f : SceneObject → SceneObject} (objects : s'.objects = s.objects.map f)
    (same : ∀ o, (f o).name = o.name) : s'.names = s.names := by
  rw [Scene.names, objects, List.map_map, Scene.names]
  exact List.map_congr_left fun o _ => same o

/-- The names after a command: some are gone if it deletes, and there may be a new one if it does
not. -/
theorem names (h : c.Alters s s') :
    (c.deletes = true ∧ List.Sublist s'.names s.names) ∨
      (c.deletes = false ∧ (s'.names = s.names ∨
        ∃ name, name ∉ s.names ∧ s'.names = s.names ++ [name] ∧ s'.active = some name)) := by
  cases h with
  | leaves stays objects _ => exact .inr ⟨stays, .inl (Scene.names_of_objects objects)⟩
  | @adds _ _ _ name id fresh objects active =>
    refine .inr ⟨by simp [Command.deletes, id], .inr ⟨name, fresh, ?_, active⟩⟩
    simp [Scene.names, objects]
  | deletes id objects _ =>
    refine .inl ⟨by simp [Command.deletes, id], ?_⟩
    rw [Scene.names, objects]
    exact List.filter_sublist.map _
  | selects id _ objects _ =>
    refine .inr ⟨by simp [Command.deletes, id], .inl (names_of_map objects fun o => ?_)⟩
    split <;> rfl
  | tags id objects _ =>
    refine .inr ⟨by simp [Command.deletes, id], .inl (names_of_map objects fun o => ?_)⟩
    split <;> rfl

/-- Names tell the objects apart after a command if they do before it. -/
theorem distinct (h : c.Alters s s') (distinct : s.names.Nodup) : s'.names.Nodup := by
  obtain ⟨-, hnames⟩ | ⟨-, hnames | ⟨name, fresh, hnames, -⟩⟩ := h.names
  · exact hnames.nodup distinct
  · exact hnames ▸ distinct
  · rw [hnames]
    exact List.nodup_append.mpr ⟨distinct, by simp, by grind⟩

/-- **A command leaves a coherent scene coherent.** -/
theorem coherent (h : c.Alters s s') (coherent : s.Coherent) : s'.Coherent := by
  refine ⟨h.distinct coherent.distinct, fun name hactive => ?_⟩
  cases h with
  | leaves _ objects active =>
    exact Scene.names_of_objects objects ▸ coherent.active name (active ▸ hactive)
  | adds _ _ objects active =>
    cases active.symm.trans hactive
    simp [Scene.names, objects]
  | deletes _ _ active =>
    rw [active] at hactive
    exact Scene.hasObject_iff.mp (Option.filter_eq_some_iff.mp hactive).2
  | selects _ _ objects active =>
    rw [names_of_map objects fun o => by split <;> rfl]
    exact coherent.active name (active ▸ hactive)
  | tags _ objects active =>
    rw [names_of_map objects fun o => by split <;> rfl]
    exact coherent.active name (active ▸ hactive)

/-- **Objects stay unless a command deletes.** -/
theorem keeps (h : c.Alters s s') (stays : c.deletes = false) (there : name ∈ s.names) :
    name ∈ s'.names := by
  obtain ⟨deletes, -⟩ | ⟨-, hnames | ⟨_, -, hnames, -⟩⟩ := h.names
  · rw [stays] at deletes
    cases deletes
  · rwa [hnames]
  · rw [hnames]
    exact List.mem_append_left _ there

/-- A command that deletes takes away the selected objects, and no others. -/
theorem deleted (h : c.Alters s s') (deletes : c.deletes = true) :
    s'.selected = [] ∧ ∀ name, name ∈ s.names → name ∉ s.selected → name ∈ s'.names := by
  cases h with
  | leaves stays _ _ =>
    rw [stays] at deletes
    cases deletes
  | deletes _ objects _ =>
    refine ⟨?_, fun name there untouched => ?_⟩
    · simp [Scene.selected, objects]
    · obtain ⟨o, ho, rfl⟩ := List.mem_map.mp there
      have hselected : o.selected = false := by
        rw [← Bool.not_eq_true]
        exact fun hselected => untouched (Scene.mem_selected_iff.mpr ⟨o, ho, hselected, rfl⟩)
      simp only [Scene.names, objects, List.mem_map, List.mem_filter]
      exact ⟨o, ⟨ho, by simp [hselected]⟩, rfl⟩
  | adds id _ _ _ | selects id _ _ _ | tags id _ _ => simp [Command.deletes, id] at deletes

/-- **The selection does not grow** in a command that gathers nothing, if anything is selected. -/
theorem narrows (h : c.Alters s s') (idle : c.gathers = false) (some : s.selected ≠ []) :
    ∀ name ∈ s'.selected, name ∈ s.selected := by
  intro name hname
  obtain ⟨o', ho', hselected, rfl⟩ := Scene.mem_selected_iff.mp hname
  cases h with
  | leaves _ objects _ =>
    rwa [Scene.selected_of_objects objects] at hname
  | adds id _ _ _ => simp [Command.gathers, id] at idle
  | deletes _ objects _ =>
    rw [objects] at ho'
    simp [hselected] at ho'
  | @selects c _ _ rule id rules objects _ =>
    rw [objects] at ho'
    obtain ⟨o, ho, rfl⟩ := List.mem_map.mp ho'
    have hany : (s.objects.any fun o => o.selected) = true := by
      obtain ⟨first, hfirst⟩ := List.exists_mem_of_ne_nil _ some
      obtain ⟨o, ho, hon, -⟩ := Scene.mem_selected_iff.mp hfirst
      exact List.any_eq_true.mpr ⟨o, ho, hon⟩
    rw [hany] at rules
    have hrule := Operator.selectionAfter?_idle idle id rules o.selected
    split at hselected
    · rw [hrule] at hselected
      cases hselected
    · rename_i hhidden
      rw [if_neg hhidden]
      exact Scene.mem_selected_iff.mpr ⟨o, ho, hselected, rfl⟩
  | tags _ objects _ =>
    rw [objects] at ho'
    obtain ⟨o, ho, rfl⟩ := List.mem_map.mp ho'
    refine Scene.mem_selected_iff.mpr ⟨o, ho, ?_, ?_⟩ <;> grind

end Command.Alters

end Replay
