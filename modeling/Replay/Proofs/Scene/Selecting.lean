import Replay.Proofs.Library.Basic
import Replay.Scene.Basic

/-!
# Names and selections

An object is selected by its name, which means the first object that bears it. Where names tell the
objects of a scene apart, selecting is a rule that is applied to every object by itself, and any
number of rounds over names comes to one rule.

* `Scene.names` — the names of the objects
* `Scene.mark` — the scene with each object selected or not by a rule
* `Scene.selectEach_eq_mark`, `Scene.deselectAll_eq_mark` — the rules that rounds over names come to
* `Scene.mem_selected_selectEach`, `Scene.selectEach_clears` — what is selected after a round
-/

set_option autoImplicit false

namespace Replay

/-! ## Names -/

namespace Scene

/-- The names of the objects, in order. -/
def names (s : Scene) : List String := s.objects.map SceneObject.name

variable {s s' : Scene} {name : String}

theorem mem_names_iff : name ∈ s.names ↔ ∃ o ∈ s.objects, o.name = name := List.mem_map

theorem hasObject_iff : s.hasObject name = true ↔ name ∈ s.names := by
  simp [hasObject, object?, names]

theorem mem_names_of_showsObject (h : s.showsObject name = true) : name ∈ s.names := by
  refine hasObject_iff.mp ?_
  unfold showsObject at h
  unfold hasObject
  cases hfound : s.object? name with
  | none => simp [hfound] at h
  | some o => rfl

theorem showsObject_iff (distinct : s.names.Nodup) :
    s.showsObject name = true ↔ ∃ o ∈ s.objects, o.name = name ∧ o.inViewLayer = true := by
  simp only [showsObject, Option.any_eq_true, object?]
  constructor
  · rintro ⟨o, hfound, hlayer⟩
    exact ⟨o, List.mem_of_find?_eq_some hfound, by simpa using List.find?_some hfound, hlayer⟩
  · rintro ⟨o, ho, rfl, hlayer⟩
    exact ⟨o, find?_of_mem distinct ho, hlayer⟩

theorem mem_selected_iff : name ∈ s.selected ↔ ∃ o ∈ s.objects, o.selected = true ∧ o.name = name := by
  simp [selected, and_assoc]

theorem selected_sublist : List.Sublist s.selected s.names := List.filter_sublist.map _

theorem mem_names_of_selected (h : name ∈ s.selected) : name ∈ s.names := selected_sublist.subset h

theorem selected_of_objects (h : s'.objects = s.objects) : s'.selected = s.selected := by
  rw [selected, selected, h]

theorem names_of_objects (h : s'.objects = s.objects) : s'.names = s.names := by rw [names, names, h]

theorem hasObject_of_objects (h : s'.objects = s.objects) : s'.hasObject = s.hasObject := by
  funext name
  rw [hasObject, object?, h, hasObject, object?]

end Scene

/-! ## Rules -/

/-- The object selected or not. -/
def SceneObject.marked (o : SceneObject) (on : Bool) : SceneObject := { o with selected := on }

namespace SceneObject

@[simp] theorem marked_name (o : SceneObject) (on : Bool) : (o.marked on).name = o.name := rfl

@[simp] theorem marked_selected (o : SceneObject) (on : Bool) : (o.marked on).selected = on := rfl

@[simp] theorem marked_marked (o : SceneObject) (on off : Bool) :
    (o.marked on).marked off = o.marked off := rfl

/-- The object as it is. -/
@[simp] theorem marked_same (o : SceneObject) : o.marked o.selected = o := rfl

end SceneObject

namespace Scene

/-- The scene with each object selected or not by a rule. -/
def mark (s : Scene) (rule : SceneObject → Bool) : Scene :=
  { s with objects := s.objects.map fun o => o.marked (rule o) }

variable {s : Scene} {name other : String} {on : Bool}

theorem mem_selected_mark {rule : SceneObject → Bool} :
    name ∈ (s.mark rule).selected ↔ ∃ o ∈ s.objects, rule o = true ∧ o.name = name := by
  rw [mem_selected_iff]
  constructor
  · rintro ⟨_, hmem, hselected, hname⟩
    obtain ⟨o, ho, rfl⟩ := List.mem_map.mp hmem
    exact ⟨o, ho, hselected, hname⟩
  · rintro ⟨o, ho, hrule, hname⟩
    exact ⟨_, List.mem_map_of_mem ho, hrule, hname⟩

/-- The scene as it is. -/
theorem mark_selected (s : Scene) : s.mark SceneObject.selected = s := by
  simp [mark]

theorem mark_mark (s : Scene) (f g : SceneObject → Bool) :
    (s.mark f).mark g = s.mark fun o => g (o.marked (f o)) := by
  simp [mark]

theorem mark_congr {f g : SceneObject → Bool} (h : ∀ o ∈ s.objects, f o = g o) :
    s.mark f = s.mark g := by
  have hobjects : (s.objects.map fun o => o.marked (f o)) = s.objects.map fun o => o.marked (g o) :=
    List.map_congr_left fun o ho => by rw [h o ho]
  rw [mark, mark, hobjects]

@[simp] theorem mark_names (s : Scene) (rule : SceneObject → Bool) :
    (s.mark rule).names = s.names := by
  simp [mark, names]

theorem showsObject_mark (rule : SceneObject → Bool) :
    (s.mark rule).showsObject = s.showsObject := by
  funext name
  have hname : (fun o : SceneObject => o.name == name) ∘ (fun o => o.marked (rule o)) =
    fun o : SceneObject => o.name == name := rfl
  simp only [showsObject, object?, mark, List.find?_map, hname]
  cases s.objects.find? fun o => o.name == name <;> rfl

/-! ## One object -/

theorem selectIn_eq_modifyFirst : ∀ objects : List SceneObject,
    selectIn name on objects = modifyFirst (fun o => o.name == name) (fun o => o.marked on) objects
  | [] => rfl
  | o :: rest => by
    rw [selectIn, modifyFirst, selectIn_eq_modifyFirst rest]
    by_cases hname : o.name = name
    · rw [if_pos hname, if_pos (by simpa using hname)]
      rfl
    · rw [if_neg hname, if_neg (by simpa using hname)]

@[simp] theorem select_names (s : Scene) (name : String) (on : Bool) :
    (s.select name on).names = s.names := by
  rw [names, select, selectIn_eq_modifyFirst]
  exact map_modifyFirst fun o => o.marked_name on

/-- The rule that one object is selected or not, for objects that their names tell apart. -/
theorem select_eq_mark (distinct : s.names.Nodup) :
    s.select name on = s.mark fun o => if o.name = name then on else o.selected := by
  rw [select, selectIn_eq_modifyFirst, modifyFirst_eq_map distinct, mark]
  congr 2
  funext o
  by_cases hname : o.name = name <;> simp [hname]

/-- Selecting an object that is not there does nothing. -/
theorem select_missing (missing : name ∉ s.names) : s.select name on = s := by
  have hnone : ∀ o ∈ s.objects, (o.name == name) = false := fun o ho =>
    beq_false_of_ne fun hname => missing (hname ▸ List.mem_map_of_mem ho)
  rw [select, selectIn_eq_modifyFirst, modifyFirst_of_none hnone]

/-! ## Rounds over names -/

/-- The scene with every object of a list selected or not. -/
def selectEach (s : Scene) (names : List String) (on : Bool) : Scene :=
  names.foldl (fun s name => s.select name on) s

theorem selectEach_names (names : List String) (on : Bool) : ∀ s : Scene,
    (s.selectEach names on).names = s.names := by
  induction names with
  | nil => exact fun _ => rfl
  | cons name rest ih => exact fun s => (ih (s.select name on)).trans (select_names s name on)

theorem selectEach_active (names : List String) (on : Bool) : ∀ s : Scene,
    (s.selectEach names on).active = s.active := by
  induction names with
  | nil => exact fun _ => rfl
  | cons name rest ih => exact fun s => ih (s.select name on)

/-- **A round over some names**, selecting or not: the objects of those names are selected or not. -/
theorem selectEach_eq_mark : ∀ {names : List String} {s : Scene}, s.names.Nodup →
    s.selectEach names on = s.mark fun o => if o.name ∈ names then on else o.selected
  | [], s, _ => by
    have hnone : (fun o : SceneObject => if o.name ∈ [] then on else o.selected) =
        SceneObject.selected := by
      funext o
      simp
    rw [hnone, mark_selected]
    rfl
  | name :: rest, s, distinct => by
    have hselected : (s.select name on).names.Nodup := by rwa [select_names]
    have hround : s.selectEach (name :: rest) on = (s.select name on).selectEach rest on := rfl
    rw [hround, selectEach_eq_mark hselected, select_eq_mark distinct, mark_mark]
    refine mark_congr fun o _ => ?_
    by_cases hname : o.name = name <;> simp [hname]

/-- **Selecting some objects or not** leaves the others as they are. -/
theorem mem_selected_selectEach {names : List String} (distinct : s.names.Nodup) :
    other ∈ (s.selectEach names on).selected ↔
      (other ∈ names ∧ on = true ∧ other ∈ s.names) ∨ (other ∉ names ∧ other ∈ s.selected) := by
  rw [selectEach_eq_mark distinct, mem_selected_mark, mem_names_iff, mem_selected_iff]
  constructor
  · rintro ⟨o, ho, hrule, rfl⟩
    by_cases hname : o.name ∈ names
    · rw [if_pos hname] at hrule
      exact .inl ⟨hname, hrule, o, ho, rfl⟩
    · rw [if_neg hname] at hrule
      exact .inr ⟨hname, o, ho, hrule, rfl⟩
  · rintro (⟨hname, hon, o, ho, rfl⟩ | ⟨hname, o, ho, hselected, rfl⟩)
    · exact ⟨o, ho, by rw [if_pos hname, hon], rfl⟩
    · exact ⟨o, ho, by rw [if_neg hname, hselected], rfl⟩

/-- **Selecting one object or not** leaves the others as they are. -/
theorem mem_selected_select (distinct : s.names.Nodup) :
    other ∈ (s.select name on).selected ↔
      (other = name ∧ on = true ∧ name ∈ s.names) ∨ (other ≠ name ∧ other ∈ s.selected) := by
  have hround : s.select name on = s.selectEach [name] on := rfl
  rw [hround, mem_selected_selectEach distinct, List.mem_singleton]
  by_cases hname : other = name <;> simp [hname]

/-- Nothing is selected after all that was selected has been deselected. -/
theorem selectEach_clears (distinct : s.names.Nodup) :
    (s.selectEach s.selected false).selected = [] := by
  refine List.eq_nil_iff_forall_not_mem.mpr fun name hname => ?_
  rcases (mem_selected_selectEach distinct).mp hname with ⟨-, hon, -⟩ | ⟨hout, hin⟩
  · cases hon
  · exact hout hin

/-- **Deselecting the names of the selection leaves nothing selected.** -/
theorem deselectAll_eq_mark (distinct : s.names.Nodup) : s.deselectAll = s.mark fun _ => false := by
  have hround : s.deselectAll = s.selectEach s.selected false := rfl
  rw [hround, selectEach_eq_mark distinct]
  refine mark_congr fun o ho => ?_
  cases hselected : o.selected with
  | false => simp
  | true => simp [mem_selected_iff.mpr ⟨o, ho, hselected, rfl⟩]

end Scene

end Replay
