import Replay.Proofs.Host.Individually

/-!
# What a selection selects

A selection clears what is selected, name by name, unless that is to be kept; it passes over listed
names that no object bears, and looks for its main object last. Where names tell the objects apart,
all of this comes to one rule for every object, and to whether the main object is there.

* `Selection.Makes` — what a selection is meant to do to a stage
* `Stage.makeSelection_eq` — a selection by rules
* `Stage.makes_selection` — it does what it is meant to do
-/

set_option autoImplicit false

namespace Replay

/-! ## What a selection is meant to do -/

namespace Selection

variable {sel : Selection} {name : String}

theorem main?_eq_some_iff : sel.main? = some name ↔ sel.primary = some name ∧ name ≠ "" := by
  simp [main?, Option.filter_eq_some_iff]

/-- The rule for the objects before the main one is looked for. -/
def lists (sel : Selection) (o : SceneObject) : Bool :=
  (sel.keep && o.selected) || sel.objects.contains o.name

theorem mem_selected_lists {s : Scene} : name ∈ (s.mark sel.lists).selected ↔
    (sel.keep = true ∧ name ∈ s.selected) ∨ (name ∈ sel.objects ∧ name ∈ s.names) := by
  rw [Scene.mem_selected_mark, Scene.mem_selected_iff, Scene.mem_names_iff]
  simp only [lists, Bool.or_eq_true, Bool.and_eq_true, List.contains_iff_mem]
  constructor
  · rintro ⟨o, ho, ⟨hkeep, hselected⟩ | hlisted, rfl⟩
    · exact .inl ⟨hkeep, o, ho, hselected, rfl⟩
    · exact .inr ⟨hlisted, o, ho, rfl⟩
  · rintro (⟨hkeep, o, ho, hselected, rfl⟩ | ⟨hlisted, o, ho, rfl⟩)
    · exact ⟨o, ho, .inl ⟨hkeep, hselected⟩, rfl⟩
    · exact ⟨o, ho, .inr hlisted, rfl⟩

/-- The selection with a main object that is there. -/
theorem mem_selected_main {s : Scene} {main : String} (there : main ∈ s.names) :
    name ∈ (s.mark fun o => sel.lists o || o.name == main).selected ↔
      name ∈ (s.mark sel.lists).selected ∨ name = main := by
  obtain ⟨m, hm, hmain⟩ := Scene.mem_names_iff.mp there
  simp only [Scene.mem_selected_mark, Bool.or_eq_true, beq_iff_eq]
  constructor
  · rintro ⟨o, ho, hlisted | hmain', hname⟩
    · exact .inl ⟨o, ho, hlisted, hname⟩
    · exact .inr (hname.symm.trans hmain')
  · rintro (⟨o, ho, hlisted, hname⟩ | rfl)
    · exact ⟨o, ho, .inl hlisted, hname⟩
    · exact ⟨m, hm, .inr hmain, hmain⟩

/-- **What a selection is meant to do** to a stage: how it ends, and the stage that it leaves. -/
structure Makes (sel : Selection) (before : Stage) (result : Except PlayError Unit)
    (after : Stage) : Prop where
  /-- It succeeds exactly if the main object, if there is to be one, is in the view layer. -/
  succeeds : result = .ok () ↔ ∀ name, sel.primary = some name → name ≠ "" →
    ∃ o ∈ before.scene.objects, o.name = name ∧ o.inViewLayer = true
  /-- Else it complains about the main object. -/
  complains : ∀ e, result = .error e → ∃ name, sel.primary = some name ∧ e = .missingObject name
  /-- The listed objects that exist are selected even if it fails. -/
  selected : ∀ name, name ∈ after.scene.selected ↔
    (sel.keep = true ∧ name ∈ before.scene.selected) ∨
    (name ∈ sel.objects ∧ name ∈ before.scene.names) ∨
    (result = .ok () ∧ sel.primary = some name ∧ name ≠ "")
  /-- The main object is made the active one. -/
  active : result = .ok () → ∀ name, sel.primary = some name → name ≠ "" →
    after.scene.active = some name
  /-- If it fails or there is to be no main object, the active object stays. -/
  idle : result ≠ .ok () ∨ (∀ name, sel.primary = some name → name = "") →
    after.scene.active = before.scene.active
  /-- Nothing but the selection and the active object changes. -/
  rest : ∃ rule, after = { before with
    scene := { before.scene.mark rule with active := after.scene.active } }

section Makes

variable {st : Stage} {main : String}

theorem makes_without_main (empty : ∀ name, sel.primary = some name → name = "") :
    sel.Makes st (.ok ()) (st.onScene fun s => s.mark sel.lists) := by
  constructor
  case succeeds => exact iff_of_true rfl fun name hprimary hname => absurd (empty name hprimary) hname
  case complains => intro e he; cases he
  case selected =>
    intro name
    have hnot : ¬(sel.primary = some name ∧ name ≠ "") := fun h => h.2 (empty name h.1)
    refine mem_selected_lists.trans ?_
    simp [hnot]
  case active => exact fun _ name hprimary hname => absurd (empty name hprimary) hname
  case idle => exact fun _ => rfl
  case rest => exact ⟨_, rfl⟩

theorem makes_with_main (primary : sel.primary = some main) (proper : main ≠ "")
    (there : ∃ o ∈ st.scene.objects, o.name = main ∧ o.inViewLayer = true) :
    sel.Makes st (.ok ()) (st.onScene fun s =>
      { s.mark fun o => sel.lists o || o.name == main with active := some main }) := by
  have honly : ∀ name, sel.primary = some name → name = main := fun name h =>
    Option.some.inj (h.symm.trans primary)
  constructor
  case succeeds => exact iff_of_true rfl fun name h _ => honly name h ▸ there
  case complains => intro e he; cases he
  case selected =>
    intro name
    obtain ⟨o, ho, hname, -⟩ := there
    have hnames : main ∈ st.scene.names := Scene.mem_names_iff.mpr ⟨o, ho, hname⟩
    have hmain : (sel.primary = some name ∧ name ≠ "") ↔ name = main := by
      constructor
      · exact fun h => honly name h.1
      · rintro rfl
        exact ⟨primary, proper⟩
    show name ∈ (st.scene.mark fun o => sel.lists o || o.name == main).selected ↔ _
    rw [mem_selected_main hnames, mem_selected_lists, hmain]
    simp [or_assoc]
  case active => exact fun _ name h _ => by rw [honly name h]; rfl
  case idle =>
    rintro (hfailed | hempty)
    · exact absurd rfl hfailed
    · exact absurd (hempty main primary) proper
  case rest => exact ⟨_, rfl⟩

theorem makes_missing (primary : sel.primary = some main) (proper : main ≠ "")
    (missing : ¬∃ o ∈ st.scene.objects, o.name = main ∧ o.inViewLayer = true) :
    sel.Makes st (.error (.missingObject main)) (st.onScene fun s => s.mark sel.lists) := by
  constructor
  case succeeds => exact iff_of_false (fun h => nomatch h) fun h => missing (h main primary proper)
  case complains => rintro e ⟨⟩; exact ⟨main, primary, rfl⟩
  case selected =>
    intro name
    refine mem_selected_lists.trans ?_
    simp
  case active => intro h; cases h
  case idle => exact fun _ => rfl
  case rest => exact ⟨_, rfl⟩

end Makes

end Selection

/-! ## What it does on a stage -/

namespace Stage

variable {st : Stage}

/-- The objects of a list that exist are selected; the others are passed over. -/
theorem selectExisting_eq (names : List String) : ∀ st : Stage,
    host.selectExisting names st = st.onScene fun s => s.selectEach names true := by
  induction names with
  | nil => exact fun st => rfl
  | cons name rest ih =>
    intro st
    have hround : host.selectExisting (name :: rest) st =
      host.selectExisting rest (if st.scene.hasObject name then host.select st name true else st) :=
        rfl
    have hselect : host.select st name true = st.onScene fun s => s.select name true := rfl
    have hhere : (if st.scene.hasObject name then host.select st name true else st) =
        st.onScene fun s => s.select name true := by
      by_cases hthere : st.scene.hasObject name = true
      · rw [if_pos hthere, hselect]
      · rw [if_neg hthere, onScene, Scene.select_missing (mt Scene.hasObject_iff.mpr hthere)]
    rw [hround, hhere, ih]
    rfl

/-- Before the main object is looked for. -/
theorem selectListed_eq (distinct : st.scene.names.Nodup) (sel : Selection) :
    host.selectExisting sel.objects (if sel.keep then st else host.deselectAll st) =
      st.onScene fun s => s.mark sel.lists := by
  have hdeselect : host.deselectAll st = st.onScene Scene.deselectAll := rfl
  have hcleared : (if sel.keep then st else host.deselectAll st) =
      st.onScene fun s => s.mark fun o => sel.keep && o.selected := by
    cases hkeep : sel.keep with
    | true =>
      simp only [Bool.true_and, onScene]
      exact congrArg (fun s => { st with scene := s }) st.scene.mark_selected.symm
    | false =>
      rw [hdeselect]
      simp only [Bool.false_and, onScene, Scene.deselectAll_eq_mark distinct]
      rfl
  rw [hcleared, selectExisting_eq]
  simp only [onScene]
  rw [Scene.selectEach_eq_mark (by rwa [Scene.mark_names]), Scene.mark_mark]
  have hrule : st.scene.mark (fun o =>
      if (o.marked (sel.keep && o.selected)).name ∈ sel.objects then true
      else (o.marked (sel.keep && o.selected)).selected) = st.scene.mark sel.lists := by
    refine Scene.mark_congr fun o _ => ?_
    by_cases hlisted : o.name ∈ sel.objects <;> simp [Selection.lists, hlisted]
  rw [hrule]

/-- The scene that a selection with a main object leaves. -/
theorem select_main {sel : Selection} {s : Scene} {main : String} (distinct : s.names.Nodup) :
    (s.mark sel.lists).select main true = s.mark fun o => sel.lists o || o.name == main := by
  have hdistinct : (s.mark sel.lists).names.Nodup := by rwa [Scene.mark_names]
  rw [Scene.select_eq_mark hdistinct, Scene.mark_mark]
  refine Scene.mark_congr fun o _ => ?_
  by_cases hname : o.name = main <;> simp [hname]

/-- **A selection by rules.** -/
theorem makeSelection_eq (distinct : st.scene.names.Nodup) (sel : Selection) :
    host.makeSelection sel st =
      match sel.main? with
      | none => (.ok (), st.onScene fun s => s.mark sel.lists)
      | some main =>
        if st.scene.showsObject main then
          (.ok (), st.onScene fun s =>
            { s.mark fun o => sel.lists o || o.name == main with active := some main })
        else (.error (.missingObject main), st.onScene fun s => s.mark sel.lists) := by
  unfold Host.makeSelection
  dsimp only
  rw [selectListed_eq distinct]
  cases sel.main? with
  | none => rfl
  | some main =>
    have hshows : host.showsObject (st.onScene fun s => s.mark sel.lists) main =
        st.scene.showsObject main :=
      congrFun (Scene.showsObject_mark sel.lists) main
    have hselect : host.select (host.setActive (st.onScene fun s => s.mark sel.lists) (some main))
          main true =
        st.onScene fun s => { (s.mark sel.lists).select main true with active := some main } := rfl
    dsimp only
    rw [hshows, hselect]
    simp only [onScene, select_main distinct]

/-- **A selection selects exactly what it says**, on every stage whose objects are told apart by their
names. -/
theorem makes_selection (distinct : st.scene.names.Nodup) (sel : Selection) : ∃ result after,
    host.makeSelection sel st = (result, after) ∧ sel.Makes st result after := by
  rw [makeSelection_eq distinct]
  cases hmain : sel.main? with
  | none =>
    have hempty : ∀ name, sel.primary = some name → name = "" := fun name hprimary =>
      Classical.byContradiction fun hname => by
        rw [Selection.main?_eq_some_iff.mpr ⟨hprimary, hname⟩] at hmain
        cases hmain
    exact ⟨_, _, rfl, Selection.makes_without_main hempty⟩
  | some main =>
    obtain ⟨hprimary, hproper⟩ := Selection.main?_eq_some_iff.mp hmain
    have hshows : st.scene.showsObject main = true ↔ _ := Scene.showsObject_iff distinct
    by_cases hshown : st.scene.showsObject main = true
    · simp only [if_pos hshown]
      exact ⟨_, _, rfl, Selection.makes_with_main hprimary hproper (hshows.mp hshown)⟩
    · simp only [if_neg hshown]
      exact ⟨_, _, rfl, Selection.makes_missing hprimary hproper (mt hshows.mpr hshown)⟩

/-- The listed object that exists is selected, although the main object is missing. -/
theorem selected_without_main :
    Stage.trio.scene.names.Nodup ∧ Stage.trio.scene.selected = ["A", "B"] ∧
    ∃ result after,
      host.makeSelection ⟨false, ["C", "Ghost", "C"], some "Nobody"⟩ .trio = (result, after) ∧
      Selection.Makes ⟨false, ["C", "Ghost", "C"], some "Nobody"⟩ .trio result after ∧
      after.scene.selected = ["C"] ∧ after.scene.active = some "A" := by
  obtain ⟨result, after, hmade, hmakes⟩ := @makes_selection .trio (by decide)
    ⟨false, ["C", "Ghost", "C"], some "Nobody"⟩
  have hafter : after = (host.makeSelection ⟨false, ["C", "Ghost", "C"], some "Nobody"⟩ .trio).2 := by
    rw [hmade]
  refine ⟨by decide, rfl, result, after, hmade, hmakes, ?_, ?_⟩
  · rw [hafter]
    rfl
  · rw [hafter]
    rfl

end Stage

end Replay
