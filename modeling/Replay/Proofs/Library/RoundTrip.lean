import Replay.Proofs.Files.Writing
import Replay.Proofs.Json.RoundTrip

/-!
# Libraries that are saved and loaded

A library is loaded from the file that it has been saved to as the library that it was: every
record is written with all its fields, so that nothing is filled in when it is read, and no id is
drawn.

* `Json.fields?_object` — the fields of a record that has been written
* `Drawing.Restores` — reading that gives back what was written, and draws no id
* `Library.read?_save` — the text of a library's file
* `Library.load_saved` — the round trip through a tree of files
-/

set_option autoImplicit false

namespace Replay

open Json

/-! ## Records -/

namespace Json

theorem distinctNames_of_nodup : ∀ {fs : Fields}, (fs.map Prod.fst).Nodup → distinctNames fs = true
  | [], _ => rfl
  | (name, j) :: rest, h => by
    obtain ⟨hnew, hrest⟩ := List.nodup_cons.mp h
    have hnone : rest.lookup name = none := by
      refine List.lookup_eq_none_iff.mpr fun m hm => ?_
      have hmem : m.1 ∈ rest.map Prod.fst := List.mem_map_of_mem hm
      have hne : name ≠ m.1 := fun hsame => hnew (hsame ▸ hmem)
      simpa using hne
    simp [distinctNames, hnone, distinctNames_of_nodup hrest]

/-- **A record that has been written with all its fields is read with all of them.** -/
theorem fields?_object {names : List String} {fs : Fields} (named : fs.map Prod.fst = names)
    (distinct : names.Nodup) : fields? names (object fs) = some fs := by
  have hknown : fs.filter (fun m => names.contains m.1) = fs := by
    refine List.filter_eq_self.mpr fun m hm => ?_
    simpa [← named] using ⟨m.2, hm⟩
  have hdistinct : distinctNames fs = true := distinctNames_of_nodup (named ▸ distinct)
  simp only [fields?, hknown, hdistinct, if_true]

end Json

/-! ## Reading that may draw ids -/

namespace Drawing

variable {α β : Type} {read : Json → Drawing α} {write : α → Json}

@[simp] theorem bind_apply (m : Drawing α) (k : α → Drawing β) (supply : IdSupply) :
    (m >>= k) supply = (m supply).bind fun drawn => k drawn.1 drawn.2 := rfl

@[simp] theorem map_apply (m : Drawing α) (k : α → β) (supply : IdSupply) :
    (k <$> m) supply = (m supply).map fun drawn => (k drawn.1, drawn.2) := by
  cases h : m supply <;> simp [Functor.map, StateT.map, h]

@[simp] theorem pure_apply (a : α) (supply : IdSupply) :
    (pure a : Drawing α) supply = some (a, supply) := rfl

@[simp] theorem liftM_apply (o : Option α) (supply : IdSupply) :
    (liftM o : Drawing α) supply = o.map fun a => (a, supply) := by
  cases o <;> rfl

/-- What has been written is read back, and no id is drawn for it. -/
def Restores (read : Json → Drawing α) (write : α → Json) : Prop :=
  ∀ (a : α) (supply : IdSupply), read (write a) supply = some (a, supply)

theorem each_map (restores : Restores read write) (as : List α) (supply : IdSupply) :
    each read (as.map write) supply = some (as, supply) := by
  induction as with
  | nil => rfl
  | cons a rest ih =>
    simp [each, restores a supply, ih]

end Drawing

/-! ## The records of a library -/

open Drawing

theorem CallMode.ofJson?_context (m : CallMode) : ofJson? (.text m.context) = some m := by
  cases m <;> rfl

theorem Grouping.ofJson?_word (g : Grouping) : ofJson? (.text g.word) = some g := by
  cases g <;> rfl

theorem asListOf?_texts (texts : List String) :
    (list (texts.map text)).asListOf? asText? = some texts := by
  apply asListOf?_map
  intro s
  rfl

namespace Step

/-- A step is read back. -/
theorem ofJson_toJson : Restores ofJson toJson := by
  intro s supply
  rw [ofJson, toJson, fields?_object]
  case named => rfl
  case distinct => decide
  simp [Fields.text, Fields.required, Fields.withDefault, idFrom, List.lookup_cons, asText?, asBool?,
    CallMode.ofJson?_context]

end Step

namespace Action

/-- An action is read back with its steps. -/
theorem ofJson_toJson : Restores ofJson toJson := by
  intro a supply
  rw [ofJson, toJson, fields?_object]
  case named => rfl
  case distinct => decide
  simp [Fields.text, Fields.withDefault, listFrom, each_map Step.ofJson_toJson, idFrom,
    List.lookup_cons, asText?, asBool?, Grouping.ofJson?_word]

end Action

namespace Place

theorem ofJson?_toJson (p : Place) : ofJson? p.toJson = some p := by
  rw [ofJson?, toJson, fields?_object]
  case named => rfl
  case distinct => decide
  simp [Fields.required, Fields.withDefault, List.lookup_cons, asText?, asListOf?_texts]

end Place

namespace Category

/-- A category is read back with the places in which it is shown. -/
theorem ofJson_toJson : Restores ofJson toJson := by
  intro c supply
  rw [ofJson, toJson, fields?_object]
  case named => rfl
  case distinct => decide
  simp [Fields.text, Fields.withDefault, asListOf?_map Place.ofJson?_toJson, asListOf?_texts,
    idFrom, List.lookup_cons, asText?]

end Category

namespace Library

/-- A library is read back with all its categories and actions. -/
theorem ofJson_toJson : Restores ofJson toJson := by
  intro l supply
  obtain ⟨categories, globals, locals, selected⟩ := l
  rw [ofJson, toJson, fields?_object]
  case named => rfl
  case distinct => decide
  -- that no category is selected is written as `null`, which is not a text
  cases selected <;>
    simp [Fields.withDefault, listFrom, each_map Category.ofJson_toJson,
      each_map Action.ofJson_toJson, List.lookup_cons, asOption?, asText?]

end Library

/-! ## The text of a file -/

section Values

variable {fit : Binary64 → Prop}

theorem Step.toJson_within (s : Step) : s.toJson.Within fit := by
  simp [toJson, Within, MembersWithin]

theorem Action.toJson_within (a : Action) : a.toJson.Within fit := by
  have hsteps : ItemsWithin fit (a.steps.map Step.toJson) := itemsWithin_map Step.toJson_within _
  simp [toJson, Within, MembersWithin, hsteps]

theorem itemsWithin_texts (texts : List String) : ItemsWithin fit (texts.map text) := by
  apply itemsWithin_map
  intro s
  trivial

theorem Place.toJson_within (p : Place) : p.toJson.Within fit := by
  simp [toJson, Within, MembersWithin, itemsWithin_texts]

theorem Category.toJson_within (c : Category) : c.toJson.Within fit := by
  have hplaces : ItemsWithin fit (c.places.map Place.toJson) :=
    itemsWithin_map Place.toJson_within _
  simp [toJson, Within, MembersWithin, hplaces, itemsWithin_texts]

/-- In the JSON form of a library there are no numbers. -/
theorem Library.toJson_within (l : Library) : l.toJson.Within fit := by
  have hcategories : ItemsWithin fit (l.categories.map Category.toJson) :=
    itemsWithin_map Category.toJson_within _
  have hactions : ∀ as : List Action, ItemsWithin fit (as.map Action.toJson) :=
    itemsWithin_map Action.toJson_within
  cases hselected : l.selectedCategory <;>
    simp [toJson, Within, MembersWithin, hcategories, hactions, hselected]

end Values

namespace Library

/-- **The text of a library's file is read as that library**, and no id is drawn for it. -/
theorem read?_save (l : Library) (supply : IdSupply) : read? l.save supply = some (l, supply) := by
  have hread : readLenient l.save = .ok l.toJson := readLenient_indented l.toJson_within
  rw [read?, hread]
  exact ofJson_toJson l supply

variable {l : Library} {f f' : Files} {path : String}

/-- What has been saved is loaded. -/
theorem load_of_written (saved : f.writeBelow path l.save = (.ok (), f')) (supply : IdSupply) :
    load f' path supply = .ok (l, supply) := by
  rw [load, Files.load, Files.read_writeBelow saved]
  dsimp only
  rw [read?_save]

/-- What has been loaded stood in a file that could be read. -/
theorem read_of_load {supply drawn : IdSupply} (loaded : load f path supply = .ok (l, drawn)) :
    ∃ old, f.read path = .ok old := by
  rw [load, Files.load] at loaded
  split at loaded
  · cases loaded
  · rename_i old hold
    exact ⟨old, hold⟩

/-- **A library survives being saved and loaded.** The file that a library has been saved to,
wherever that is and whatever the library holds, is loaded as the same library, and no id is drawn
for it. So a library that has been loaded from some file is the same again after it has been saved
and loaded once more; and over the file that it has been loaded from it can be saved, if the working
directory is still there. -/
theorem load_saved :
    (∀ (l : Library) (path : String) (f f' : Files), f.writeBelow path l.save = (.ok (), f') →
      ∀ supply, load f' path supply = .ok (l, supply)) ∧
    ∀ (f : Files) (path : String) (supply drawn : IdSupply) (l : Library),
      load f path supply = .ok (l, drawn) →
      (∀ (path' : String) (g g' : Files), g.writeBelow path' l.save = (.ok (), g') →
        ∀ later, load g' path' later = .ok (l, later)) ∧
      (f.Intact → ∃ f', f.writeBelow path l.save = (.ok (), f') ∧
        ∀ later, load f' path later = .ok (l, later)) := by
  refine ⟨fun l path f f' saved supply => load_of_written saved supply, ?_⟩
  intro f path supply drawn l loaded
  refine ⟨fun path' g g' saved later => load_of_written saved later, fun intact => ?_⟩
  obtain ⟨old, hread⟩ := read_of_load loaded
  obtain ⟨f', hsaved⟩ := Files.writeBelow_of_read intact hread l.save
  exact ⟨f', hsaved, load_of_written hsaved⟩

/-- A library with a category that is selected; its texts have quotes, control characters and
characters of several scripts. -/
def keepsakes : Library :=
  ⟨[⟨"c\"1\"", "Été 漢字", [⟨"VIEW_3D", ["OBJECT", "a\\b"]⟩, ⟨"", []⟩], ["a1", "\x00\n"]⟩],
    [⟨"a1", "\ttab", "😀 / \x7f", [⟨"s1", "'", "ar.event:\x7b\"Type\"\x7d", false, .interactive,
      "IMAGE", true⟩, .recorded "" ""], .individual, true⟩, .titled "a1" ""],
    [], some "c\"1\""⟩

/-- A library of one step in which no id is given. -/
def nameless : String :=
  "\x7b\"global_actions\": [\x7b\"macros\": [\x7b\"command\": \"x\"\x7d]\x7d]\x7d"

/-- A tree with that library in it. -/
def shelf : Files := ⟨["home"], [⟨["home", "old.json"], .text nameless, 0⟩]⟩

/-- That library with the ids that are drawn for it. -/
def shelved : Library :=
  ⟨[], [⟨IdSupply.idOf 6, "", "", [.recorded (IdSupply.idOf 5) "x"], .group, false⟩], [], none⟩

/-- The library with a category survives in a directory that has to be made; the other one keeps the
ids that were drawn for it. -/
theorem keepsakes_kept :
    (shelf.writeBelow "new/deep/keep.json" keepsakes.save).1 = .ok () ∧
    load (shelf.writeBelow "new/deep/keep.json" keepsakes.save).2 "new/deep/keep.json" ⟨9⟩ =
      .ok (keepsakes, ⟨9⟩) ∧
    load shelf "old.json" ⟨5⟩ = .ok (shelved, ⟨7⟩) ∧ shelf.Intact ∧
    ∃ f', shelf.writeBelow "old.json" shelved.save = (.ok (), f') ∧
      load f' "old.json" ⟨9⟩ = .ok (shelved, ⟨9⟩) := by
  have hsaved : (shelf.writeBelow "new/deep/keep.json" keepsakes.save).1 = .ok () := by
    decide +kernel
  have hnames : read? nameless ⟨5⟩ = some (shelved, ⟨7⟩) := by decide +kernel
  have hintact : shelf.Intact := by decide
  have hloaded : load shelf "old.json" ⟨5⟩ = .ok (shelved, ⟨7⟩) := by
    have hread : shelf.read "old.json" = .ok nameless := rfl
    rw [load, Files.load, hread]
    dsimp only
    rw [hnames]
  obtain ⟨f', hover, hagain⟩ := (load_saved.2 _ _ _ _ _ hloaded).2 hintact
  exact ⟨hsaved, load_saved.1 _ _ _ _ (Prod.ext hsaved rfl) ⟨9⟩, hloaded, hintact, f', hover,
    hagain ⟨9⟩⟩

end Library

end Replay
