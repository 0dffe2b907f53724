import Replay.Proofs.Library.Basic
import Replay.Proofs.Host.Invocations

/-!
# Where a command runs

A step may ask for a type of editor. The area that it is given is looked for in three ways: by the id
in the base surface, by what the first areas of the windows show, the newest window first, and by id
again once the base area has been switched. Where ids tell the areas apart, all of them mean the same
area, and it stays the same as long as the command runs.

* `Layout.mapAreas`, `Area.switched` — a layout with its areas changed in place
* `Layout.retype_eq_mapAreas` — if ids tell areas apart, switching one is switching that one
* `Layout.Offers` — the area a step is meant to be given
* `Step.invoked_aimed` — what a step runs, runs on its target
* `Layout.aim_shows` — a step that asks for a type is given an area that shows it
-/

set_option autoImplicit false

namespace Replay

/-! ## The last item that passes a test -/

theorem find?_reverse_eq_some {α : Type} {p : α → Bool} {l : List α} {a : α}
    (h : l.reverse.find? p = some a) :
    ∃ before after, l = before ++ a :: after ∧ p a = true ∧ ∀ b ∈ after, p b = false := by
  obtain ⟨hpasses, after, before, hsplit, hafter⟩ := List.find?_eq_some_iff_append.mp h
  refine ⟨before.reverse, after.reverse, ?_, hpasses, fun b hb => ?_⟩
  · rw [← List.reverse_reverse l, hsplit]
    simp
  · simpa using hafter b (List.mem_reverse.mp hb)

theorem find?_reverse_append {α : Type} {p : α → Bool} {before after : List α} {a : α}
    (passes : p a = true) (last : ∀ b ∈ after, p b = false) :
    (before ++ a :: after).reverse.find? p = some a := by
  have hafter : after.reverse.find? p = none := by
    refine List.find?_eq_none.mpr fun b hb => ?_
    simp [last b (List.mem_reverse.mp hb)]
  simp [List.find?_append, hafter, passes]

/-! ## Areas in place -/

/-- The area showing another type of editor if it has an id. -/
def Area.switched (id : Nat) (uiType : String) (a : Area) : Area :=
  if a.id = id then { a with uiType := uiType } else a

/-- The window with its areas changed. -/
def Window.mapAreas (f : Area → Area) (w : Window) : Window :=
  { w with screen := { w.screen with areas := w.screen.areas.map f } }

namespace Layout

/-- The layout with its areas changed in place. -/
def mapAreas (l : Layout) (f : Area → Area) : Layout := ⟨l.windows.map (Window.mapAreas f)⟩

/-- **Ids tell the areas of a layout apart.** -/
def Distinct (l : Layout) : Prop := (l.areas.map Area.id).Nodup

variable {l : Layout} {id : Nat} {uiType : String} {a : Area}

theorem areas_mapAreas (l : Layout) (f : Area → Area) : (l.mapAreas f).areas = l.areas.map f := by
  simp [areas, mapAreas, Window.mapAreas, List.flatMap_map, List.map_flatMap]

theorem area?_of_mem (distinct : l.Distinct) (h : a ∈ l.areas) : l.area? a.id = some a :=
  find?_of_mem distinct h

theorem id_switched (id : Nat) (uiType : String) (a : Area) : (a.switched id uiType).id = a.id := by
  unfold Area.switched
  split <;> rfl

theorem distinct_switched (distinct : l.Distinct) :
    (l.mapAreas (Area.switched id uiType)).Distinct := by
  have hids : Area.id ∘ Area.switched id uiType = Area.id := funext (id_switched id uiType)
  unfold Distinct
  rwa [areas_mapAreas, List.map_map, hids]

theorem retypeAreas_eq_modifyFirst : ∀ areas : List Area,
    retypeAreas id uiType areas =
      modifyFirst (fun a => a.id == id) (fun a => { a with uiType := uiType }) areas
  | [] => rfl
  | a :: rest => by
    rw [retypeAreas, modifyFirst, retypeAreas_eq_modifyFirst rest]
    by_cases hid : a.id = id
    · rw [if_pos hid, if_pos (by simpa using hid)]
    · rw [if_neg hid, if_neg (by simpa using hid)]

theorem retypeAreas_eq_map {areas : List Area} (distinct : (areas.map Area.id).Nodup) :
    retypeAreas id uiType areas = areas.map (Area.switched id uiType) := by
  rw [retypeAreas_eq_modifyFirst, modifyFirst_eq_map distinct]
  refine List.map_congr_left fun a _ => ?_
  by_cases hid : a.id = id <;> simp [Area.switched, hid]

theorem mapAreas_of_absent {w : Window} (absent : ∀ a ∈ w.screen.areas, a.id ≠ id) :
    w.mapAreas (Area.switched id uiType) = w := by
  have hsame : w.screen.areas.map (Area.switched id uiType) = w.screen.areas := by
    refine (List.map_congr_left fun a ha => ?_).trans (List.map_id _)
    simp [Area.switched, absent a ha]
  rw [Window.mapAreas, hsame]

theorem retypeWindows_eq_map : ∀ {windows : List Window},
    ((windows.flatMap fun w => w.screen.areas).map Area.id).Nodup →
      retypeWindows id uiType windows = windows.map (Window.mapAreas (Area.switched id uiType))
  | [], _ => rfl
  | w :: rest, distinct => by
    rw [List.flatMap_cons, List.map_append] at distinct
    obtain ⟨hhere, hrest, happart⟩ := List.nodup_append.mp distinct
    by_cases hid : w.screen.areas.any fun a => a.id == id
    · obtain ⟨a, ha, haid⟩ := List.any_eq_true.mp hid
      have hothers : rest.map (Window.mapAreas (Area.switched id uiType)) = rest := by
        refine (List.map_congr_left fun w' hw' => ?_).trans (List.map_id _)
        refine mapAreas_of_absent fun b hb hbid => ?_
        have hmem : b ∈ rest.flatMap fun w => w.screen.areas := List.mem_flatMap.mpr ⟨w', hw', hb⟩
        refine happart _ (List.mem_map_of_mem ha) _ (List.mem_map_of_mem hmem) ?_
        rw [hbid]
        simpa using haid
      rw [retypeWindows, if_pos hid, List.map_cons, hothers, retypeAreas_eq_map hhere]
      rfl
    · have habsent : w.mapAreas (Area.switched id uiType) = w :=
        mapAreas_of_absent (by simpa using hid)
      rw [retypeWindows, if_neg hid, List.map_cons, habsent, retypeWindows_eq_map hrest]

/-- **Switching the first area of an id is switching the only one.** -/
theorem retype_eq_mapAreas (distinct : l.Distinct) :
    l.retype id uiType = l.mapAreas (Area.switched id uiType) := by
  rw [retype, retypeWindows_eq_map distinct, mapAreas]

/-- The newest window of a type, and that no later one shows it. -/
theorem latest?_eq_some {w : Window} (h : l.latest? uiType = some w) :
    ∃ older newer a, l.windows = older ++ w :: newer ∧ w.primaryArea? = some a ∧ a.uiType = uiType ∧
      ∀ w' ∈ newer, ∀ a', w'.primaryArea? = some a' → a'.uiType ≠ uiType := by
  obtain ⟨older, newer, hwindows, hshows, hnewer⟩ := find?_reverse_eq_some h
  obtain ⟨a, ha, htype⟩ := (Option.any_eq_true _ _).mp hshows
  refine ⟨older, newer, a, hwindows, ha, by simpa using htype, fun w' hw' a' ha' heq => ?_⟩
  have hnot := hnewer w' hw'
  simp [Window.shows, ha', heq] at hnot

theorem latest?_eq_none (h : l.latest? uiType = none) :
    ∀ w ∈ l.windows, ∀ a, w.primaryArea? = some a → a.uiType ≠ uiType := by
  intro w hw a ha heq
  have hnot := List.find?_eq_none.mp h w (List.mem_reverse.mpr hw)
  simp [Window.shows, ha, heq] at hnot

theorem mem_areas_of_primaryArea? {w : Window} (hw : w ∈ l.windows)
    (h : w.primaryArea? = some a) : a ∈ l.areas :=
  List.mem_flatMap.mpr ⟨w, hw, List.mem_of_mem_head? h⟩

end Layout

/-! ## Regions -/

theorem Area.contentRegion?_append {a : Area} {before after : List Region} {r : Region}
    (regions : a.regions = before ++ r :: after) (content : r.kind = .window)
    (last : ∀ r' ∈ after, r'.kind ≠ .window) : a.contentRegion? = some r.id := by
  have hlast : a.regions.reverse.find? (fun r => r.kind == .window) = some r := by
    rw [regions]
    exact find?_reverse_append (by simp [content]) fun r' hr' => by simpa using last r' hr'
  rw [Area.contentRegion?, hlast]
  rfl

theorem Area.contentRegion?_of_none {a : Area} (none : ∀ r ∈ a.regions, r.kind ≠ .window) :
    a.contentRegion? = .none := by
  have hnone : a.regions.reverse.find? (fun r => r.kind == .window) = .none :=
    List.find?_eq_none.mpr fun r hr => by simpa using none r (List.mem_reverse.mp hr)
  rw [Area.contentRegion?, hnone]
  rfl

/-- **A surface that enters an area of a layout**: it starts from another surface and goes to the
content of the area, if there is any. -/
structure Surface.Enters (l : Layout) (start : Surface) (a : Area) (s : Surface) : Prop where
  /-- The window and the screen are those of the start. -/
  same : s = { start with region := s.region }
  area : s.area = some a.id
  /-- The id leads to the area. -/
  found : l.area? a.id = some a
  /-- The region is the last one that holds content. -/
  content : ∀ before r after, a.regions = before ++ r :: after → r.kind = .window →
    (∀ r' ∈ after, r'.kind ≠ .window) → s.region = some r.id
  /-- Without any it stays as it is. -/
  empty : (∀ r ∈ a.regions, r.kind ≠ .window) → s.region = start.region

/-- **The surface of a target enters its area.** -/
theorem Target.onContent_enters {l : Layout} {start : Surface} {a : Area}
    (area : start.area = some a.id) (found : l.area? a.id = some a) :
    Surface.Enters l start a (Target.onContent l start) := by
  have hregion : Target.onContent l start =
      { start with region := a.contentRegion?.or start.region } := by
    have harea : start.area.bind l.area? = some a := by rw [area, Option.bind_some, found]
    unfold Target.onContent
    rw [harea, Option.bind_some]
    cases a.contentRegion? <;> rfl
  rw [hregion]
  constructor
  case same => rfl
  case area => exact area
  case found => exact found
  case content =>
    intro before r after hregions hcontent hlast
    show a.contentRegion?.or start.region = some r.id
    rw [Area.contentRegion?_append hregions hcontent hlast, Option.some_or]
  case empty =>
    intro hnone
    show a.contentRegion?.or start.region = start.region
    rw [Area.contentRegion?_of_none hnone, Option.none_or]

/-! ## The area that is offered -/

/-- **What a step is meant to be given** on a base surface with some area, if it asks for a type of
editor: the layout while it runs, a surface apart from its region, and the area of that surface. -/
inductive Layout.Offers (l : Layout) (base : Surface) (home : Area) (required : String) :
    Layout → Surface → Area → Prop
  /-- The base area, if it shows the type. -/
  | own (shows : home.uiType = required) : Offers l base home required l base home
  /-- Else the first area of the newest window whose first area shows the type. -/
  | newest {older newer : List Window} {w : Window} {a : Area} (other : home.uiType ≠ required)
      (windows : l.windows = older ++ w :: newer) (first : w.primaryArea? = some a)
      (shows : a.uiType = required)
      (latest : ∀ w' ∈ newer, ∀ a', w'.primaryArea? = some a' → a'.uiType ≠ required) :
      Offers l base home required l (Surface.ofWindow w) a
  /-- Else the base area, switched to the type; no other area changes. -/
  | switched (other : home.uiType ≠ required)
      (none : ∀ w ∈ l.windows, ∀ a, w.primaryArea? = some a → a.uiType ≠ required) :
      Offers l base home required (l.mapAreas (Area.switched home.id required)) base
        { home with uiType := required }

namespace Layout

variable {l : Layout} {base : Surface} {home : Area} {required : String}

theorem choose_offers (distinct : l.Distinct) (there : home ∈ l.areas)
    (area : base.area = some home.id) (required : String) : ∃ chosen,
      l.Offers base home required (l.choose base (some required)).1
        (l.choose base (some required)).2.surface chosen := by
  have hhome : l.area? home.id = some home := area?_of_mem distinct there
  have htype : l.typeAt? base = some home.uiType := by
    rw [typeAt?, area, Option.bind_some, hhome, Option.map_some]
  unfold choose
  rw [area, htype]
  dsimp only
  by_cases hshows : home.uiType = required
  · rw [if_pos hshows]
    exact ⟨home, .own hshows⟩
  · rw [if_neg hshows]
    cases hlatest : l.latest? required with
    | some w =>
      obtain ⟨older, newer, a, hwindows, hfirst, hshown, hnewer⟩ := latest?_eq_some hlatest
      exact ⟨a, .newest hshows hwindows hfirst hshown hnewer⟩
    | none =>
      rw [retype_eq_mapAreas distinct]
      exact ⟨_, .switched hshows (latest?_eq_none hlatest)⟩

namespace Offers

variable {during : Layout} {surface : Surface} {chosen : Area}

/-- **The area that is offered shows the type**, and ids lead to it. -/
theorem shows (h : l.Offers base home required during surface chosen) :
    chosen.uiType = required := by
  cases h with
  | own shows => exact shows
  | newest _ _ _ shows _ => exact shows
  | switched _ _ => rfl

theorem area (h : l.Offers base home required during surface chosen)
    (base_area : base.area = some home.id) : surface.area = some chosen.id := by
  cases h with
  | own _ => exact base_area
  | newest _ _ first _ _ => rw [Surface.ofWindow, first]; rfl
  | switched _ _ => exact base_area

theorem area? (h : l.Offers base home required during surface chosen) (distinct : l.Distinct)
    (there : home ∈ l.areas) : during.area? chosen.id = some chosen := by
  cases h with
  | own _ => exact area?_of_mem distinct there
  | newest _ windows first _ _ =>
    refine area?_of_mem distinct (mem_areas_of_primaryArea? ?_ first)
    rw [windows]
    simp
  | switched _ _ =>
    have hmem : Area.switched home.id required home ∈
        (l.mapAreas (Area.switched home.id required)).areas := by
      rw [areas_mapAreas]
      exact List.mem_map_of_mem there
    rw [Area.switched, if_pos rfl] at hmem
    exact area?_of_mem (distinct_switched distinct) hmem

end Offers

end Layout

/-! ## While the command runs -/

open Stage

namespace Stage

variable {l : Layout} {st st' : Stage} {i : Invocation} {surface : Surface} {names : List String}
  {runs : List Invoked} {result : Except SceneError Unit}

/-- An invocation on a surface, on a stage that shows a layout. -/
def Invoked.On (l : Layout) (surface : Surface) (v : Invoked) : Prop :=
  v.before.Displays l ∧ v.surface = surface

theorem Displays.focus (h : st.Displays l) (name : String) : (st.focus name).Displays l :=
  ⟨h.operators, h.layout⟩

theorem Displays.select (h : st.Displays l) (name : String) (on : Bool) :
    (host.select st name on).Displays l :=
  ⟨h.operators, h.layout⟩

/-- One object after the other, the command runs on the same surface and sees the same layout. -/
theorem Iterates.on (h : Iterates i surface names st runs result st') (displays : st.Displays l) :
    ∀ v ∈ runs, v.On l surface := by
  induction h with
  | nothing => exact List.forall_mem_nil _
  | @next name rest st v runs result st' focused done later ih =>
    subst focused
    have hfocus := displays.focus name
    have hafter := (hfocus.invoke i surface).select name false
    exact List.forall_mem_cons.mpr ⟨⟨hfocus, rfl⟩, ih hafter⟩
  | @stop name rest st v e focused failed =>
    subst focused
    exact List.forall_mem_singleton.mpr ⟨displays.focus name, rfl⟩

theorem invokedGrouped_on (grouping : Grouping) (displays : st.Displays l) :
    ∀ v ∈ invokedGrouped grouping i surface st, v.On l surface := by
  cases grouping with
  | group => exact List.forall_mem_singleton.mpr ⟨displays, rfl⟩
  | individual =>
    obtain ⟨_, hiterates, -⟩ := iterates i surface st.scene.selected
      (host.selectEach st.scene.selected false st)
    exact hiterates.on ((host_lays.pinned l).selectEach st.scene.selected false displays)

end Stage

/-- **What a step runs, runs on its target**, and sees the layout that its target was chosen for. -/
theorem Step.invoked_aimed {l : Layout} {st : Stage} {step : Step} {c : Command} (g : Grouping)
    (base : Surface) (displays : st.Displays l) (reads : step.instruction = .ok (.plain c)) :
    ∀ v ∈ step.invoked g base st, v.On (l.aim base step.requiredType?).1
      (l.aim base step.requiredType?).2.surface := by
  unfold Step.invoked
  rw [reads]
  dsimp only
  split
  · exact List.forall_mem_nil _
  · rw [displays.layout]
    have hstill : (l.aim base step.requiredType?).2.borrowed = none →
        (l.aim base step.requiredType?).1 = l := Layout.aim_of_not_borrowed
    generalize l.aim base step.requiredType? = aimed at hstill
    obtain ⟨during, target⟩ := aimed
    exact invokedGrouped_on g (host_lays.occupy displays hstill)

/-- **A step that asks for a type of editor is given an area that shows it**: its base area if that
does, else the first area of the newest window whose first area does, else its base area switched to
the type. While its command runs, the id of the surface leads to that area, the region is the content
of the area, and nothing else in the layout has changed. -/
theorem Layout.aim_shows {l : Layout} {base : Surface} {home : Area} (distinct : l.Distinct)
    (there : home ∈ l.areas) (area : base.area = some home.id) (required : String) :
    ∃ during target start chosen, l.aim base (some required) = (during, target) ∧
      l.Offers base home required during start chosen ∧ chosen.uiType = required ∧
      Surface.Enters during start chosen target.surface ∧
      ∀ (st : Stage) (step : Step) (c : Command) (g : Grouping), st.Displays l →
        step.instruction = .ok (.plain c) → step.requiredType? = some required →
          ∀ v ∈ step.invoked g base st, v.On during target.surface := by
  obtain ⟨chosen, hoffers⟩ := choose_offers distinct there area required
  refine ⟨_, _, _, chosen, rfl, hoffers, hoffers.shows, ?_, ?_⟩
  · exact Target.onContent_enters (hoffers.area area) (hoffers.area? distinct there)
  · intro st step c g displays reads requires
    rw [← requires]
    exact Step.invoked_aimed g base displays reads

/-- Four windows: two show images first, and the newest one does so beside another editor. -/
def Layout.gallery : Layout :=
  let images (id : Nat) : Area :=
    ⟨id, "IMAGE_EDITOR", [⟨10 * id, .header⟩, ⟨10 * id + 1, .window⟩, ⟨10 * id + 2, .window⟩,
      ⟨10 * id + 3, .ui⟩]⟩
  ⟨[⟨1, ⟨1, [⟨10, "VIEW_3D", [⟨100, .window⟩]⟩, ⟨11, "PROPERTIES", []⟩]⟩⟩,
    ⟨2, ⟨2, [images 20]⟩⟩, ⟨3, ⟨3, [images 30]⟩⟩, ⟨4, ⟨4, [⟨40, "VIEW_3D", []⟩, images 41]⟩⟩]⟩

theorem Layout.gallery_aimed :
    gallery.Distinct ∧ ⟨10, "VIEW_3D", [⟨100, .window⟩]⟩ ∈ gallery.areas ∧
    ∃ during target start chosen,
      gallery.aim ⟨some 1, some 1, some 10, some 100⟩ (some "IMAGE_EDITOR") = (during, target) ∧
      chosen.uiType = "IMAGE_EDITOR" ∧ Surface.Enters during start chosen target.surface ∧
      during = gallery ∧ target.surface = ⟨some 3, some 3, some 30, some 302⟩ := by
  have hdistinct : gallery.Distinct := by unfold Distinct; decide
  have hthere : ⟨10, "VIEW_3D", [⟨100, .window⟩]⟩ ∈ gallery.areas := by decide
  obtain ⟨during, target, start, chosen, haim, -, hshows, henters, -⟩ :=
    @aim_shows gallery ⟨some 1, some 1, some 10, some 100⟩ _ hdistinct hthere rfl "IMAGE_EDITOR"
  have hevaluated : gallery.aim ⟨some 1, some 1, some 10, some 100⟩ (some "IMAGE_EDITOR") =
    (gallery, ⟨⟨some 3, some 3, some 30, some 302⟩, none⟩) := by decide
  obtain ⟨rfl, rfl⟩ := Prod.mk.inj (haim.symm.trans hevaluated)
  exact ⟨hdistinct, hthere, _, _, start, chosen, haim, hshows, henters, rfl, rfl⟩

end Replay
