import Replay.Proofs.Host.Keeps

/-!
# Layouts that steps leave behind

A command that asks for a type of editor may borrow an area: it is switched to the type, and
switched back afterwards, whatever becomes of the command. Ids of areas need not be distinct, since
both switches meet the first area of an id. So a step changes the layout only while it runs, on a
host that itself never changes it.

* `Layout.release_aim` — switching back what was switched
* `Host.Lays` — a host that has the layout that it was given last
* `Host.Lays.effect` — on such a host, a step leaves the layout as it is
* `Stage.host_lays` — a stage is such a host, if no operator changes the layout
-/

set_option autoImplicit false

namespace Replay

variable {σ : Type}

/-! ## Borrowed areas -/

namespace Layout

/-- Switching the first area of an id to a type and back. -/
theorem retypeAreas_retypeAreas {id : Nat} {a : Area} (uiType : String) : ∀ {areas : List Area},
    areas.find? (fun a => a.id == id) = some a →
      retypeAreas id a.uiType (retypeAreas id uiType areas) = areas
  | b :: rest, h => by
    by_cases hid : b.id = id
    · rw [List.find?_cons_of_pos (by simp [hid])] at h
      obtain rfl := Option.some.inj h
      rw [retypeAreas, if_pos hid, retypeAreas, if_pos hid]
    · rw [List.find?_cons_of_neg (by simp [hid])] at h
      rw [retypeAreas, if_neg hid, retypeAreas, if_neg hid, retypeAreas_retypeAreas uiType h]

theorem any_retypeAreas (id id' : Nat) (uiType : String) : ∀ areas : List Area,
    (retypeAreas id uiType areas).any (fun a => a.id == id') = areas.any fun a => a.id == id'
  | [] => rfl
  | a :: rest => by
    rw [retypeAreas]
    split
    · rfl
    · rw [List.any_cons, List.any_cons, any_retypeAreas id id' uiType rest]

theorem retypeWindows_retypeWindows {id : Nat} {a : Area} (uiType : String) :
    ∀ {windows : List Window},
      (windows.flatMap fun w => w.screen.areas).find? (fun a => a.id == id) = some a →
        retypeWindows id a.uiType (retypeWindows id uiType windows) = windows
  | w :: rest, h => by
    rw [List.flatMap_cons, List.find?_append] at h
    by_cases hhere : w.screen.areas.any fun a => a.id == id
    · have hfound := List.find?_isSome.mpr (List.any_eq_true.mp hhere)
      obtain ⟨b, hb⟩ := Option.isSome_iff_exists.mp hfound
      rw [hb, Option.some_or] at h
      obtain rfl := Option.some.inj h
      rw [retypeWindows, if_pos hhere, retypeWindows, if_pos ((any_retypeAreas _ _ _ _).trans hhere),
        retypeAreas_retypeAreas uiType hb]
    · have hnone : w.screen.areas.find? (fun a => a.id == id) = none := by
        simpa using hhere
      rw [hnone, Option.none_or] at h
      rw [retypeWindows, if_neg hhere, retypeWindows, if_neg hhere,
        retypeWindows_retypeWindows uiType h]

/-- **An area that is switched to a type and back shows what it showed.** -/
theorem retype_retype {l : Layout} {id : Nat} {a : Area} (h : l.area? id = some a)
    (uiType : String) : (l.retype id uiType).retype id a.uiType = l := by
  simp only [retype, retypeWindows_retypeWindows uiType h]

/-- **Releasing the target of a step undoes what aiming has changed.** -/
theorem release_aim (l : Layout) (base : Surface) (required : Option String) :
    (l.aim base required).1.release (l.aim base required).2 = l := by
  show (l.choose base required).1.release (l.choose base required).2 = l
  unfold choose
  split
  · rename_i required area current hrequired harea htype
    split
    · rfl
    · split
      · rfl
      · simp only [typeAt?, harea, Option.bind_some, Option.map_eq_some_iff] at htype
        obtain ⟨a, ha, rfl⟩ := htype
        exact retype_retype ha _
  · rfl

/-- A target that has borrowed no area leaves the layout as it is. -/
theorem aim_of_not_borrowed {l : Layout} {base : Surface} {required : Option String}
    (h : (l.aim base required).2.borrowed = none) : (l.aim base required).1 = l := by
  have hrelease := l.release_aim base required
  rwa [release, h] at hrelease

end Layout

/-! ## Hosts that have the layout that they were given -/

namespace Host

/-- The host with its layout pinned: it cannot be set. -/
def pinned (h : Host σ) : Host σ := { h with setLayout := fun s _ => s }

theorem invokeForEach_pinned (h : Host σ) (i : Invocation) (surface : Surface) :
    ∀ (names : List String) (s : σ),
      h.pinned.invokeForEach i surface names s = h.invokeForEach i surface names s
  | [], _ => rfl
  | name :: rest, s => by
    simp only [invokeForEach, invokeForEach_pinned h i surface rest]
    rfl

/-- Running a command does not set the layout. -/
theorem invokeGrouped_pinned (h : Host σ) (grouping : Grouping) (i : Invocation)
    (surface : Surface) (s : σ) :
    h.pinned.invokeGrouped grouping i surface s = h.invokeGrouped grouping i surface s := by
  cases grouping with
  | group => rfl
  | individual =>
    simp only [invokeGrouped, invokeIndividually, invokeForEach_pinned]
    rfl

/-- A host that has the layout that it was given last. `p l` are the states with a layout `l`; no
operation but the one that sets the layout leaves them. -/
structure Lays (h : Host σ) (p : Layout → σ → Prop) : Prop where
  layout : ∀ {l s}, p l s → h.layout s = l
  setLayout : ∀ {l s} l', p l s → p l' (h.setLayout s l')
  pinned : ∀ l, h.pinned.Keeps (p l)

namespace Lays

variable {h : Host σ} {p : Layout → σ → Prop} {l : Layout} {s : σ}

theorem occupy (k : h.Lays p) {t : Target} {during : Layout} (hs : p l s)
    (still : t.borrowed = none → during = l) : p during (h.occupy during t s) := by
  unfold Host.occupy
  split
  · exact k.setLayout during hs
  · rename_i hnone
    rw [still hnone]
    exact hs

theorem vacate (k : h.Lays p) {t : Target} (hs : p l s) : p (l.release t) (h.vacate t s) := by
  unfold Host.vacate
  rw [k.layout hs]
  cases hborrowed : t.borrowed with
  | none =>
    rw [Layout.release, hborrowed]
    exact hs
  | some area => exact k.setLayout _ hs

/-- **A command leaves the layout as it is**, whether it fails or not. -/
theorem playCommand (k : h.Lays p) (grouping : Grouping) (base : Surface) (step : Step)
    (c : Command) (hs : p l s) : p l (h.playCommand grouping base step c s).2 := by
  unfold Host.playCommand
  split
  · exact hs
  · rw [k.layout hs]
    have hrelease := l.release_aim base step.requiredType?
    have hstill : (l.aim base step.requiredType?).2.borrowed = none →
        (l.aim base step.requiredType?).1 = l := Layout.aim_of_not_borrowed
    generalize l.aim base step.requiredType? = aimed at hrelease hstill
    obtain ⟨during, target⟩ := aimed
    have hrun := (k.pinned during).invokeGrouped grouping
      ⟨c, step.callMode, String.ofList (Text.trim step.text.toList)⟩ target.surface
      (k.occupy hs hstill)
    rw [invokeGrouped_pinned] at hrun
    have hvacated := k.vacate (t := target) hrun
    rw [hrelease] at hvacated
    dsimp only
    split <;> rename_i hresult <;> rw [hresult] at hvacated
    · exact (k.pinned l).redrawAt _ hvacated
    · exact hvacated

/-- **A step leaves the layout as it is**, whether it fails or not. -/
theorem effect (k : h.Lays p) {g : Grouping} {base : Surface} {step : Step}
    {f : σ → Except PlayError Unit × σ} (hf : step.effect? h g base = some f) {s' : σ}
    {r : Except PlayError Unit} (hrun : f s = (r, s')) (hs : p l s) : p l s' := by
  obtain rfl : (f s).2 = s' := by rw [hrun]
  unfold Step.effect? at hf
  split at hf
  · cases hf; exact hs
  · cases hf; exact (k.pinned l).makeSelection _ hs
  · cases hf; exact (k.pinned l).playScript _ _ hs
  · cases hf; exact k.playCommand _ _ _ _ hs
  · cases hf

theorem condition (k : h.Lays p) {s' : σ} {condition : String} {r : Except String Bool}
    (hrun : h.evaluate s condition = (r, s')) (hs : p l s) : p l s' :=
  (k.pinned l).condition hrun hs

end Lays

end Host

/-! ## Stages -/

namespace Stage

/-- A stage with the built-in operators, which shows a layout. -/
structure Displays (layout : Layout) (st : Stage) : Prop where
  operators : st.operators = .builtIn
  layout : st.scene.layout = layout

theorem Displays.invoke {l : Layout} {st : Stage} (h : st.Displays l) (i : Invocation)
    (surface : Surface) : (st.invoke i surface).2.Displays l := by
  have hleaves : st.operators.Leaves Scene.layout := h.operators ▸ OperatorTable.builtIn_leaves_layout
  obtain ⟨hoperators, hlayout⟩ := invoke_leaves hleaves (fun _ _ _ => rfl) i surface
  exact ⟨hoperators.trans h.operators, hlayout.trans h.layout⟩

/-- **A stage with the built-in operators has the layout that it was given last.** -/
theorem host_lays : Stage.host.Lays Displays where
  layout h := h.layout
  setLayout _ h := ⟨h.operators, rfl⟩
  pinned l := {
    setLayout := fun _ _ h => h
    select := fun _ _ _ h => ⟨h.operators, h.layout⟩
    deselectAll := fun s h =>
      ⟨h.operators, (congrArg Prod.fst (Scene.deselectAll_room s.scene)).trans h.layout⟩
    setActive := fun _ _ h => ⟨h.operators, h.layout⟩
    invoke := fun _ i surface h => h.invoke i surface
    evaluate := fun _ _ h => h
    runScript := fun s script h =>
      runLines_keeps (p := Displays l) (fun _ i surface h => h.invoke i surface)
        s.scene.ambient (Text.lines script.source.toList) 1 h
    redraw := fun _ _ h => ⟨h.operators, h.layout⟩ }

end Stage

end Replay
