import Replay.Proofs.Playback.Borrowing
import Replay.Proofs.Playback.Lockstep

/-!
# What is resumed runs where it began

A wait for a time captures the surface that the pass runs on, and all that follows from the wait
inherits it: later waits, the rounds of counted loops, the bodies of the other loops. So it does not
matter where the user has gone meanwhile. Scripts are the exception: they run where the user is.

* `Resumption.Placed` — a resumption with a surface of its own, and without scripts
* `Hereditary.placed` — whatever it goes on with is one, too
* `Session.resumed_where_captured` — what is resumed does not depend on where the user is
-/

set_option autoImplicit false

namespace Replay

/-! ## Resumptions with a surface of their own -/

/-- No step of a list runs a script. -/
def Scriptless (steps : List Step) : Prop := ∀ step ∈ steps, step.runsScript = false

instance (steps : List Step) : Decidable (Scriptless steps) :=
  inferInstanceAs (Decidable (∀ step ∈ steps, _))

theorem Scriptless.within {steps whole : List Step} (h : Scriptless whole)
    (hwithin : steps <:+: whole) : Scriptless steps := fun step hstep => h step (hwithin.mem hstep)

/-- **A resumption has captured a surface, and runs no script**: not among the steps ahead, nor in
the bodies of the loops around them or behind these. -/
structure Resumption.Placed (r : Resumption) : Prop where
  captured : r.surface.isSome = true
  scriptless : r.Throughout Scriptless

instance (r : Resumption) : Decidable r.Placed :=
  have : Decidable (r.Throughout Scriptless) := inferInstanceAs (Decidable (_ ∧ ∀ f ∈ r.frames, _))
  decidable_of_iff (r.surface.isSome = true ∧ r.Throughout Scriptless)
    ⟨fun h => ⟨h.1, h.2⟩, fun h => ⟨h.captured, h.scriptless⟩⟩

/-- An activity of a resumption that has captured a surface, and runs no script. -/
def Activity.Placed (a : Activity) : Prop :=
  a.source.surface.isSome = true ∧ a.Throughout Scriptless

namespace Hereditary

variable {σ : Type} {rig : Rig σ}

/-- A captured surface is handed on, and a wait captures one. -/
theorem captured : Hereditary rig fun a => a.source.surface.isSome = true where
  pass h := h
  close closed h := by
    obtain ⟨steps, frames, rfl⟩ := Resumption.eq_proceed closed
    exact h
  drop _ h := h
  suspend _ := rfl
  enter _ _ _ _ h := h
  rounds _ _ _ _ h := h
  leave h := h
  round h := h
  loop h := h
  nested _ h := h

/-- **Whatever has captured a surface hands it on**, over waits, rounds and bodies of loops. -/
theorem placed : Hereditary rig Activity.Placed := captured.and (.throughout Scriptless.within)

end Hereditary

/-! ## Users on the move -/

/-- Stages that differ in where their users are, the same library, and activities that have captured
a surface. -/
def Likeness.moved (table : OperatorTable) (base : Surface) : Likeness Stage where
  hosts := Stage.Reseated table base
  libraries l l' := l' = l
  plays := Activity.Placed

/-- No activity that has captured a surface looks at where the user is, unless it runs a script. -/
theorem Likeness.moved_hidden {table : OperatorTable} (unseeing : table.Unseeing) (base : Surface)
    (settings : PlaySettings) (clock : Nat → Time) :
    (Likeness.moved table base).Hidden ⟨Stage.host, settings, clock⟩ where
  hereditary := .placed
  action same _ := by rw [same]
  alert _ _ same := by
    obtain rfl := same
    rfl
  surface {s t r} _ placed := by
    obtain ⟨surface, hsurface⟩ : ∃ surface, r.surface = some surface :=
      Option.isSome_iff_exists.mp placed.1
    rw [hsurface, Option.getD_some, Option.getD_some]
  effect hosts placed effect :=
    (Stage.host_mirrors_seats unseeing base).effect effect
      (placed.2.1 _ List.mem_cons_self) hosts
  condition condition hosts :=
    (Stage.host_mirrors_seats unseeing base).evaluate condition hosts

/-- **What is resumed after a wait runs on the surface that the wait captured.** On a stage with the
built-in operators, what is scheduled has captured a surface and runs no script. Then wherever the
user has gone meanwhile, looks at the timetable end in the same way, with the same reports, and the
sessions that are left differ in nothing but where the user is: not in the library, the timetable or
the queue, and on the stage neither in the objects, properties and areas nor in the journal with its
surfaces and the areas to be drawn again. -/
theorem Session.resumed_where_captured (settings : PlaySettings) (clock : Nat → Time)
    (s : Session Stage) (usual : s.host.operators = .builtIn)
    (placed : ∀ e ∈ s.timetable.waiting, e.payload.Placed) (base : Surface) (budget : Nat)
    (moments : List Time) :
    (s.looks ⟨Stage.host, settings, clock⟩ budget moments).Matches
      (fun s' t' => t' = { s' with host := s'.host.seatedAt base })
      (({ s with host := s.host.seatedAt base }).looks ⟨Stage.host, settings, clock⟩ budget
        moments) := by
  have hidden := Likeness.moved_hidden OperatorTable.builtIn_unseeing base settings clock
  have halike : s.Alike (.moved .builtIn base) { s with host := s.host.seatedAt base } :=
    ⟨⟨usual, rfl⟩, rfl, rfl, rfl, fun e he => ⟨(placed e he).captured, (placed e he).scriptless⟩⟩
  refine (looks_matches hidden budget moments halike).imp fun s' t' alike => ?_
  obtain ⟨host, library, timetable, waits⟩ := t'
  obtain ⟨⟨-, rfl⟩, rfl, rfl, rfl, -⟩ := alike
  rfl

/-- The rounds wait, and have captured the surface that the user is on. -/
theorem timedRounds_placed :
    (Turn.rehearse 10 timedRounds).seen? (fun s => (s.pending,
      decide ((∀ e ∈ s.timetable.waiting, e.payload.Placed) ∧ s.host.scene.ambient ≠ .nowhere))) =
      some (some .suspended, 1, true) := by
  decide +kernel

theorem timedRounds_ended :
    ((Turn.rehearse 10 timedRounds).andThen fun _ s =>
      s.looks .rehearsal 10 [Time.ofMillis 500, Time.ofMillis 500]).seen?
        (fun s => s.host.journal.map JournalEntry.uiType) =
      some (some [⟨1, 0, []⟩, ⟨1, 0, []⟩], [some "VIEW_3D", some "VIEW_3D"]) := by
  decide +kernel

/-- The user leaves all windows, and the rounds go on where they have begun. -/
theorem timedRounds_stay :
    ∃ s₁ s₂, Turn.rehearse 10 timedRounds = .done .suspended s₁ ∧ s₁.pending = 1 ∧
      s₁.host.scene.ambient ≠ .nowhere ∧
      s₁.looks .rehearsal 10 [Time.ofMillis 500, Time.ofMillis 500] =
        .done [⟨1, 0, []⟩, ⟨1, 0, []⟩] s₂ ∧
      Session.looks .rehearsal 10 [Time.ofMillis 500, Time.ofMillis 500]
          { s₁ with host := s₁.host.seatedAt .nowhere } =
        .done [⟨1, 0, []⟩, ⟨1, 0, []⟩] { s₂ with host := s₂.host.seatedAt .nowhere } ∧
      s₂.host.journal.map JournalEntry.uiType = [some "VIEW_3D", some "VIEW_3D"] := by
  obtain ⟨s₁, hplay, hseen⟩ := Run.of_seen?_done timedRounds_placed
  obtain ⟨s₂, hlooks, hjournal⟩ := Run.of_seen?_done timedRounds_ended
  obtain ⟨hpending, hwaiting⟩ := Prod.mk.inj hseen
  obtain ⟨hplaced, hambient⟩ := of_decide_eq_true hwaiting
  rw [hplay, Run.andThen] at hlooks
  have hplayed : Session.play .rehearsal 10 .locals "a" (.rehearsal timedRounds) =
      .ofResult (.ok .suspended) s₁ := hplay
  have hends : Cue.Ends .rehearsal (.play .locals "a") (.rehearsal timedRounds) s₁ := .play hplayed
  have hblank : (Session.rehearsal timedRounds).host.Displays .single := ⟨rfl, rfl⟩
  have husual := (hends.upholds (Stage.host_lays.upholds _) hblank).operators
  have hmatches := Session.resumed_where_captured PlaySettings.usual (fun _ => 0) s₁ husual hplaced
    .nowhere 10 [Time.ofMillis 500, Time.ofMillis 500]
  change Run.Matches _ (s₁.looks .rehearsal 10 _) _ at hmatches
  rw [hlooks] at hmatches
  obtain ⟨t₂, hmoved, rfl⟩ := hmatches.exists_done
  exact ⟨s₁, s₂, hplay, hpending, hambient, hlooks, hmoved, hjournal⟩

end Replay
