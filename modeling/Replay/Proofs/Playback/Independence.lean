import Replay.Proofs.Library.Alerts
import Replay.Proofs.Playback.Chronicle
import Replay.Proofs.Playback.Lockstep

/-!
# What is resumed does not depend on the library

A resumption holds copies of the steps that are left, so of its action it asks two things only:
whether it is still there, and how its commands treat the selected objects. All else in a library
may be edited while something waits.

* `Library.AgreesOn` — two libraries answer these two questions alike
* `Library.agreesOn_raiseAlert` — they still do after a failure
* `Session.resumed_regardless_of_edits` — then what is resumed is the same
-/

set_option autoImplicit false

namespace Replay

/-! ## Libraries that agree on an action -/

namespace Library

/-- An action is in both libraries or in neither, and its commands treat the selected objects in the
same way. -/
def AgreesOn (c : Collection) (id : String) (l l' : Library) : Prop :=
  (l'.action? c id).map Action.grouping = (l.action? c id).map Action.grouping

instance (c : Collection) (id : String) (l l' : Library) : Decidable (AgreesOn c id l l') :=
  inferInstanceAs (Decidable (_ = _))

theorem AgreesOn.symm {c : Collection} {id : String} {l l' : Library} (h : AgreesOn c id l l') :
    AgreesOn c id l' l := Eq.symm h

theorem AgreesOn.trans {c : Collection} {id : String} {l₁ l₂ l₃ : Library}
    (h : AgreesOn c id l₁ l₂) (h' : AgreesOn c id l₂ l₃) : AgreesOn c id l₁ l₃ := Eq.trans h' h

/-- Where nothing but flags differs, the same actions are found. -/
theorem AlertsRise.agreesOn {l l' : Library} (h : l.AlertsRise l') (c : Collection) (id : String) :
    AgreesOn c id l l' := by
  have hactions := h.actions c
  unfold AgreesOn Library.action?
  generalize l.actions c = as, l'.actions c = bs at hactions ⊢
  induction hactions with
  | nil => rfl
  | @cons a a' _ _ ha _ ih =>
    have hid : a'.id = a.id := by rw [← ha.same]
    have hgrouping : a'.grouping = a.grouping := by rw [← ha.same]
    rw [List.find?_cons, List.find?_cons, hid]
    split
    · exact congrArg some hgrouping
    · exact ih

/-- **Libraries agree after a failure on what they agreed on before.** -/
theorem agreesOn_raiseAlert {c : Collection} {id : String} {l l' : Library}
    (h : AgreesOn c id l l') (c' : Collection) (id' stepId : String) :
    AgreesOn c id (l.raiseAlert c' id' stepId) (l'.raiseAlert c' id' stepId) :=
  ((alertsRise_raiseAlert l c' id' stepId).agreesOn c id).symm.trans
    (h.trans ((alertsRise_raiseAlert l' c' id' stepId).agreesOn c id))

end Library

variable {σ : Type}

/-! ## Activities of some actions -/

/-- An action, by its collection and its id. -/
abbrev ActionName := Collection × String

/-- The action that a resumption is part of. -/
def Resumption.actionName (r : Resumption) : ActionName := (r.collection, r.actionId)

/-- The activities of an action go on with activities of that action. -/
theorem Hereditary.actionName {rig : Rig σ} (named : ActionName → Prop) :
    Hereditary rig fun a => named a.source.actionName where
  pass h := h
  close closed h := by
    obtain ⟨steps, frames, rfl⟩ := Resumption.eq_proceed closed
    exact h
  drop _ h := h
  suspend h := h
  enter _ _ _ _ h := h
  rounds _ _ _ _ h := h
  leave h := h
  round h := h
  loop h := h
  nested _ h := h

/-- The same host, libraries that agree on some actions, and activities of these. -/
def Likeness.edited (named : ActionName → Prop) : Likeness σ where
  hosts s t := t = s
  libraries l l' := ∀ name, named name → l.AgreesOn name.1 name.2 l'
  plays a := named a.source.actionName

/-- No activity looks at more of a library than whether its action is there, and how its commands
treat the selected objects. -/
theorem Likeness.edited_hidden (named : ActionName → Prop) (rig : Rig σ) :
    (Likeness.edited named).Hidden rig where
  hereditary := .actionName named
  action agree plays := agree _ plays
  alert r stepId agree name hname :=
    Library.agreesOn_raiseAlert (agree name hname) r.collection r.actionId stepId
  surface hosts _ := by rw [hosts]
  effect hosts _ _ := by
    obtain rfl := hosts
    exact ⟨rfl, rfl⟩
  condition _ hosts := by
    obtain rfl := hosts
    exact ⟨rfl, rfl⟩

/-! ## Edits while something waits -/

/-- **What is resumed does not depend on the library**, but for the existence of the actions that
are scheduled and the way in which their commands treat the selected objects. Whatever the host, the
settings, the clock and the moments of the looks: the looks end in the same way, with the same
reports, and leave the same host, the same timetable and the same queue of waits for a render. -/
theorem Session.resumed_regardless_of_edits (rig : Rig σ) (s : Session σ) (edited : Library)
    (agree : ∀ e ∈ s.timetable.waiting,
      s.library.AgreesOn e.payload.collection e.payload.actionId edited)
    (budget : Nat) (moments : List Time) :
    (s.looks rig budget moments).Matches
      (fun s' t' => t'.host = s'.host ∧ t'.timetable = s'.timetable ∧ t'.waits = s'.waits)
      (({ s with library := edited }).looks rig budget moments) := by
  let named : ActionName → Prop := fun name =>
    ∃ e ∈ s.timetable.waiting, e.payload.actionName = name
  have hlibraries : ∀ name, named name → s.library.AgreesOn name.1 name.2 edited := by
    rintro _ ⟨e, he, rfl⟩
    exact agree e he
  have halike : s.Alike (.edited named) { s with library := edited } :=
    ⟨rfl, hlibraries, rfl, rfl, fun e he => ⟨e, he, rfl⟩⟩
  refine (looks_matches (Likeness.edited_hidden named rig) budget moments halike).imp ?_
  exact fun s' t' alike => ⟨alike.host, alike.timetable, alike.waits⟩

/-- The library of a rehearsal after an edit: the action has another label, and none of its steps is
left. -/
def Library.stripped : Library := { Library.empty with locals := [.titled "a" "b"] }

/-- The rounds wait while the library is edited. -/
theorem timedRounds_waiting :
    (Turn.rehearse 10 timedRounds).seen? (fun s => (s.pending,
      decide (∀ e ∈ s.timetable.waiting,
        s.library.AgreesOn e.payload.collection e.payload.actionId .stripped))) =
      some (some .suspended, 1, true) := by
  decide +kernel

theorem timedRounds_finished :
    ((Turn.rehearse 10 timedRounds).andThen fun _ s =>
      s.looks .rehearsal 10 [Time.ofMillis 500, Time.ofMillis 500]).seen?
        (fun s => s.host.journal.length) = some (some [⟨1, 0, []⟩, ⟨1, 0, []⟩], 2) := by
  decide +kernel

/-- The rounds go on and come to their end, whatever has become of their action. -/
theorem timedRounds_unaffected :
    ∃ s₁ s₂ t₂, Turn.rehearse 10 timedRounds = .done .suspended s₁ ∧ s₁.pending = 1 ∧
      s₁.looks .rehearsal 10 [Time.ofMillis 500, Time.ofMillis 500] =
        .done [⟨1, 0, []⟩, ⟨1, 0, []⟩] s₂ ∧ s₂.host.journal.length = 2 ∧
      (Session.looks .rehearsal 10 [Time.ofMillis 500, Time.ofMillis 500]
        { s₁ with library := .stripped }) = .done [⟨1, 0, []⟩, ⟨1, 0, []⟩] t₂ ∧
      t₂.host = s₂.host ∧ t₂.timetable = s₂.timetable ∧ t₂.waits = s₂.waits := by
  obtain ⟨s₁, hplay, hwaiting⟩ := Run.of_seen?_done timedRounds_waiting
  obtain ⟨s₂, hlooks, hjournal⟩ := Run.of_seen?_done timedRounds_finished
  obtain ⟨hpending, hagree⟩ := Prod.mk.inj hwaiting
  rw [hplay, Run.andThen] at hlooks
  have hmatches := Session.resumed_regardless_of_edits .rehearsal s₁ .stripped
    (of_decide_eq_true hagree) 10 [Time.ofMillis 500, Time.ofMillis 500]
  rw [hlooks] at hmatches
  obtain ⟨t₂, hedited, hrelated⟩ := hmatches.exists_done
  exact ⟨s₁, s₂, t₂, hplay, hpending, hlooks, hjournal, hedited, hrelated⟩

end Replay
