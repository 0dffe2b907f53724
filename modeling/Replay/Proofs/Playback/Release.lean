import Replay.Proofs.Playback.Chronicle
import Replay.Proofs.Playback.Termination

/-!
# What a render releases

A signal that a render is complete empties the queue of waits. One after the other they are released
or dropped, and each one that is released is scheduled under the next number, at a deadline that
depends on a reading of the clock of its own. The looks that follow serve what is scheduled in the
order of deadlines and numbers, so no wait overtakes an earlier one while the clock does not run
backwards.

* `Releases` — what is released of a queue
* `Session.renderComplete_spec` — a signal empties the queue, and schedules what is released
* `Chronicle.servedFirst` — looks serve what is scheduled in order, whatever comes in between
* `Session.released_in_order` — so they serve what a signal has released in the order of the queue
-/

set_option autoImplicit false

namespace Replay

variable {σ : Type}

/-! ## What is released -/

namespace RenderWait

/-- The action of a wait and the step at which it goes on are still there. -/
def Stands (l : Library) (w : RenderWait) : Prop :=
  ∃ action, l.action? w.collection w.actionId = some action ∧ ∃ step ∈ action.steps, step.id = w.stepId

/-- What a wait is released as: the active ones of the steps from its step on, to the end of the
action as it is now, afresh and outside every loop. -/
inductive Revives (l : Library) (w : RenderWait) : Resumption → Prop
  | revived {action before step behind} (found : l.action? w.collection w.actionId = some action)
      (steps : action.steps = before ++ step :: behind) (here : step.id = w.stepId)
      (first : ∀ x ∈ before, x.id ≠ w.stepId) :
      Revives l w ⟨w.collection, w.actionId, (step :: behind).filter Step.active, [], none, true, 0⟩

end RenderWait

/-- What is scheduled of some waits, one after the other, if the next number is `n`. Each wait that
stands makes one entry, by a reading of the clock of its own; one that no longer stands makes none,
and leaves the number to the next. -/
inductive Rig.Releases (rig : Rig σ) (l : Library) :
    Nat → List RenderWait → List (TimetableEntry Resumption) → Prop
  | nothing {n} : Releases rig l n [] []
  | revived {n w waits r new} (revives : w.Revives l r) (rest : Releases rig l (n + 1) waits new) :
      Releases rig l n (w :: waits)
        (⟨n, Time.deadline (rig.clock n) rig.settings.resumeSpan, r⟩ :: new)
  | dropped {n w waits new} (gone : ¬w.Stands l) (rest : Releases rig l n waits new) :
      Releases rig l n (w :: waits) new

namespace Rig.Releases

variable {rig : Rig σ} {l : Library} {n : Nat} {waits : List RenderWait}
  {new : List (TimetableEntry Resumption)}

/-- Numbers go on, and the later entries have the higher ones. -/
theorem numbers (h : rig.Releases l n waits new) :
    (∀ e ∈ new, n ≤ e.number) ∧ new.Pairwise fun a b => a.number < b.number := by
  induction h with
  | nothing => simp
  | dropped _ _ ih => exact ih
  | revived _ _ ih =>
    obtain ⟨habove, hincreasing⟩ := ih
    refine ⟨List.forall_mem_cons.mpr ⟨Nat.le_refl _, ?_⟩, List.pairwise_cons.mpr ⟨?_, hincreasing⟩⟩
    · intro e he
      exact Nat.le_of_succ_le (habove e he)
    · intro e he
      exact habove e he

theorem deadline (h : rig.Releases l n waits new) {e : TimetableEntry Resumption} (he : e ∈ new) :
    e.deadline = Time.deadline (rig.clock e.number) rig.settings.resumeSpan := by
  induction h with
  | nothing => cases he
  | dropped _ _ ih => exact ih he
  | revived _ _ ih =>
    rcases List.mem_cons.mp he with rfl | he
    · rfl
    · exact ih he

end Rig.Releases

/-- The step at a place is the first one of its id. -/
theorem Action.steps_of_stepIndex? {a : Action} {id : String} {index : Nat}
    (h : a.stepIndex? id = some index) :
    ∃ before step behind, a.steps = before ++ step :: behind ∧
      a.steps.drop index = step :: behind ∧ step.id = id ∧ ∀ x ∈ before, x.id ≠ id := by
  obtain ⟨hindex, hstep, hbefore⟩ := List.findIdx?_eq_some_iff_getElem.mp h
  have hdrop : a.steps.drop index = a.steps[index] :: a.steps.drop (index + 1) :=
    List.drop_eq_getElem_cons hindex
  refine ⟨a.steps.take index, a.steps[index], a.steps.drop (index + 1), ?_, hdrop,
    by simpa using hstep, ?_⟩
  · rw [← hdrop, List.take_append_drop]
  · intro x hx
    obtain ⟨place, hplace, rfl⟩ := List.mem_iff_getElem.mp hx
    rw [List.length_take] at hplace
    have hother := hbefore place (by omega)
    simpa [List.getElem_take] using hother

namespace Session

/-- **What is done with some waits**, one after the other. -/
theorem releaseEach_spec (rig : Rig σ) (waits : List RenderWait) : ∀ (n : Nat) (s : Session σ),
    ∃ new, rig.Releases s.library s.timetable.issued waits new ∧
      releaseEach rig waits n s =
        (n + new.length, { s with timetable := s.timetable.extended new }) := by
  induction waits with
  | nil => exact fun n s => ⟨[], .nothing, by simp [releaseEach]⟩
  | cons w rest ih =>
    intro n s
    unfold releaseEach
    cases found : s.library.action? w.collection w.actionId with
    | none =>
      have hgone : ¬w.Stands s.library := by
        rintro ⟨action, hfound, -⟩
        cases found.symm.trans hfound
      obtain ⟨new, hreleases, hrun⟩ := ih n s
      exact ⟨new, .dropped hgone hreleases, hrun⟩
    | some action =>
      cases place : action.stepIndex? w.stepId with
      | none =>
        have hgone : ¬w.Stands s.library := by
          rintro ⟨action', hfound, step, hstep, hid⟩
          cases found.symm.trans hfound
          have hother := List.findIdx?_eq_none_iff.mp place step hstep
          simp [hid] at hother
        obtain ⟨new, hreleases, hrun⟩ := ih n s
        exact ⟨new, .dropped hgone hreleases, by simpa only [place] using hrun⟩
      | some index =>
        obtain ⟨before, step, behind, hsteps, hdrop, hid, hfirst⟩ := Action.steps_of_stepIndex? place
        have hrevives : w.Revives s.library
            (.start w.collection action.id (action.steps.drop index)) := by
          rw [Library.id_of_action? found, Resumption.start, hdrop]
          exact .revived found hsteps hid hfirst
        obtain ⟨new, hreleases, hrun⟩ := ih (n + 1) (s.suspend rig _ rig.settings.resumeSpan)
        refine ⟨_ :: new, .revived hrevives hreleases, ?_⟩
        simp only [place]
        rw [hrun, suspend_timetable, Timetable.extended_extended, List.length_cons]
        refine Prod.ext ?_ rfl
        show n + 1 + new.length = n + (new.length + 1)
        omega

/-- **A signal that a render is complete** empties the queue, schedules what is released of it, and
counts that; nothing else changes. -/
theorem renderComplete_spec (rig : Rig σ) (s : Session σ) :
    ∃ new, rig.Releases s.library s.timetable.issued s.waits new ∧
      s.renderComplete rig =
        (new.length, { s with waits := [], timetable := s.timetable.extended new }) := by
  obtain ⟨new, hreleases, hrun⟩ := releaseEach_spec rig s.waits 0 { s with waits := [] }
  rw [Nat.zero_add] at hrun
  exact ⟨new, hreleases, hrun⟩

end Session

/-! ## The order in which looks serve -/

/-- What some calls hand over, one after the other. -/
def Episode.served (calls : List Episode) : List (TimetableEntry Resumption) :=
  calls.flatMap Episode.due

/-- What holds of some item of a list holds of a first one. -/
theorem exists_first {α : Type} {P : α → Prop} {l : List α} (h : ∃ x ∈ l, P x) :
    ∃ before x after, l = before ++ x :: after ∧ P x ∧ ∀ y ∈ before, ¬P y := by
  induction l with
  | nil => simp at h
  | cons y rest ih =>
    by_cases hy : P y
    · exact ⟨[], y, rest, rfl, hy, by simp⟩
    · have hrest : ∃ x ∈ rest, P x := by simpa [hy] using h
      obtain ⟨before, x, after, rfl, hx, hnone⟩ := ih hrest
      exact ⟨y :: before, x, after, rfl, hx, List.forall_mem_cons.mpr ⟨hy, hnone⟩⟩

/-- Whenever an entry is served, another one has been served before it. -/
def ServedFirst (served : List (TimetableEntry Resumption)) (a b : TimetableEntry Resumption) :
    Prop :=
  ∀ front back, served = front ++ b :: back → a ∈ front

/-- What is served is handed over by one of the calls, behind all that those before it hand over. -/
theorem Episode.exists_of_served {calls : List Episode} {front back : List (TimetableEntry Resumption)}
    {e : TimetableEntry Resumption} (h : served calls = front ++ e :: back) :
    ∃ between d rest first later, calls = between ++ d :: rest ∧ d.due = first ++ e :: later ∧
      front = served between ++ first := by
  induction calls generalizing front with
  | nil => simp [served] at h
  | cons d rest ih =>
    have hsplit : d.due ++ served rest = front ++ e :: back := h
    rcases List.append_eq_append_iff.mp hsplit with ⟨inner, rfl, hrest⟩ | ⟨inner, hdue, hinner⟩
    · obtain ⟨between, d', rest', first, later, rfl, hdue, rfl⟩ := ih hrest
      exact ⟨d :: between, d', rest', first, later, rfl, hdue, by simp [served]⟩
    · cases inner with
      | nil =>
        have hrest : served rest = [] ++ e :: back := hinner.symm
        obtain ⟨between, d', rest', first, later, rfl, hdue', hnone⟩ := ih hrest
        have hfront : d.due = front := by rwa [List.append_nil] at hdue
        refine ⟨d :: between, d', rest', first, later, rfl, hdue', ?_⟩
        rw [served, List.flatMap_cons, ← served, List.append_assoc, ← hnone, hfront,
          List.append_nil]
      | cons e' later =>
        obtain ⟨rfl, -⟩ := List.cons.inj hinner
        exact ⟨[], d, rest, front, later, rfl, hdue, rfl⟩

namespace Chronicle

variable {settings : PlaySettings} {calls earlier later : List Episode} {c : Episode}
  {t : Timetable Resumption} {waits : List RenderWait} {a b e : TimetableEntry Resumption}

/-- What is scheduled after some call is handed over by the first look that finds it due. -/
theorem due_iff {between rest : List Episode} {d : Episode}
    (h : Chronicle settings (earlier ++ c :: (between ++ d :: rest)) t waits)
    (he : e ∈ c.after.waiting) :
    e ∈ d.due ↔ (∀ x ∈ between, ¬x.Reaches e) ∧ d.Reaches e := by
  rw [← List.cons_append, ← List.append_assoc] at h
  obtain ⟨⟨_, hbefore⟩, -⟩ := h.until_episode
  rw [← (hbefore.stays_iff he).2]
  exact Cue.mem_taken_iff

/-- What is scheduled after some call is served if a look finds it due, and only then. -/
theorem served_iff (h : Chronicle settings (earlier ++ c :: later) t waits)
    (he : e ∈ c.after.waiting) : e ∈ Episode.served later ↔ ∃ d ∈ later, d.Reaches e := by
  constructor
  · intro hserved
    obtain ⟨d, hd, hdue⟩ := List.mem_flatMap.mp hserved
    obtain ⟨between, rest, rfl⟩ := List.append_of_mem hd
    exact ⟨d, hd, ((h.due_iff he).mp hdue).2⟩
  · intro hreached
    obtain ⟨between, d, rest, rfl, hreaches, hnone⟩ := exists_first hreached
    exact List.mem_flatMap.mpr ⟨d, by simp, (h.due_iff he).mpr ⟨hnone, hreaches⟩⟩

/-- **Of two entries that are scheduled at some time the one that is before the other is served
first**, whatever is called from then on. -/
theorem servedFirst (h : Chronicle settings (earlier ++ c :: later) t waits)
    (ha : a ∈ c.after.waiting) (hb : b ∈ c.after.waiting) (hab : Timetable.Before a b) :
    ServedFirst (Episode.served later) a b := by
  intro front back hserved
  obtain ⟨between, d, rest, first, last, rfl, hdue, rfl⟩ := Episode.exists_of_served hserved
  have hhanded : b ∈ d.due := by simp [hdue]
  obtain ⟨-, now, hlook, hdeadline⟩ := (h.due_iff hb).mp hhanded
  have hd := h
  rw [← List.cons_append, ← List.append_assoc] at hd
  obtain ⟨⟨_, hbefore⟩, -⟩ := hd.until_episode
  by_cases hreached : ∃ x ∈ between, x.Reaches a
  · exact List.mem_append_left _ ((hbefore.served_iff ha).mpr hreached)
  · -- the look that hands over `b` finds `a` due, too, and takes both in order
    have hearlier : a.deadline ≤ now := Nat.le_trans hab.deadline_le hdeadline
    have hdue' : a ∈ d.due :=
      (h.due_iff ha).mpr ⟨fun x hx hreaches => hreached ⟨x, hx, hreaches⟩, now, hlook, hearlier⟩
    have hsorted : (first ++ b :: last).Pairwise Timetable.Before :=
      hdue ▸ Cue.taken_sorted hbefore.numbered
    rw [hdue, List.mem_append] at hdue'
    rcases hdue' with hfirst | hlast
    · exact List.mem_append_right _ hfirst
    · have hbehind := List.pairwise_cons.mp (List.pairwise_append.mp hsorted).2.1
      rcases List.mem_cons.mp hlast with rfl | hlast
      · exact absurd hab hab.asymm
      · exact absurd (hbehind.1 a hlast) hab.asymm

/-- Nothing is served twice. -/
theorem served_nodup (h : Chronicle settings calls t waits) : (Episode.served calls).Nodup := by
  induction h with
  | new => exact List.nodup_nil
  | @episode σ rig calls cue s s' before same ends ih =>
    have hdue : (Episode.due ⟨cue, s.timetable, s'.timetable⟩).Nodup := by
      refine (Cue.taken_sorted before.numbered).imp ?_
      rintro x _ hxy rfl
      exact hxy.asymm hxy
    rw [Episode.served, List.flatMap_append, List.flatMap_singleton]
    refine List.nodup_append.mpr ⟨ih, hdue, ?_⟩
    rintro x hx y hy rfl
    -- what has been served is no longer scheduled
    have hwaiting : x ∈ s.timetable.waiting := (Cue.mem_taken_iff.mp hy).1
    obtain ⟨c, hc, hmade⟩ := before.exists_made hwaiting
    obtain ⟨first, rest, rfl⟩ := List.append_of_mem hc
    have hnone := (before.waiting_iff hmade).mp hwaiting
    obtain ⟨d, hd, hdue⟩ := List.mem_flatMap.mp hx
    have hsplit : d ∈ (first ++ [c]) ∨ d ∈ rest := by simpa [or_assoc] using hd
    rcases hsplit with hearlier | hlater
    · exact before.not_due hmade d hearlier hdue
    · exact hnone d hlater (Cue.mem_taken_iff.mp hdue).2

/-- So it is in the course of a chronicle. -/
theorem served_nodup_of_append (h : Chronicle settings (earlier ++ later) t waits) :
    (Episode.served later).Nodup := by
  have hall := h.served_nodup
  rw [Episode.served, List.flatMap_append] at hall
  exact (List.nodup_append.mp hall).2.1

end Chronicle

/-- The turns of a look are those of the resumptions that are due, in order, less those dropped. -/
theorem Resumes.turns_sublist {rig : Rig σ} {rs : List Resumption} {s s' : Session σ}
    {takes : List Take} (h : Resumes rig rs s takes s') :
    (takes.map Take.turn).Sublist (rs.map Turn.resume) := by
  induction h with
  | nothing => exact .slnil
  | dropped _ _ ih => exact ih.cons _
  | taken _ _ _ ih => exact ih.cons_cons _

/-! ## Releases and looks -/

/-- While the clock can show them, deadlines do not run backwards unless it does. -/
theorem Time.deadline_mono {now later span : Time} (h : now ≤ later)
    (shown : later + span < clockEnd) : deadline now span ≤ deadline later span := by
  have hshown : now + span < clockEnd := Nat.lt_of_le_of_lt (Nat.add_le_add_right h span) shown
  rw [deadline, deadline, if_pos shown, if_pos hshown]
  exact Nat.add_le_add_right h span

/-- **A signal that a render is complete releases every wait once and in order.** Whatever the
session: the queue is emptied, each wait that still stands makes one entry, over the active steps
from its own to the end of the action as it is now, those that no longer stand make none, and the
number of the entries is returned. Whatever is called from then on: an entry so made is served if a
look finds it due, and once only; entries that were already scheduled for the same moment or an
earlier one are served before it; and so are the entries of the waits that were queued before its
own, if the clock does not run backwards and can show its deadline. A look runs what it serves in
this order, save what it drops since the action is gone. -/
theorem Session.released_in_order (rig : Rig σ) (s : Session σ) :
    ∃ new, rig.Releases s.library s.timetable.issued s.waits new ∧
      s.renderComplete rig =
        (new.length, { s with waits := [], timetable := s.timetable.extended new }) ∧
      (∀ earlier later t waits,
        Chronicle rig.settings
          (earlier ++ ⟨.rendered, s.timetable, s.timetable.extended new⟩ :: later) t waits →
        (Episode.served later).Nodup ∧
        (∀ e ∈ new, (e ∈ Episode.served later ↔ ∃ d ∈ later, d.Reaches e)) ∧
        (∀ o ∈ s.timetable.waiting, ∀ e ∈ new, o.deadline ≤ e.deadline →
          ServedFirst (Episode.served later) o e) ∧
        ((∀ m n, m ≤ n → rig.clock m ≤ rig.clock n) → new.Pairwise fun a b =>
          rig.clock b.number + rig.settings.resumeSpan < Time.clockEnd →
            ServedFirst (Episode.served later) a b)) ∧
      ∀ {τ : Type} (rig' : Rig τ) (s₁ s₂ : Session τ) budget now report,
        s₁.tick rig' budget now = .done report s₂ →
        ∃ takes, Resumes rig' ((s₁.timetable.takeDue now).1.map TimetableEntry.payload)
            { s₁ with timetable := (s₁.timetable.takeDue now).2 } takes s₂ ∧
          (takes.map Take.turn).Sublist
            ((s₁.timetable.takeDue now).1.map fun e => .resume e.payload) := by
  obtain ⟨new, hreleases, hrun⟩ := s.renderComplete_spec rig
  refine ⟨new, hreleases, hrun, ?_, ?_⟩
  · intro earlier later t waits h
    have hnew : ∀ e ∈ new, e ∈ (s.timetable.extended new).waiting := fun e he =>
      List.mem_append_right _ he
    have hold : ∀ o ∈ s.timetable.waiting, o ∈ (s.timetable.extended new).waiting := fun o ho =>
      List.mem_append_left _ ho
    obtain ⟨⟨_, hbefore⟩, -⟩ := h.until_episode
    obtain ⟨habove, hincreasing⟩ := hreleases.numbers
    refine ⟨?_, fun e he => h.served_iff (hnew e he), ?_, ?_⟩
    · rw [← List.singleton_append, ← List.append_assoc] at h
      exact h.served_nodup_of_append
    · intro o ho e he hdeadline
      have hnumber : o.number < e.number :=
        Nat.lt_of_lt_of_le (hbefore.numbered.below o ho) (habove e he)
      exact h.servedFirst (hold o ho) (hnew e he) (Timetable.before_of_le hdeadline hnumber)
    · intro forward
      refine hincreasing.imp_of_mem ?_
      intro a b ha hb hnumber shown
      have hdeadline : a.deadline ≤ b.deadline := by
        rw [hreleases.deadline ha, hreleases.deadline hb]
        exact Time.deadline_mono (forward _ _ (Nat.le_of_lt hnumber)) shown
      exact h.servedFirst (hnew a ha) (hnew b hb) (Timetable.before_of_le hdeadline hnumber)
  · intro τ rig' s₁ s₂ budget now report run
    obtain ⟨takes, hresumes, -⟩ := tick_iff_resumes.mp ⟨budget, run⟩
    refine ⟨takes, hresumes, ?_⟩
    have hsublist := hresumes.turns_sublist
    rwa [List.map_map] at hsublist

/-- A timer, and a command behind a wait for a render. -/
def timedRender (command : String) : List Step := [
  .recorded "t" "ar.event:\x7b\"Type\":\"Timer\",\"Time\":0.1\x7d",
  .recorded "r" "ar.event:\x7b\"Type\":\"Render Complete\"\x7d",
  .recorded command "bpy.context.scene.x = 1"]

/-- The action is played with other steps. -/
def Session.replay (s : Session Stage) (steps : List Step) : Run Stage Outcome :=
  { s with library := (Session.rehearsal steps).library }.play .rehearsal 10 .locals "a"

/-- The steps of the action are changed and changed back, so that the second wait is lost. -/
def lostWait : Run Stage Outcome :=
  (Turn.rehearse 10 (timedRender "x")).andThen fun _ s =>
    (s.replay (timedRender "y")).andThen fun _ s => s.replay (timedRender "x")

theorem lostWait_queued :
    lostWait.seen? (fun s => (s.waits.map RenderWait.stepId, s.timetable.listing)) =
      some (some .suspended, ["x", "y", "x"], 3, [0, 1, 2].map fun n => (n, Time.ofMillis 100)) := by
  decide +kernel

/-- Two resumptions more are scheduled by the signal, and none of the five has a loop. -/
theorem lostWait_signalled :
    lostWait.seen? (fun s => ((s.renderComplete .rehearsal).1,
      (s.renderComplete .rehearsal).2.timetable.waiting.map fun e =>
        (e.deadline, decide (e.payload.Throughout Unconditional)))) =
      some (some .suspended, 2, List.replicate 5 (Time.ofMillis 100, true)) := by
  decide +kernel

theorem lostWait_released :
    ∃ s earlier looked new t waits, lostWait = .done .suspended s ∧
      s.waits.map RenderWait.stepId = ["x", "y", "x"] ∧ s.timetable.count = 3 ∧ new.length = 2 ∧
      Chronicle .usual (earlier ++ ⟨.rendered, s.timetable, s.timetable.extended new⟩ :: [looked])
        t waits ∧
      (∀ e ∈ new, e ∈ Episode.served [looked]) ∧
      (∀ o ∈ s.timetable.waiting, ∀ e ∈ new, ServedFirst (Episode.served [looked]) o e) ∧
      new.Pairwise (ServedFirst (Episode.served [looked])) := by
  obtain ⟨s, hrun, hqueued⟩ := Run.of_seen?_done lostWait_queued
  obtain ⟨hqueue, hlisting⟩ := Prod.mk.inj hqueued
  obtain ⟨_, hrun', hsignalled⟩ := Run.of_seen?_done lostWait_signalled
  cases hrun.symm.trans hrun'
  obtain ⟨hcount, hmade⟩ := Prod.mk.inj hsignalled
  obtain ⟨outcome₁, s₁, hplay₁, hrest⟩ := Run.of_andThen_done hrun
  obtain ⟨outcome₂, s₂, hplay₂, hplay₃⟩ := Run.of_andThen_done hrest
  obtain ⟨new, -, hrelease, hordered, -⟩ := Session.released_in_order .rehearsal s
  have hafter : (s.renderComplete .rehearsal).2.timetable = s.timetable.extended new := by
    rw [hrelease]
  have hheld : ∀ e ∈ (s.timetable.extended new).waiting,
      e.deadline = Time.ofMillis 100 ∧ e.payload.Throughout Unconditional := by
    intro e he
    have hmem := List.mem_map_of_mem (f := fun e => (e.deadline,
      decide (e.payload.Throughout Unconditional))) he
    rw [← hafter, hmade] at hmem
    simpa using List.eq_of_mem_replicate hmem
  obtain ⟨budget, report, s', hlook⟩ : ∃ budget report s', ∀ n, budget ≤ n →
      (s.renderComplete .rehearsal).2.tick .rehearsal n (Time.ofMillis 100) = .done report s' :=
    Session.tick_ends_of fun e he _ => Activity.ends ⟨(hheld e (hafter ▸ he)).2, nofun⟩
  have hfirst : (Session.rehearsal (timedRender "x")).play .rehearsal 10 .locals "a" =
      .ofResult (.ok outcome₁) s₁ := hplay₁
  have hsecond : Session.play .rehearsal 10 .locals "a"
      { s₁ with library := (Session.rehearsal (timedRender "y")).library } =
      .ofResult (.ok outcome₂) s₂ := hplay₂
  have hthird : Session.play .rehearsal 10 .locals "a"
      { s₂ with library := (Session.rehearsal (timedRender "x")).library } =
      .ofResult (.ok .suspended) s := hplay₃
  have hplayed₁ := Chronicle.episode (s := .rehearsal (timedRender "x")) .new rfl (.play hfirst)
  have hplayed₂ := Chronicle.episode
    (s := { s₁ with library := (Session.rehearsal (timedRender "y")).library })
    hplayed₁ rfl (.play hsecond)
  have hplayed₃ := Chronicle.episode
    (s := { s₂ with library := (Session.rehearsal (timedRender "x")).library })
    hplayed₂ rfl (.play hthird)
  have hended := (hplayed₃.episode rfl .rendered).episode rfl (.look (hlook budget (Nat.le_refl _)))
  rw [hafter, List.append_assoc] at hended
  obtain ⟨-, hserved, hold, hreleased⟩ := hordered _ [_] _ _ hended
  have hnew : ∀ e ∈ new, e.deadline = Time.ofMillis 100 := fun e he =>
    (hheld e (List.mem_append_right _ he)).1
  refine ⟨s, _, _, new, _, _, hrun, hqueue, ?_, ?_, hended, ?_, ?_, ?_⟩
  · simpa [Timetable.count] using congrArg List.length (Prod.mk.inj hlisting).2
  · rw [hrelease] at hcount
    exact hcount
  · intro e he
    exact (hserved e he).mpr ⟨_, List.mem_singleton_self _, _, rfl, Nat.le_of_eq (hnew e he)⟩
  · intro o ho e he
    have hsame : o.deadline = e.deadline :=
      (hheld o (List.mem_append_left _ ho)).1.trans (hnew e he).symm
    exact hold o ho e he (Nat.le_of_eq hsame)
  · have hshown : 0 + PlaySettings.usual.resumeSpan < Time.clockEnd := by decide +kernel
    exact (hreleased fun _ _ _ => Nat.le_refl _).imp fun first => first hshown

end Replay
