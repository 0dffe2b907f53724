import Replay.Proofs.Library.Basic
import Replay.Proofs.Playback.Timetable

/-!
# Ledgers

A ledger lists what has been done to one timetable since it was new: which entries were made, and
which ones each look was given. The entries may be held in any order, and may be put into another
one at any time, and looks may be at any moments, earlier ones than before included. Still an entry
is given out by the first look behind it that comes to its deadline, and by no other.

* `Timetable.Calls` — what one call writes down
* `Timetable.Ledger` — what has been written down by now
* `Timetable.Ledger.perm` — nothing is lost or doubled
* `Timetable.takeEach_dueKeys` — entries that are collected and then taken out one by one
* `Timetable.Ledger.given_once` — the account of each entry, of each look and of what remains
-/

set_option autoImplicit false

namespace Replay

variable {α : Type}

namespace Timetable

/-! ## Lines -/

/-- What is written down of a call: the entry that it has made, or the moment of a look and what the
look was given. -/
inductive Line (α : Type)
  | made (e : TimetableEntry α)
  | look (now : Time) (due : List (TimetableEntry α))

namespace Line

def made? : Line α → Option (TimetableEntry α)
  | made e => some e
  | look _ _ => none

def due : Line α → List (TimetableEntry α)
  | made _ => []
  | look _ due => due

/-- The line is a look at a moment not before the deadline of an entry. -/
def Reaches (line : Line α) (e : TimetableEntry α) : Prop :=
  match line with
  | made _ => False
  | look now _ => e.deadline ≤ now

end Line

/-- The entries that were made, in order. -/
def scheduled (lines : List (Line α)) : List (TimetableEntry α) := lines.filterMap Line.made?

/-- The entries that looks were given, in order. -/
def given (lines : List (Line α)) : List (TimetableEntry α) := lines.flatMap Line.due

@[simp] theorem scheduled_concat (lines : List (Line α)) (line : Line α) :
    scheduled (lines ++ [line]) = scheduled lines ++ line.made?.toList := by
  rw [scheduled, List.filterMap_append]
  cases line <;> rfl

@[simp] theorem given_concat (lines : List (Line α)) (line : Line α) :
    given (lines ++ [line]) = given lines ++ line.due := by
  rw [given, List.flatMap_append, List.flatMap_singleton, ← given]

/-- A call that changes the timetable, and what is written down of it. -/
inductive Calls (t : Timetable α) : Line α → Timetable α → Prop
  | schedule (deadline : Time) (payload : α) :
      Calls t (.made ⟨t.issued, deadline, payload⟩) (t.schedule deadline payload)
  | look (now : Time) : Calls t (.look now (t.takeDue now).1) (t.takeDue now).2

namespace Calls

variable {t t' : Timetable α} {line : Line α} {e : TimetableEntry α}

/-- A deadline may be given by a span after a reading of the clock, whatever that is. -/
theorem scheduleAfter (t : Timetable α) (now span : Time) (payload : α) :
    Calls t (.made ⟨t.issued, Time.deadline now span, payload⟩) (t.scheduleAfter now span payload) :=
  .schedule _ _

/-- The entry that is made bears the next number. -/
theorem numbers (h : Calls t line t') :
    List.range t.issued ++ line.made?.toList.map TimetableEntry.number = List.range t'.issued := by
  cases h with
  | schedule deadline payload => exact List.range_succ.symm
  | look now => exact List.append_nil _

/-- What is held after a call and what the call has given out, is what was held before it and what
it has made. -/
theorem perm (h : Calls t line t') :
    (t'.waiting ++ line.due).Perm (t.waiting ++ line.made?.toList) := by
  cases h with
  | schedule deadline payload => exact .of_eq (List.append_nil _)
  | look now =>
    have hgiven : (t.takeDue now).1.Perm (t.waiting.filter (TimetableEntry.isDue now)) :=
      List.mergeSort_perm _ _
    have hsplit : (t.waiting.filter (TimetableEntry.isDue now) ++ (t.takeDue now).2.waiting).Perm
        t.waiting := List.filter_append_perm _ _
    calc (t.takeDue now).2.waiting ++ (t.takeDue now).1
      _ |>.Perm ((t.takeDue now).2.waiting ++ t.waiting.filter (TimetableEntry.isDue now)) :=
        hgiven.append_left _
      _ |>.Perm (t.waiting.filter (TimetableEntry.isDue now) ++ (t.takeDue now).2.waiting) :=
        List.perm_append_comm
      _ |>.Perm t.waiting := hsplit
      _ = t.waiting ++ [] := (List.append_nil _).symm

/-- A look is given what it reaches of what is held. -/
theorem mem_due_iff (h : Calls t line t') : e ∈ line.due ↔ e ∈ t.waiting ∧ line.Reaches e := by
  cases h with
  | schedule deadline payload => simp [Line.due, Line.Reaches]
  | look now => exact mem_takeDue_iff

/-- An old entry stays unless the call is a look that reaches it. -/
theorem mem_waiting_iff (h : Calls t line t') (old : e.number < t.issued) :
    e ∈ t'.waiting ↔ e ∈ t.waiting ∧ ¬line.Reaches e := by
  cases h with
  | look now => exact mem_left_iff
  | schedule deadline payload =>
    have hother : e ≠ ⟨t.issued, deadline, payload⟩ := by
      rintro rfl
      exact Nat.lt_irrefl _ old
    simp [Timetable.schedule, Line.Reaches, hother]

/-- What a look is given is ordered by deadlines, and by numbers where those agree. -/
theorem sorted (h : Calls t line t') (numbered : t.Numbered) : line.due.Pairwise Before := by
  cases h with
  | schedule deadline payload => exact .nil
  | look now => exact takeDue_sorted numbered now

end Calls

/-! ## Ledgers -/

/-- **What has been written down of a timetable since it was new**, and the timetable by now. The
entries are held in no particular order. -/
inductive Ledger : List (Line α) → Timetable α → Prop
  | new : Ledger [] .empty
  | call {lines t line t'} (before : Ledger lines t) (calls : Calls t line t') :
      Ledger (lines ++ [line]) t'
  | rearranged {lines t order} (before : Ledger lines t) (same : order.Perm t.waiting) :
      Ledger lines { t with waiting := order }

namespace Ledger

variable {lines earlier later : List (Line α)} {line : Line α} {t : Timetable α}
  {e : TimetableEntry α}

/-- The entries bear the numbers that have been issued, in the order in which they were made. -/
theorem numbers (h : Ledger lines t) :
    (scheduled lines).map TimetableEntry.number = List.range t.issued := by
  induction h with
  | new => rfl
  | rearranged before same ih => exact ih
  | call before calls ih =>
    rw [scheduled_concat, List.map_append, ih]
    exact calls.numbers

/-- **Nothing is lost or doubled**: what is held and what looks were given is what has been made. -/
theorem perm (h : Ledger lines t) : (t.waiting ++ given lines).Perm (scheduled lines) := by
  have hswap : ∀ a b c : List (TimetableEntry α), (a ++ (b ++ c)).Perm (a ++ c ++ b) := by
    intro a b c
    rw [List.append_assoc]
    exact List.perm_append_comm.append_left a
  induction h with
  | new => exact .nil
  | rearranged before same ih => exact (same.append_right _).trans ih
  | @call lines t line t' before calls ih =>
    rw [scheduled_concat, given_concat]
    calc t'.waiting ++ (given lines ++ line.due)
      _ |>.Perm (t'.waiting ++ line.due ++ given lines) := hswap _ _ _
      _ |>.Perm (t.waiting ++ line.made?.toList ++ given lines) := calls.perm.append_right _
      _ |>.Perm (t.waiting ++ (given lines ++ line.made?.toList)) := (hswap _ _ _).symm
      _ = t.waiting ++ given lines ++ line.made?.toList := (List.append_assoc _ _ _).symm
      _ |>.Perm (scheduled lines ++ line.made?.toList) := ih.append_right _

theorem scheduled_nodup (h : Ledger lines t) :
    ((scheduled lines).map TimetableEntry.number).Nodup := by
  rw [h.numbers]
  exact List.nodup_range

/-- What is held and what looks were given, are entries of different numbers. -/
theorem distinct (h : Ledger lines t) :
    (t.waiting ++ given lines).Pairwise fun a b => a.number ≠ b.number :=
  List.pairwise_map.mp ((h.perm.map _).nodup_iff.mpr h.scheduled_nodup)

theorem number_lt (h : Ledger lines t) (he : e ∈ scheduled lines) : e.number < t.issued := by
  have hnumber := List.mem_map_of_mem (f := TimetableEntry.number) he
  rw [h.numbers] at hnumber
  exact List.mem_range.mp hnumber

theorem numbered (h : Ledger lines t) : t.Numbered := by
  constructor
  · intro e he
    exact h.number_lt (h.perm.subset (List.mem_append_left _ he))
  · exact List.pairwise_map.mpr (List.pairwise_append.mp h.distinct).1

/-- What is held has been made, and has not been given to a look. -/
theorem mem_waiting_iff (h : Ledger lines t) :
    e ∈ t.waiting ↔ e ∈ scheduled lines ∧ e ∉ given lines := by
  have hdisjoint := (List.pairwise_append.mp h.distinct).2.2
  rw [← h.perm.mem_iff, List.mem_append]
  constructor
  · intro he
    exact ⟨.inl he, fun hgiven => hdisjoint e he e hgiven rfl⟩
  · rintro ⟨held | hgiven, hnot⟩
    · exact held
    · exact absurd hgiven hnot

/-- The lines before some line, and the call of which it was written down. -/
theorem until_line (h : Ledger (earlier ++ line :: later) t) :
    ∃ t₁ t₂, Ledger earlier t₁ ∧ Calls t₁ line t₂ := by
  generalize hlines : earlier ++ line :: later = lines at h
  induction h generalizing later with
  | new => simp at hlines
  | rearranged before same ih => exact ih hlines
  | @call lines t last t' before calls ih =>
    rcases split_concat hlines with ⟨rfl, rfl, rfl⟩ | ⟨rest, rfl, hinit⟩
    · exact ⟨t, t', before, calls⟩
    · exact ih hinit

/-- **An entry is held until a look comes to its deadline.** -/
theorem held_iff (h : Ledger (earlier ++ .made e :: later) t) :
    e ∈ t.waiting ↔ ∀ line ∈ later, ¬line.Reaches e := by
  generalize hlines : earlier ++ .made e :: later = lines at h
  induction h generalizing later with
  | new => simp at hlines
  | rearranged before same ih => exact same.mem_iff.trans (ih hlines)
  | @call lines t last t' before calls ih =>
    rcases split_concat hlines with ⟨rfl, rfl, rfl⟩ | ⟨rest, rfl, hinit⟩
    · cases calls with
      | schedule deadline payload => simp [Timetable.schedule]
    · have hmade : e ∈ scheduled lines := List.mem_filterMap.mpr ⟨.made e, by simp [← hinit], rfl⟩
      rw [calls.mem_waiting_iff (before.number_lt hmade), ih hinit, List.forall_mem_append,
        List.forall_mem_singleton]

/-- **A look is given an entry if it comes to its deadline, and no look between has.** -/
theorem due_iff {between rest : List (Line α)}
    (h : Ledger (earlier ++ .made e :: (between ++ line :: rest)) t) :
    e ∈ line.due ↔ (∀ x ∈ between, ¬x.Reaches e) ∧ line.Reaches e := by
  rw [← List.cons_append, ← List.append_assoc] at h
  obtain ⟨t₁, t₂, before, calls⟩ := h.until_line
  rw [calls.mem_due_iff, before.held_iff]

/-- No look is given an entry before it is made. -/
theorem not_due (h : Ledger (earlier ++ .made e :: later) t) : ∀ line ∈ earlier, e ∉ line.due := by
  intro line hline hdue
  obtain ⟨t₁, t₂, before, calls⟩ := h.until_line
  have hmade : e ∈ scheduled earlier :=
    before.perm.subset (List.mem_append_right _ (List.mem_flatMap.mpr ⟨line, hline, hdue⟩))
  have hnumber := before.number_lt hmade
  cases calls with
  | schedule deadline payload => exact Nat.lt_irrefl _ hnumber

/-- What each look was given is in order. -/
theorem sorted (h : Ledger lines t) (hline : line ∈ lines) : line.due.Pairwise Before := by
  obtain ⟨earlier, later, rfl⟩ := List.append_of_mem hline
  obtain ⟨t₁, t₂, before, calls⟩ := h.until_line
  exact calls.sorted before.numbered

end Ledger

/-! ## One entry after the other -/

/-- Takes out the entries of some numbers, one after the other. -/
def takeEach : List Nat → List (TimetableEntry α) → List (TimetableEntry α) × List (TimetableEntry α)
  | [], held => ([], held)
  | n :: rest, held =>
    match held.find? fun e => e.number == n with
    | none => takeEach rest held
    | some e =>
      let (taken, left) := takeEach rest (held.filter fun e => e.number != n)
      (e :: taken, left)

/-- Whether a deadline and a number are no later than another deadline and number. -/
def keyPrecedes (a b : Time × Nat) : Bool := decide (a.1 < b.1 ∨ (a.1 = b.1 ∧ a.2 ≤ b.2))

/-- The deadlines and numbers of the entries that are due, in order. -/
def dueKeys (held : List (TimetableEntry α)) (now : Time) : List (Time × Nat) :=
  ((held.filter (TimetableEntry.isDue now)).map fun e => (e.deadline, e.number)).mergeSort
    keyPrecedes

/-- Entries that are told apart by their numbers are taken out one after the other. -/
theorem takeEach_eq {due : List (TimetableEntry α)} (several : (due.map TimetableEntry.number).Nodup) :
    ∀ held : List (TimetableEntry α), (held.map TimetableEntry.number).Nodup → (∀ e ∈ due, e ∈ held) →
      takeEach (due.map TimetableEntry.number) held =
        (due, held.filter fun e => !(due.map TimetableEntry.number).contains e.number) := by
  induction due with
  | nil =>
    intro held _ _
    exact congrArg (Prod.mk []) (List.filter_eq_self.mpr fun _ _ => rfl).symm
  | cons e rest ih =>
    intro held distinct hheld
    obtain ⟨hother, hrest⟩ := List.nodup_cons.mp several
    have hfound : held.find? (fun x => x.number == e.number) = some e :=
      find?_of_mem distinct (hheld e List.mem_cons_self)
    have hstill : ∀ x ∈ rest, x ∈ held.filter fun x => x.number != e.number := by
      intro x hx
      have hne : x.number ≠ e.number := fun heq => hother (heq ▸ List.mem_map_of_mem hx)
      exact List.mem_filter.mpr ⟨hheld x (List.mem_cons_of_mem _ hx), by simpa using hne⟩
    have hdistinct : ((held.filter fun x => x.number != e.number).map
        TimetableEntry.number).Nodup := (List.filter_sublist.map _).nodup distinct
    rw [List.map_cons, takeEach, hfound]
    simp only [ih hrest _ hdistinct hstill, List.filter_filter, Prod.mk.injEq, true_and]
    refine List.filter_congr fun x _ => ?_
    rw [List.contains_cons, Bool.not_or, Bool.and_comm]
    rfl

/-- What is collected in any order and then ordered, is what a look is given. -/
theorem dueKeys_eq {t : Timetable α} {order : List (TimetableEntry α)}
    (same : order.Perm t.waiting) (now : Time) :
    dueKeys order now = (t.takeDue now).1.map fun e => (e.deadline, e.number) := by
  have hsorted (keys : List (Time × Nat)) :
      (keys.mergeSort keyPrecedes).Pairwise fun a b => keyPrecedes a b = true := by
    refine List.pairwise_mergeSort ?_ ?_ keys
    · intro a b c hab hbc
      simp only [keyPrecedes, decide_eq_true_eq, Time] at hab hbc ⊢
      omega
    · intro a b
      simp only [keyPrecedes, Bool.or_eq_true, decide_eq_true_eq, Time]
      omega
  have hgiven : (t.takeDue now).1.map (fun e => (e.deadline, e.number)) = dueKeys t.waiting now :=
    List.map_mergeSort fun _ _ _ _ => rfl
  have hperm : (dueKeys order now).Perm (dueKeys t.waiting now) :=
    (List.mergeSort_perm _ _).trans
      (((same.filter _).map _).trans (List.mergeSort_perm _ _).symm)
  rw [hgiven]
  refine hperm.eq_of_pairwise ?_ (hsorted _) (hsorted _)
  rintro ⟨deadline, number⟩ ⟨deadline', number'⟩ - - hab hba
  simp only [keyPrecedes, decide_eq_true_eq, Time] at hab hba
  have hdeadline : deadline = deadline' := Nat.le_antisymm (by omega) (by omega)
  have hnumber : number = number' := by omega
  rw [hdeadline, hnumber]

/-- **It makes no difference to collect what is due, in whatever order the entries are held, and then
to take it out one after the other.** -/
theorem takeEach_dueKeys {t : Timetable α} {order : List (TimetableEntry α)} (numbered : t.Numbered)
    (same : order.Perm t.waiting) (now : Time) :
    (takeEach ((dueKeys order now).map Prod.snd) order).1 = (t.takeDue now).1 ∧
    (takeEach ((dueKeys order now).map Prod.snd) order).2.Perm (t.takeDue now).2.waiting := by
  have hkeys : (dueKeys order now).map Prod.snd =
      (t.takeDue now).1.map TimetableEntry.number := by
    rw [dueKeys_eq same now, List.map_map]
    rfl
  have hdistinct : (order.map TimetableEntry.number).Nodup :=
    (same.map _).nodup_iff.mpr numbered.distinct
  have hheld : ∀ e ∈ (t.takeDue now).1, e ∈ order := fun e he =>
    same.mem_iff.mpr (mem_takeDue_iff.mp he).1
  have hleft : (order.filter fun e =>
      !((t.takeDue now).1.map TimetableEntry.number).contains e.number) =
        order.filter fun e => !e.isDue now := by
    refine List.filter_congr fun e he => ?_
    have hwaiting : e ∈ t.waiting := same.mem_iff.mp he
    have hgiven : e.number ∈ (t.takeDue now).1.map TimetableEntry.number ↔ e.deadline ≤ now := by
      constructor
      · intro hnumber
        obtain ⟨x, hx, hsame⟩ := List.mem_map.mp hnumber
        obtain ⟨hxwaiting, hdeadline⟩ := mem_takeDue_iff.mp hx
        have hfound := find?_of_mem numbered.distinct hxwaiting
        rw [hsame, find?_of_mem numbered.distinct hwaiting] at hfound
        cases hfound
        exact hdeadline
      · exact fun hdeadline => List.mem_map_of_mem (mem_takeDue_iff.mpr ⟨hwaiting, hdeadline⟩)
    have hsame : ((t.takeDue now).1.map TimetableEntry.number).contains e.number = e.isDue now := by
      rw [Bool.eq_iff_iff, List.contains_iff_mem, hgiven, TimetableEntry.isDue, decide_eq_true_iff]
    rw [hsame]
  rw [hkeys, takeEach_eq (numbered.takeDue_distinct now) order hdistinct hheld, hleft]
  exact ⟨rfl, same.filter _⟩

/-- The next deadline is the earliest one. -/
theorem nextDeadline?_eq_some {t : Timetable α} {deadline : Time} :
    t.nextDeadline? = some deadline ↔
      (∃ e ∈ t.waiting, e.deadline = deadline) ∧ ∀ e ∈ t.waiting, deadline ≤ e.deadline := by
  rw [nextDeadline?, List.min?_eq_some_iff]
  simp only [List.mem_map, forall_exists_index, and_imp, forall_apply_eq_imp_iff₂]

/-! ## The account -/

/-- What becomes of an entry, by what was written down before and after it was made. -/
structure Accounts (t : Timetable α) (earlier : List (Line α)) (e : TimetableEntry α)
    (later : List (Line α)) : Prop where
  /-- It is still held if no look has come to its deadline. -/
  held : e ∈ t.waiting ↔ ∀ line ∈ later, ¬line.Reaches e
  notBefore : ∀ line ∈ earlier, e ∉ line.due
  /-- The first look that comes to its deadline is given it, and no other one is. -/
  once : ∀ between line rest, later = between ++ line :: rest →
    (e ∈ line.due ↔ (∀ x ∈ between, ¬x.Reaches e) ∧ line.Reaches e)

/-- **Each entry is given out once**, to the first look behind it that comes to its deadline, however
the clock runs and in whatever order the entries are held. The numbers are those issued, one after
the other; what is held and what looks were given is what has been made; and each look is given what
is due in the order of deadlines, then of numbers. So the count is what has been made less what looks
were given, and the next deadline is the earliest one of what remains. What is due may as well be
collected in any order, ordered by deadlines and numbers, and taken out one after the other. -/
theorem Ledger.given_once {lines : List (Line α)} {t : Timetable α} (h : Ledger lines t) :
    (scheduled lines).map TimetableEntry.number = List.range t.issued ∧
    (t.waiting ++ given lines).Perm (scheduled lines) ∧
    (∀ earlier e later, lines = earlier ++ .made e :: later → t.Accounts earlier e later) ∧
    (∀ line ∈ lines, line.due.Pairwise Before) ∧
    t.count + (given lines).length = (scheduled lines).length ∧
    (∀ deadline, t.nextDeadline? = some deadline ↔
      (∃ e ∈ scheduled lines, e ∉ given lines ∧ e.deadline = deadline) ∧
        ∀ e ∈ scheduled lines, e ∉ given lines → deadline ≤ e.deadline) ∧
    ∀ order now, order.Perm t.waiting →
      (takeEach ((dueKeys order now).map Prod.snd) order).1 = (t.takeDue now).1 ∧
      (takeEach ((dueKeys order now).map Prod.snd) order).2.Perm (t.takeDue now).2.waiting := by
  refine ⟨h.numbers, h.perm, ?_, fun line => h.sorted, ?_, ?_, ?_⟩
  · rintro earlier e later rfl
    refine ⟨h.held_iff, h.not_due, ?_⟩
    rintro between line rest rfl
    exact h.due_iff
  · rw [← h.perm.length_eq, List.length_append, count]
  · intro deadline
    simp only [nextDeadline?_eq_some, h.mem_waiting_iff, and_imp, and_assoc]
  · exact fun order now same => takeEach_dueKeys h.numbered same now

/-- Two entries of one deadline, and an earlier one of a later deadline, held in some order. -/
def crowded : Timetable String :=
  ⟨3, [⟨2, 20, "second"⟩, ⟨0, 30, "late"⟩, ⟨1, 20, "first"⟩]⟩

/-- Three entries are made, and the clock steps back behind a look. -/
def crowdedLines : List (Line String) :=
  [.made ⟨0, 30, "late"⟩, .made ⟨1, 20, "first"⟩, .made ⟨2, 20, "second"⟩,
    .look 20 (crowded.takeDue 20).1, .look 10 []]

theorem crowded_ledger : Ledger crowdedLines ⟨3, [⟨0, 30, "late"⟩]⟩ := by
  have hdeadline : Time.deadline 15 5 = 20 := by decide +kernel
  have hlast := Calls.scheduleAfter
    ((Timetable.empty.schedule 30 "late").schedule 20 "first") 15 5 "second"
  have hmade := ((Ledger.new.call (.schedule 30 "late")).call (.schedule 20 "first")).call hlast
  have horder : crowded.waiting.Perm [⟨0, 30, "late"⟩, ⟨1, 20, "first"⟩, ⟨2, 20, "second"⟩] := by
    decide
  rw [Timetable.scheduleAfter, hdeadline] at hmade
  have hheld : Ledger (crowdedLines.take 3) crowded := hmade.rearranged horder
  have hnone : ((crowded.takeDue 20).2.takeDue 10).1 = [] := List.mergeSort_nil
  have hlooked := (hheld.call (.look 20)).call (.look 10)
  rw [hnone] at hlooked
  exact hlooked

theorem crowded_given_once :
    Ledger crowdedLines ⟨3, [⟨0, 30, "late"⟩]⟩ ∧
    Accounts ⟨3, [⟨0, 30, "late"⟩]⟩ [.made ⟨0, 30, "late"⟩] ⟨1, 20, "first"⟩
      (crowdedLines.drop 2) ∧
    (crowded.takeDue 20).1.Pairwise Before ∧ (crowded.takeDue 20).1.length = 2 := by
  obtain ⟨-, -, haccounts, hsorted, hcount, -⟩ := Ledger.given_once crowded_ledger
  refine ⟨crowded_ledger, haccounts _ _ _ rfl, ?_, ?_⟩
  · exact hsorted (.look 20 (crowded.takeDue 20).1) (by simp [crowdedLines])
  · have hgiven : (given crowdedLines).length = (crowded.takeDue 20).1.length := by
      simp [given, crowdedLines, Line.due]
    have hmade : (scheduled crowdedLines).length = 3 := rfl
    have hheld : (⟨3, [⟨0, 30, "late"⟩]⟩ : Timetable String).count = 1 := rfl
    omega

end Timetable

end Replay
