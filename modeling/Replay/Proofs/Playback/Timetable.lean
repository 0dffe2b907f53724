import Replay.Proofs.Playback.Suspension

/-!
# Timetables over time

A timetable loses what is due to a look and gains what calls schedule, each entry under the next
number. So numbers tell entries apart, and an entry that has once been handed over does not come
back.

* `Timetable.Gains` — some more entries, numbered on from those made before
* `Timetable.Numbered` — numbers below the count of entries made, no two the same
* `Timetable.takeDue_sorted` — what is due is served in the order of deadlines, then of numbers
-/

set_option autoImplicit false

namespace Replay

variable {σ α : Type}

/-! ## The last item of a list -/

/-- An item of a list with a last one is that one, or stands before it. -/
theorem split_concat {before after items : List α} {item last : α}
    (h : before ++ item :: after = items ++ [last]) :
    (after = [] ∧ before = items ∧ item = last) ∨
      ∃ rest, after = rest ++ [last] ∧ before ++ item :: rest = items := by
  rcases List.eq_nil_or_concat after with rfl | ⟨rest, end', rfl⟩
  · obtain ⟨hbefore, hlast⟩ := List.append_inj' h rfl
    exact .inl ⟨rfl, hbefore, (List.cons.inj hlast).1⟩
  · rw [List.concat_eq_append, ← List.cons_append, ← List.append_assoc] at h
    obtain ⟨hitems, hlast⟩ := List.append_inj' h rfl
    exact .inr ⟨rest, by rw [List.concat_eq_append, hlast], hitems⟩

/-! ## What is gained -/

namespace Timetable

/-- The timetable with some more entries that are fit, numbered on from those made before. -/
def Gains (fit : TimetableEntry α → Prop) (t t' : Timetable α) : Prop :=
  ∃ new, t' = t.extended new ∧
    new.map TimetableEntry.number = List.range' t.issued new.length ∧ ∀ e ∈ new, fit e

namespace Gains

variable {fit fit' : TimetableEntry α → Prop} {t t' t'' : Timetable α}

theorem refl (t : Timetable α) : Gains fit t t := ⟨[], by simp, rfl, by simp⟩

/-- One entry more. -/
theorem schedule {deadline : Time} {payload : α} (h : fit ⟨t.issued, deadline, payload⟩) :
    Gains fit t (t.schedule deadline payload) :=
  ⟨[⟨t.issued, deadline, payload⟩], rfl, rfl, List.forall_mem_singleton.mpr h⟩

theorem trans (h : Gains fit t t') (h' : Gains fit t' t'') : Gains fit t t'' := by
  obtain ⟨new, rfl, hnumbers, hfit⟩ := h
  obtain ⟨new', rfl, hnumbers', hfit'⟩ := h'
  refine ⟨new ++ new', extended_extended t new new', ?_, ?_⟩
  · rw [List.map_append, hnumbers, hnumbers', List.length_append]
    exact List.range'_append_1
  · exact List.forall_mem_append.mpr ⟨hfit, hfit'⟩

theorem imp (weaken : ∀ e, fit e → fit' e) (h : Gains fit t t') : Gains fit' t t' := by
  obtain ⟨new, hnew, hnumbers, hfit⟩ := h
  exact ⟨new, hnew, hnumbers, fun e he => weaken e (hfit e he)⟩

/-- What all entries have, those of the longer timetable have, too. -/
theorem forall_mem (h : Gains fit t t') (hold : ∀ e ∈ t.waiting, fit e) :
    ∀ e ∈ t'.waiting, fit e := by
  obtain ⟨new, rfl, -, hfit⟩ := h
  exact List.forall_mem_append.mpr ⟨hold, hfit⟩

/-- What has been gained is what has been issued. -/
theorem count_eq (h : Gains fit t t') :
    t.issued ≤ t'.issued ∧ t'.count = t.count + (t'.issued - t.issued) := by
  obtain ⟨new, rfl, -, -⟩ := h
  simp [extended, count]

end Gains

/-! ## Numbers -/

/-- The numbers of the entries are below the count of those made, and no two are the same. -/
structure Numbered (t : Timetable α) : Prop where
  below : ∀ e ∈ t.waiting, e.number < t.issued
  distinct : (t.waiting.map TimetableEntry.number).Nodup

theorem numbered_empty : (empty : Timetable α).Numbered := ⟨by simp [empty], List.nodup_nil⟩

/-- New entries are told apart from each other and from the old ones. -/
theorem Numbered.gains {fit : TimetableEntry α → Prop} {t t' : Timetable α} (h : t.Numbered)
    (gains : Gains fit t t') : t'.Numbered := by
  obtain ⟨new, rfl, hnumbers, -⟩ := gains
  have hnew : ∀ n ∈ new.map TimetableEntry.number, t.issued ≤ n ∧ n < t.issued + new.length := by
    intro n hn
    rw [hnumbers] at hn
    exact List.mem_range'_1.mp hn
  refine ⟨List.forall_mem_append.mpr ⟨?_, ?_⟩, ?_⟩
  · intro e he
    have := h.below e he
    simp only [extended]
    omega
  · intro e he
    exact (hnew e.number (List.mem_map_of_mem he)).2
  · simp only [extended, List.map_append]
    refine List.nodup_append.mpr ⟨h.distinct, hnumbers ▸ List.nodup_range', ?_⟩
    intro n hn m hm heq
    obtain ⟨e, he, rfl⟩ := List.mem_map.mp hn
    have hbelow := h.below e he
    have habove := (hnew m hm).1
    omega

/-! ## What is due -/

/-- What is left of the timetable at a look. -/
theorem Numbered.takeDue {t : Timetable α} (h : t.Numbered) (now : Time) :
    (t.takeDue now).2.Numbered := by
  refine ⟨fun e he => h.below e (List.mem_filter.mp he).1, ?_⟩
  exact (List.filter_sublist.map TimetableEntry.number).nodup h.distinct

/-- What is handed over at a look bears different numbers. -/
theorem Numbered.takeDue_distinct {t : Timetable α} (h : t.Numbered) (now : Time) :
    ((t.takeDue now).1.map TimetableEntry.number).Nodup := by
  have hperm : (t.takeDue now).1.Perm (t.waiting.filter (TimetableEntry.isDue now)) :=
    List.mergeSort_perm _ _
  refine (hperm.map TimetableEntry.number).nodup_iff.mpr ?_
  exact (List.filter_sublist.map TimetableEntry.number).nodup h.distinct

theorem mem_takeDue_iff {t : Timetable α} {now : Time} {e : TimetableEntry α} :
    e ∈ (t.takeDue now).1 ↔ e ∈ t.waiting ∧ e.deadline ≤ now := by
  simp [takeDue, List.mem_mergeSort, TimetableEntry.isDue]

theorem mem_left_iff {t : Timetable α} {now : Time} {e : TimetableEntry α} :
    e ∈ (t.takeDue now).2.waiting ↔ e ∈ t.waiting ∧ ¬e.deadline ≤ now := by
  simp [takeDue, TimetableEntry.isDue]

/-- What is handed over and what is left make up the timetable. -/
theorem takeDue_count (t : Timetable α) (now : Time) :
    (t.takeDue now).1.length + (t.takeDue now).2.count = t.count := by
  have hsplit := List.length_eq_countP_add_countP (TimetableEntry.isDue now) (l := t.waiting)
  simpa [takeDue, count, List.countP_eq_length_filter] using hsplit.symm

/-- An entry is served before another one: its deadline is earlier, or the same and it was made
earlier. -/
def Before (a b : TimetableEntry α) : Prop :=
  a.deadline < b.deadline ∨ (a.deadline = b.deadline ∧ a.number < b.number)

section Before

variable {a b : TimetableEntry α}

theorem Before.deadline_le (h : Before a b) : a.deadline ≤ b.deadline := by
  simp only [Before, Time] at h ⊢
  omega

theorem Before.asymm (h : Before a b) : ¬Before b a := by
  simp only [Before, Time] at h ⊢
  omega

/-- An entry that was made earlier is served before another one, unless its deadline is later. -/
theorem before_of_le (deadline : a.deadline ≤ b.deadline) (number : a.number < b.number) :
    Before a b := by
  simp only [Before, Time] at deadline ⊢
  omega

end Before

/-- **What is due is served in the order of deadlines, and of numbers where those agree.** -/
theorem takeDue_sorted {t : Timetable α} (h : t.Numbered) (now : Time) :
    (t.takeDue now).1.Pairwise Before := by
  have hordered : (t.takeDue now).1.Pairwise fun a b => TimetableEntry.precedes a b = true := by
    refine List.pairwise_mergeSort ?_ ?_ _
    · intro a b c hab hbc
      simp only [TimetableEntry.precedes, decide_eq_true_eq, Time] at hab hbc ⊢
      omega
    · intro a b
      simp only [TimetableEntry.precedes, Bool.or_eq_true, decide_eq_true_eq, Time]
      omega
  have hdistinct : (t.takeDue now).1.Pairwise fun a b => a.number ≠ b.number :=
    List.pairwise_map.mp (h.takeDue_distinct now)
  refine (hordered.and hdistinct).imp ?_
  rintro a b ⟨hprecedes, hne⟩
  simp only [TimetableEntry.precedes, decide_eq_true_eq, Time] at hprecedes
  simp only [Before, Time]
  omega

end Timetable

/-- A suspension makes one entry. -/
theorem Session.suspend_gains {fit : TimetableEntry Resumption → Prop} (rig : Rig σ)
    (s : Session σ) (r : Resumption) (span : Time)
    (h : fit ⟨s.timetable.issued, Time.deadline (rig.clock s.timetable.issued) span, r⟩) :
    s.timetable.Gains fit (s.suspend rig r span).timetable :=
  .schedule h

end Replay
