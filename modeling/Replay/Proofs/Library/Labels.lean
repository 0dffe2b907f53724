import Replay.Proofs.Library.Basic
import Replay.Proofs.Text.Pieces

/-!
# Labels of actions

An action that is added under a label that is taken gets its stem with the least number that is free.
Different numbers are printed differently, however many digits they take, so of one number more than
there are taken labels one is free. Labels that are told apart therefore stay so, whatever is added
and removed.

* `Label.Extends`, `Label.Prints` — a point and digits behind a stem, and the number they print
* `Label.Tries` — the search for a free label, try after try
* `Label.exists_free` — how soon it succeeds
* `Library.Follows` — what edits leave of a library
* `Library.labels_stay_distinct` — the search ends with the least number, and edits keep labels apart
-/

set_option autoImplicit false

namespace Replay

namespace Label

open Text

/-! ## Stems and numbers -/

/-- A label is a stem, a point and digits. -/
structure Extends (label stem : String) (digits : List Char) : Prop where
  parts : label.toList = stem.toList ++ '.' :: digits
  nonempty : digits ≠ []
  digit : ∀ c ∈ digits, c.isDigit = true

/-- Digits print a number, with noughts in front if there would be fewer than three. -/
structure Prints (digits : List Char) (k : Nat) : Prop where
  digit : ∀ c ∈ digits, c.isDigit = true
  value : Nat.ofDigitChars 10 digits 0 = k
  width : digits.length = max 3 (Nat.toDigits 10 k).length

variable {label stem' : String} {digits : List Char} {j k : Nat}

/-- What is in front of a point and digits at the end is the stem. -/
theorem stem_of_extends (h : Extends label stem' digits) : stem label = stem' := by
  have hpoint : '.' ∉ digits := by
    intro hmem
    have hdigit := h.digit '.' hmem
    simp at hdigit
  have hall : digits.all Char.isDigit = true := List.all_eq_true.mpr h.digit
  rw [stem, h.parts, cutLast?_append hpoint]
  simp [h.nonempty, hall]

/-- A label without a point and digits at the end is its own stem. -/
theorem stem_eq_self (h : ∀ base digits, ¬Extends label base digits) : stem label = label := by
  unfold stem
  cases hcut : cutLast? '.' label.toList with
  | none => rfl
  | some parts =>
    obtain ⟨front, number⟩ := parts
    obtain ⟨hparts, -⟩ := of_cutLast?_eq_some hcut
    have hnone : ¬(number ≠ [] ∧ number.all Char.isDigit) := by
      rintro ⟨hsome, hall⟩
      refine h (String.ofList front) number ⟨?_, hsome, List.all_eq_true.mp hall⟩
      rw [hparts, String.toList_ofList]
    exact if_neg hnone

theorem prints_padded (k : Nat) : Prints (Time.padded 3 k) k := by
  refine ⟨?_, ?_, ?_⟩
  · intro c hc
    rcases List.mem_append.mp hc with hnought | hdigit
    · rw [(List.mem_replicate.mp hnought).2]
      rfl
    · exact Nat.isDigit_of_mem_toDigits (by decide) (by decide) hdigit
  · rw [Time.padded, Nat.ofDigitChars_append, Nat.ofDigitChars_replicate_zero, Nat.mul_zero,
      Nat.ofDigitChars_ten_toDigits]
  · rw [Time.padded, List.length_append, List.length_replicate]
    omega

theorem numbered_extends (stem : String) (k : Nat) :
    Extends (numbered stem k) stem (Time.padded 3 k) := by
  have hwidth := (prints_padded k).width
  refine ⟨String.toList_ofList, ?_, (prints_padded k).digit⟩
  intro hnone
  rw [hnone, List.length_nil] at hwidth
  omega

/-- Numbers are told apart behind the same stem. -/
theorem numbered_injective (stem : String) (h : numbered stem j = numbered stem k) : j = k := by
  have hparts := (numbered_extends stem j).parts
  rw [h, (numbered_extends stem k).parts, List.append_cancel_left_eq, List.cons.injEq] at hparts
  have hvalue := (prints_padded j).value
  rw [← hparts.2, (prints_padded k).value] at hvalue
  exact hvalue.symm

/-! ## The search -/

/-- **The search for a free label**, with the next number and how many tries follow. A candidate that
is free is the result; in place of one that is taken, the stem with the next number is tried. -/
inductive Tries (taken : List String) (stem : String) : String → Nat → Nat → String → Prop
  | free {candidate k} (free : candidate ∉ taken) : Tries taken stem candidate k 0 candidate
  | again {candidate k more result} (occupied : candidate ∈ taken)
      (rest : Tries taken stem (numbered stem k) (k + 1) more result) :
      Tries taken stem candidate k (more + 1) result

variable {taken : List String} {stem candidate result : String} {more : Nat}

namespace Tries

/-- The search has one result. -/
theorem unique {more' : Nat} {result' : String} (h : Tries taken stem candidate k more result)
    (h' : Tries taken stem candidate k more' result') : more' = more ∧ result' = result := by
  induction h generalizing more' with
  | free free =>
    cases h' with
    | free _ => exact ⟨rfl, rfl⟩
    | again occupied _ => exact absurd occupied free
  | again occupied _ ih =>
    cases h' with
    | free free => exact absurd occupied free
    | again _ rest =>
      obtain ⟨rfl, rfl⟩ := ih rest
      exact ⟨rfl, rfl⟩

theorem result_free (h : Tries taken stem candidate k more result) : result ∉ taken := by
  induction h with
  | free free => exact free
  | again _ _ ih => exact ih

/-- The numbers are tried one after the other. -/
theorem least (h : Tries taken stem (numbered stem k) (k + 1) more result) :
    result = numbered stem (k + more) ∧ ∀ j < more, numbered stem (k + j) ∈ taken := by
  induction more generalizing k with
  | zero =>
    cases h
    exact ⟨rfl, nofun⟩
  | succ more ih =>
    cases h with
    | again occupied rest =>
      obtain ⟨hresult, hbefore⟩ := ih rest
      refine ⟨by rw [hresult]; congr 1; omega, fun j hj => ?_⟩
      cases j with
      | zero => exact occupied
      | succ j =>
        have hnext := hbefore j (by omega)
        rwa [show k + 1 + j = k + (j + 1) by omega] at hnext

/-- A label that is taken gives way to the least number from one on that is free. -/
theorem of_occupied {label : String} (h : Tries taken stem label 1 more result)
    (occupied : label ∈ taken) :
    ∃ k, 1 ≤ k ∧ result = numbered stem k ∧ ∀ j, 1 ≤ j → j < k → numbered stem j ∈ taken := by
  cases h with
  | free free => exact absurd occupied free
  | @again _ _ more _ _ rest =>
    obtain ⟨hresult, hbefore⟩ := rest.least
    refine ⟨1 + more, by omega, hresult, fun j hlow hhigh => ?_⟩
    have hnumber := hbefore (j - 1) (by omega)
    rwa [Nat.add_sub_cancel' hlow] at hnumber

end Tries

/-- **Of one number more than there are taken labels one is free.** -/
theorem exists_free (taken : List String) (stem : String) (k : Nat) :
    ∃ j ≤ taken.length, numbered stem (k + j) ∉ taken := by
  by_contra hnone
  have hsubset : (List.range' k (taken.length + 1)).map (numbered stem) ⊆ taken := by
    intro label hlabel
    obtain ⟨n, hn, rfl⟩ := List.mem_map.mp hlabel
    obtain ⟨hlow, hhigh⟩ := List.mem_range'_1.mp hn
    by_contra hfree
    refine hnone ⟨n - k, by omega, ?_⟩
    rwa [Nat.add_sub_cancel' hlow]
  have hnumbers : (List.range' k (taken.length + 1)).Nodup := List.nodup_range'
  have hdistinct : ((List.range' k (taken.length + 1)).map (numbered stem)).Nodup :=
    List.pairwise_map.mpr (hnumbers.imp fun hne heq => hne (numbered_injective stem heq))
  have hlength := hdistinct.length_le_of_subset hsubset
  rw [List.length_map, List.length_range'] at hlength
  omega

/-- The first free number is found if one of those tried is free. -/
theorem firstFree_tries (taken : List String) (stem : String) : ∀ tries k,
    (∃ j ≤ tries, numbered stem (k + j) ∉ taken) →
    ∃ more ≤ tries, Tries taken stem (numbered stem k) (k + 1) more (firstFree taken stem tries k) := by
  intro tries
  induction tries with
  | zero =>
    rintro k ⟨j, hj, hfree⟩
    obtain rfl : j = 0 := by omega
    exact ⟨0, Nat.le_refl _, .free hfree⟩
  | succ tries ih =>
    rintro k ⟨j, hj, hfree⟩
    unfold firstFree
    by_cases occupied : numbered stem k ∈ taken
    · rw [if_pos (List.contains_iff_mem.mpr occupied)]
      have hlater : ∃ j ≤ tries, numbered stem (k + 1 + j) ∉ taken := by
        cases j with
        | zero => exact absurd occupied hfree
        | succ j => exact ⟨j, by omega, by rwa [Nat.add_right_comm]⟩
      obtain ⟨more, hmore, htries⟩ := ih (k + 1) hlater
      exact ⟨more + 1, by omega, .again occupied htries⟩
    · rw [if_neg fun h => occupied (List.contains_iff_mem.mp h)]
      exact ⟨0, Nat.zero_le _, .free occupied⟩

/-- **The search ends within one try more than there are taken labels.** -/
theorem unused_tries (taken : List String) (label : String) :
    ∃ more ≤ taken.length + 1, Tries taken (Label.stem label) label 1 more (unused taken label) := by
  unfold unused
  by_cases occupied : label ∈ taken
  · rw [if_pos (List.contains_iff_mem.mpr occupied)]
    obtain ⟨more, hmore, htries⟩ := firstFree_tries taken (Label.stem label) taken.length 1
      (exists_free taken _ 1)
    exact ⟨more + 1, by omega, .again occupied htries⟩
  · rw [if_neg fun h => occupied (List.contains_iff_mem.mp h)]
    exact ⟨0, Nat.zero_le _, .free occupied⟩

end Label

/-! ## Libraries -/

namespace Library

/-- No two actions of a collection bear the same label. -/
def Distinct (l : Library) : Prop := ∀ c, ((l.actions c).map Action.label).Nodup

/-- What can be done to the actions of a library. -/
inductive Edit
  | add (c : Collection) (a : Action)
  | remove (c : Collection) (id : String)

def Edit.collection : Edit → Collection
  | add c _ | remove c _ => c

/-- The library after an edit. -/
def edited (l : Library) : Edit → Library
  | .add c a => l.add c a
  | .remove c id => l.remove c id

variable {l l' : Library} {c : Collection} {edit : Edit}

theorem actions_withActions_of_ne {c' : Collection} (h : c' ≠ c) (as : List Action) :
    (l.withActions c as).actions c' = l.actions c' := by
  cases c <;> cases c' <;> first | rfl | exact absurd rfl h

/-- **An edit changes the named collection only.** -/
theorem edited_actions_of_ne (h : c ≠ edit.collection) :
    (l.edited edit).actions c = l.actions c := by
  cases edit with
  | add c' a => exact actions_withActions_of_ne h _
  | remove c' id => exact actions_withActions_of_ne h _

theorem edited_categories (l : Library) (edit : Edit) :
    (l.edited edit).categories = l.categories ∧
      (l.edited edit).selectedCategory = l.selectedCategory := by
  cases edit with
  | add c' a => cases c' <;> exact ⟨rfl, rfl⟩
  | remove c' id => cases c' <;> exact ⟨rfl, rfl⟩

/-- **Labels stay apart at an edit.** -/
theorem Distinct.edited (h : l.Distinct) (edit : Edit) : (l.edited edit).Distinct := by
  intro c
  by_cases named : c = edit.collection
  · subst named
    cases edit with
    | add c a =>
      have hfree : (l.relabelled c a).label ∉ (l.actions c).map Action.label := by
        obtain ⟨more, -, htries⟩ := Label.unused_tries ((l.actions c).map Action.label) a.label
        exact htries.result_free
      show (((l.add c a).actions c).map Action.label).Nodup
      rw [add, actions_withActions, List.map_append, List.map_singleton]
      refine List.nodup_append.mpr ⟨h c, List.pairwise_singleton _ _, ?_⟩
      rintro label hlabel _ hlast rfl
      exact hfree (List.mem_singleton.mp hlast ▸ hlabel)
    | remove c id =>
      show (((l.remove c id).actions c).map Action.label).Nodup
      rw [remove, actions_withActions]
      exact (List.eraseP_sublist.map _).nodup (h c)
  · rw [edited_actions_of_ne named]
    exact h c

/-- What edits leave of a library. -/
structure Follows (l : Library) (edits : List Edit) (l' : Library) : Prop where
  categories : l'.categories = l.categories
  selected : l'.selectedCategory = l.selectedCategory
  /-- A collection that is not named is left as it is. -/
  others : ∀ c, (∀ edit ∈ edits, edit.collection ≠ c) → l'.actions c = l.actions c
  /-- In front there are the old actions, unchanged and in order, less those removed; behind them
  there are actions that were added, under labels given to them. -/
  actions : ∀ c, ∃ old new, l'.actions c = old ++ new ∧ old.Sublist (l.actions c) ∧
    (∀ a ∈ l.actions c, .remove c a.id ∉ edits → a ∈ old) ∧
    ∀ b ∈ new, ∃ a, .add c a ∈ edits ∧ b = { a with label := b.label }

namespace Follows

variable {edits : List Edit}

theorem refl (l : Library) : l.Follows [] l := by
  refine ⟨rfl, rfl, fun _ _ => rfl, fun c => ⟨l.actions c, [], ?_, ?_, ?_, ?_⟩⟩
  · exact (List.append_nil _).symm
  · exact List.Sublist.refl _
  · exact fun a ha _ => ha
  · exact nofun

/-- One edit more. -/
theorem edited (h : l.Follows edits l') (edit : Edit) :
    l.Follows (edits ++ [edit]) (l'.edited edit) := by
  obtain ⟨hcategories, hselected⟩ := edited_categories l' edit
  refine ⟨hcategories.trans h.categories, hselected.trans h.selected, ?_, ?_⟩
  · intro c hother
    obtain ⟨hbefore, hlast⟩ := List.forall_mem_append.mp hother
    have hne : c ≠ edit.collection := (List.forall_mem_singleton.mp hlast).symm
    rw [edited_actions_of_ne hne, h.others c hbefore]
  · intro c
    obtain ⟨old, new, hactions, hold, hkept, hnew⟩ := h.actions c
    have hkept' : ∀ a ∈ l.actions c, .remove c a.id ∉ edits ++ [edit] → a ∈ old :=
      fun a ha hnot => hkept a ha fun hmem => hnot (List.mem_append_left _ hmem)
    have hnew' : ∀ b ∈ new, ∃ a, .add c a ∈ edits ++ [edit] ∧ b = { a with label := b.label } := by
      intro b hb
      obtain ⟨a, ha, hlabel⟩ := hnew b hb
      exact ⟨a, List.mem_append_left _ ha, hlabel⟩
    by_cases named : c = edit.collection
    · subst named
      cases edit with
      | add c a =>
        refine ⟨old, new ++ [l'.relabelled c a], ?_, hold, hkept', ?_⟩
        · show (l'.add c a).actions c = _
          rw [add, actions_withActions, ← List.append_assoc, ← hactions]
          rfl
        · refine List.forall_mem_append.mpr ⟨hnew', List.forall_mem_singleton.mpr ⟨a, ?_, rfl⟩⟩
          exact List.mem_append_right _ (List.mem_singleton_self _)
      | remove c id =>
        have hremoved : (l'.edited (.remove c id)).actions c =
            (old ++ new).eraseP fun a => a.id == id := by
          show (l'.remove c id).actions c = _
          rw [remove, actions_withActions]
          exact congrArg _ hactions
        rw [List.eraseP_append] at hremoved
        by_cases first : (old.any fun a => a.id == id) = true
        · rw [if_pos first] at hremoved
          refine ⟨_, new, hremoved, List.eraseP_sublist.trans hold, fun a ha hnot => ?_, hnew'⟩
          have hother : ¬(a.id == id) = true := by
            intro hid
            refine hnot (List.mem_append_right _ (List.mem_singleton.mpr ?_))
            rw [beq_iff_eq.mp hid]
            rfl
          exact (List.mem_eraseP_of_neg (p := fun a : Action => a.id == id) hother).mpr
            (hkept' a ha hnot)
        · rw [if_neg first] at hremoved
          exact ⟨old, _, hremoved, hold, hkept', fun b hb => hnew' b (List.mem_of_mem_eraseP hb)⟩
    · exact ⟨old, new, (edited_actions_of_ne named).trans hactions, hold, hkept', hnew'⟩

/-- Edit after edit. -/
theorem foldl (later : List Edit) :
    ∀ {edits l'}, l.Follows edits l' → l.Follows (edits ++ later) (later.foldl Library.edited l') := by
  induction later with
  | nil =>
    intro edits l' h
    rwa [List.append_nil]
  | cons edit later ih =>
    intro edits l' h
    have hrest := ih (h.edited edit)
    rwa [List.append_assoc] at hrest

end Follows

theorem Distinct.foldl (edits : List Edit) :
    ∀ {l : Library}, l.Distinct → (edits.foldl Library.edited l).Distinct := by
  induction edits with
  | nil => exact fun h => h
  | cons edit later ih => exact fun h => ih (h.edited edit)

/-- **Labels stay unique.** The search for a free label ends within one try more than there are
taken labels, and has one result, which is free: the label itself if that is free, and otherwise its
stem with the least number from one on that is. The stem is what is in front of a point and digits at
the end, or else all of it; a number is printed with three digits at least. So, whatever is added and
removed, labels that are told apart stay so, actions that are not removed stay as they are, and no
collection changes that is not named. -/
theorem labels_stay_distinct :
    (∀ (taken : List String) (label : String),
      (∃ more ≤ taken.length + 1, ∀ n result,
        Label.Tries taken (Label.stem label) label 1 n result ↔
          n = more ∧ result = Label.unused taken label) ∧
      Label.unused taken label ∉ taken ∧
      (label ∉ taken → Label.unused taken label = label) ∧
      (label ∈ taken → ∃ k, 1 ≤ k ∧ Label.unused taken label = Label.numbered (Label.stem label) k ∧
        ∀ j, 1 ≤ j → j < k → Label.numbered (Label.stem label) j ∈ taken)) ∧
    (∀ label stem digits, Label.Extends label stem digits → Label.stem label = stem) ∧
    (∀ label, (∀ stem digits, ¬Label.Extends label stem digits) → Label.stem label = label) ∧
    (∀ stem k, ∃ digits, Label.Extends (Label.numbered stem k) stem digits ∧
      Label.Prints digits k) ∧
    ∀ (l : Library) (edits : List Edit), l.Follows edits (edits.foldl edited l) ∧
      (l.Distinct → (edits.foldl edited l).Distinct) := by
  refine ⟨fun taken label => ?_, fun _ _ _ => Label.stem_of_extends, fun _ => Label.stem_eq_self,
    fun stem k => ⟨_, Label.numbered_extends stem k, Label.prints_padded k⟩, fun l edits => ?_⟩
  · obtain ⟨more, hmore, htries⟩ := Label.unused_tries taken label
    refine ⟨⟨more, hmore, fun n result => ?_⟩, htries.result_free, ?_, htries.of_occupied⟩
    · constructor
      · exact fun h => htries.unique h
      · rintro ⟨rfl, rfl⟩
        exact htries
    · intro hfree
      exact (htries.unique (.free hfree)).2.symm
  · exact ⟨(Follows.refl l).foldl edits, fun distinct => distinct.foldl edits⟩

/-- Two actions, the second of which bears the stem of the first one with a number. -/
def numberedPair : Library :=
  { empty with locals := [.titled "a" "Step", .titled "b" "Step.001"] }

/-- An action with a label that is taken, and another one behind a number that has become free. -/
def numberedEdits : List Edit :=
  [.add .locals (.titled "c" "Step.001"), .remove .locals "b", .add .locals (.titled "d" "Step")]

example : ((numberedEdits.foldl edited numberedPair).actions .locals).map Action.label =
    ["Step", "Step.002", "Step.001"] := by
  decide +kernel

theorem numberedPair_stays_distinct :
    numberedPair.Distinct ∧ (numberedEdits.foldl edited numberedPair).Distinct ∧
    (∃ k, 1 ≤ k ∧ Label.unused ["Step", "Step.001"] "Step.001" =
      Label.numbered (Label.stem "Step.001") k) ∧
    Label.Extends "Step.001" "Step" ['0', '0', '1'] ∧ Label.stem "Step.001" = "Step" := by
  obtain ⟨hsearch, hstem, -, -, hedits⟩ := labels_stay_distinct
  have hdistinct : numberedPair.Distinct := by
    intro c
    cases c <;> decide +kernel
  have hextends : Label.Extends "Step.001" "Step" ['0', '0', '1'] :=
    ⟨by decide +kernel, List.cons_ne_nil _ _, List.all_eq_true.mp rfl⟩
  obtain ⟨-, -, -, hoccupied⟩ := hsearch ["Step", "Step.001"] "Step.001"
  obtain ⟨k, hlow, hresult, -⟩ := hoccupied (by decide +kernel)
  exact ⟨hdistinct, (hedits numberedPair numberedEdits).2 hdistinct, ⟨k, hlow, hresult⟩, hextends,
    hstem _ _ _ hextends⟩

end Library

end Replay
