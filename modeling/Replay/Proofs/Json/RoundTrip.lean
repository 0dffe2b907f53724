import Replay.Proofs.Json.Scanning

/-!
# Reading what has been written

A value that is written, without blanks or over several lines, is read back as the same value: its
strings with all their characters, its integers if 64 bits hold them, and its doubles as far as they
are read back at all. A double is written with the fewest digits that tell it from all others, but
reading rounds more than once, so not every double is.

* `Binary64.Retained` — a double that is read back
* `Json.Within` — a value of which all integers have 64 bits and all doubles a property
* `Json.document_write_of` — reading what has been written, in either layout
* `Json.document_write` — the same of a line without blanks
* `Json.readLenient_indented` — the same of several lines, at any depth
-/

set_option autoImplicit false

namespace Replay

/-- A double is read back from how it is written, if it is finite. -/
def Binary64.Retained (x : Binary64) : Prop :=
  x.isFinite = true → Json.read (Json.compact (.float x)) = .ok (.float x)

namespace Json

/-! ## Values that can be read back -/

mutual

/-- Every part of a value denotes something, its integers have 64 bits, and its doubles are fit. -/
def Within (fit : Binary64 → Prop) : Json → Prop
  | null | bool _ | text _ => True
  | int i => Word.leastInt ≤ i ∧ i ≤ Word.greatest
  | float x => fit x
  | list items => ItemsWithin fit items
  | object members => MembersWithin fit members
  | unreadable => False

/-- The same of every item. -/
def ItemsWithin (fit : Binary64 → Prop) : List Json → Prop
  | [] => True
  | j :: rest => j.Within fit ∧ ItemsWithin fit rest

/-- The same of the value of every member. -/
def MembersWithin (fit : Binary64 → Prop) : List (String × Json) → Prop
  | [] => True
  | (_, j) :: rest => j.Within fit ∧ MembersWithin fit rest

end

/-- A double that is finite and read back. -/
def Lasting (x : Binary64) : Prop := x.isFinite = true ∧ x.Retained

/-! ## Items and members -/

section Parts

variable {fit : Binary64 → Prop}

theorem itemsWithin_iff {items : List Json} :
    ItemsWithin fit items ↔ ∀ j ∈ items, j.Within fit := by
  induction items with
  | nil => simp [ItemsWithin]
  | cons j rest ih => simp [ItemsWithin, ih]

theorem membersWithin_iff {members : List (String × Json)} :
    MembersWithin fit members ↔ ∀ m ∈ members, m.2.Within fit := by
  induction members with
  | nil => simp [MembersWithin]
  | cons m rest ih => simp [MembersWithin, ih]

theorem itemsWithin_map {α : Type} {write : α → Json} (within : ∀ a, (write a).Within fit)
    (as : List α) : ItemsWithin fit (as.map write) := by
  refine itemsWithin_iff.mpr fun j hj => ?_
  obtain ⟨a, -, rfl⟩ := List.mem_map.mp hj
  exact within a

/-- A list is read back if each of its items is. -/
theorem asListOf?_map {α : Type} {read : Json → Option α} {write : α → Json}
    (back : ∀ a, read (write a) = some a) (as : List α) :
    (list (as.map write)).asListOf? read = some as := by
  have hread : read ∘ write = pure := funext back
  show (as.map write).mapM read = some as
  rw [List.mapM_map, hread, List.mapM_pure, List.map_id']
  rfl

theorem itemsDepth_le {items : List Json} {n : Nat} (h : ∀ j ∈ items, j.depth ≤ n) :
    itemsDepth items ≤ n := by
  induction items with
  | nil => exact Nat.zero_le n
  | cons j rest ih =>
    obtain ⟨hj, hrest⟩ := List.forall_mem_cons.mp h
    exact Nat.max_le.mpr ⟨hj, ih hrest⟩

theorem membersDepth_le {members : List (String × Json)} {n : Nat}
    (h : ∀ m ∈ members, m.2.depth ≤ n) : membersDepth members ≤ n := by
  induction members with
  | nil => exact Nat.zero_le n
  | cons m rest ih =>
    obtain ⟨hm, hrest⟩ := List.forall_mem_cons.mp h
    exact Nat.max_le.mpr ⟨hm, ih hrest⟩

/-- The value of a member is as fit as the object. -/
theorem within_of_get? {j v : Json} {name : String} (h : j.Within fit)
    (found : j.get? name = some v) : v.Within fit := by
  unfold get? at found
  obtain ⟨before, after, hmembers, -⟩ := List.lookup_eq_some_iff.mp found
  cases j with
  | object members =>
    have hmem : (name, v) ∈ members.reverse := by
      rw [show members.reverse = _ from hmembers]
      simp
    exact membersWithin_iff.mp h (name, v) (List.mem_reverse.mp hmem)
  | null | bool _ | int _ | float _ | text _ | list _ | unreadable =>
    simp [membersLastFirst] at found

end Parts

/-! ## Blanks -/

theorem skipSpaces_skipSpaces (s : List Char) : skipSpaces (skipSpaces s) = skipSpaces s := by
  induction s with
  | nil => rfl
  | cons c s ih =>
    by_cases hc : isSpace c
    · simpa [skipSpaces, hc] using ih
    · simp [skipSpaces, hc]

theorem skipSpaces_cons {c : Char} (h : isSpace c = false) (s : List Char) :
    skipSpaces (c :: s) = c :: s := by
  simp [skipSpaces, h]

theorem skipSpaces_append {s tail : List Char} (h : skipSpaces s ≠ []) :
    skipSpaces (s ++ tail) = skipSpaces s ++ tail := by
  induction s with
  | nil => exact absurd rfl h
  | cons c s ih =>
    by_cases hc : isSpace c
    · simp only [skipSpaces, List.cons_append, List.dropWhile_cons, hc] at h ih ⊢
      exact ih h
    · simp [skipSpaces, hc]

theorem skipSpaces_of_blank {s : List Char} (h : skipSpaces s = []) (tail : List Char) :
    skipSpaces (s ++ tail) = skipSpaces tail := by
  induction s with
  | nil => rfl
  | cons c s ih =>
    by_cases hc : isSpace c
    · simp only [skipSpaces, List.cons_append, List.dropWhile_cons, hc] at h ih ⊢
      exact ih h
    · simp [skipSpaces, hc] at h

/-- A value is read the same behind blanks. -/
theorem value_skipSpaces (lenient : Bool) (budget nesting : Nat) (s : List Char) :
    value lenient budget nesting (skipSpaces s) = value lenient budget nesting s := by
  cases budget with
  | zero => rfl
  | succ budget => rw [value, value, skipSpaces_skipSpaces]

theorem items_skipSpaces (lenient : Bool) (budget nesting : Nat) (s : List Char) :
    items lenient budget nesting (skipSpaces s) = items lenient budget nesting s := by
  cases budget with
  | zero => rfl
  | succ budget => rw [items, items, value_skipSpaces]

/-! ## Numbers as values -/

/-- A value that begins like a number is one. -/
theorem value_of_front {lenient : Bool} {budget nesting : Nat} {s more : List Char} {c : Char}
    (front : skipSpaces s = c :: more) (hc : c = '-' ∨ c.isDigit = true) :
    value lenient (budget + 1) nesting s = number lenient (skipSpaces s) := by
  rw [value, front]
  split
  · rename_i heq
    cases heq
  -- the letters and brackets that other values begin with
  iterate 6
    · rename_i heq
      obtain ⟨rfl, -⟩ := List.cons.inj heq
      exact absurd hc (by decide)
  · rfl

theorem value_number {lenient : Bool} {budget nesting : Nat} {s rest : List Char} {j : Json}
    (h : number lenient s = .ok (j, rest)) :
    value lenient (budget + 1) nesting s = .ok (j, rest) := by
  obtain ⟨c, more, rfl, hc⟩ := head_of_number h
  have hspace : isSpace c = false := by
    cases hblank : isSpace c with
    | false => rfl
    | true =>
      simp only [isSpace, Bool.or_eq_true, beq_iff_eq, or_assoc] at hblank
      rcases hblank with rfl | rfl | rfl | rfl <;> exact absurd hc (by decide)
  rw [value_of_front (skipSpaces_cons hspace more) hc, skipSpaces_cons hspace, h]

/-- A word stands for its own value only. -/
theorem value_of_word {j k : Json} {rest : List Char} : ∀ {letters s : List Char},
    word j letters s = .ok (k, rest) → k = j := by
  intro letters
  induction letters with
  | nil =>
    intro s h
    cases h
    rfl
  | cons c letters ih =>
    intro s h
    cases s with
    | nil => cases h
    | cons d s =>
      rw [word] at h
      split at h
      · exact ih h
      · cases h

/-- A value that is a double is a number. -/
theorem number_of_value_float {lenient : Bool} {budget nesting : Nat} {s rest : List Char}
    {x : Binary64} (h : value lenient budget nesting s = .ok (.float x, rest)) :
    number lenient (skipSpaces s) = .ok (.float x, rest) := by
  cases budget with
  | zero => cases h
  | succ budget =>
    rw [value] at h
    split at h
    · cases h
    · cases value_of_word h
    · cases value_of_word h
    · cases value_of_word h
    · split at h <;> cases h
    · split at h
      · cases h
      · split at h
        · cases h
        · split at h <;> cases h
    · split at h
      · cases h
      · split at h
        · cases h
        · split at h <;> cases h
    · exact h

/-- A document is a value with blanks behind it. -/
theorem document_eq_ok {lenient : Bool} {nesting : Nat} {s : List Char} {j : Json} :
    document lenient nesting s = .ok j ↔ ∃ rest,
      value lenient (2 * s.length + 2) nesting s = .ok (j, rest) ∧ skipSpaces rest = [] := by
  unfold document
  constructor
  · intro h
    split at h
    · cases h
    · rename_i k rest hvalue
      split at h
      · rename_i hblank
        cases h
        exact ⟨rest, hvalue, hblank⟩
      · cases h
  · rintro ⟨rest, hvalue, hblank⟩
    simp only [hvalue, hblank, if_true]

/-- **A double that lasts is read back from the middle of a text**, if what follows is apart. -/
theorem value_writeFloat {x : Binary64} (lasting : Lasting x) (budget nesting : Nat)
    {tail : List Char} (apart : Apart tail) : ∃ rest,
    value false (budget + 1) nesting (writeFloat x ++ tail) = .ok (.float x, rest) ∧
      skipSpaces rest = skipSpaces tail := by
  obtain ⟨hfinite, hretained⟩ := lasting
  have hread : document false 128 (writeFloat x) = .ok (.float x) := by
    have h := hretained hfinite
    rw [read, compact, String.toList_ofList] at h
    exact h
  obtain ⟨rest, hvalue, hblank⟩ := document_eq_ok.mp hread
  have hnumber := number_of_value_float hvalue
  obtain ⟨c, more, hfront, -⟩ := head_of_number hnumber
  have hsome : skipSpaces (writeFloat x) ≠ [] := by simp [hfront]
  refine ⟨rest ++ tail, ?_, skipSpaces_of_blank hblank tail⟩
  rw [← value_skipSpaces, skipSpaces_append hsome]
  exact value_number (number_append apart hnumber)

/-! ## Parts of a text -/

section Parts

variable {lenient : Bool}

theorem writeText_append (s : String) (tail : List Char) :
    writeText s ++ tail = '"' :: (s.toList.flatMap escaped ++ '"' :: tail) := by
  simp [writeText]

theorem string_writeText {budget : Nat} {s : String} (tail : List Char)
    (enough : (writeText s).length ≤ budget) :
    string lenient budget (s.toList.flatMap escaped ++ '"' :: tail) =
      .ok (some s.toList, tail) := by
  refine string_escaped lenient tail ?_
  have hlength := length_le_escaped s.toList
  simp only [writeText, List.length_cons, List.length_append, List.length_nil] at enough
  omega

theorem value_writeText {budget : Nat} (nesting : Nat) {s : String} (tail : List Char)
    (enough : (writeText s).length ≤ budget) :
    value lenient (budget + 1) nesting (writeText s ++ tail) = .ok (.text s, tail) := by
  rw [writeText_append]
  simp only [value, skipSpaces_cons (by decide : isSpace '"' = false), string_writeText tail enough,
    String.ofList_toList]

/-- No item begins with a closing bracket. -/
theorem items_closing (lenient : Bool) : ∀ (budget nesting : Nat) (s : List Char),
    ∃ fault, items lenient budget nesting (']' :: s) = .error fault
  | 0, _, _ => ⟨.ended, rfl⟩
  | 1, _, _ => ⟨.ended, rfl⟩
  | _ + 2, _, _ => ⟨.malformed, rfl⟩

/-- A list whose items are read is read, if there is any item. -/
theorem value_list {budget nesting : Nat} {s tail : List Char} {js : List Json}
    (room : 1 < nesting) (h : items lenient budget (nesting - 1) s = .ok (js, tail)) :
    value lenient (budget + 1) nesting ('[' :: s) = .ok (.list js, tail) := by
  rw [← items_skipSpaces] at h
  simp only [value, skipSpaces_cons (by decide : isSpace '[' = false), Nat.not_le.mpr room,
    if_false]
  split
  · rename_i after hclosing
    obtain ⟨fault, hfault⟩ := items_closing lenient budget (nesting - 1) after
    rw [hclosing, hfault] at h
    cases h
  · rw [h]

/-- An object whose members are read is read, if there is any member. -/
theorem value_object {budget nesting : Nat} {s more tail : List Char} {ms : List (String × Json)}
    (room : 1 < nesting) (front : skipSpaces s = '"' :: more)
    (h : members lenient budget (nesting - 1) ('"' :: more) = .ok (some ms, tail)) :
    value lenient (budget + 1) nesting ('\x7b' :: s) = .ok (.object ms, tail) := by
  simp only [value, skipSpaces_cons (by decide : isSpace '\x7b' = false), Nat.not_le.mpr room,
    if_false, front]
  split
  · rename_i heq
    simp at heq
  · rw [h]

section Items

variable {budget nesting : Nat} {s rest more behind tail : List Char} {j : Json}

/-- The last item of a list, and its closing bracket. -/
theorem items_last (h : value lenient budget nesting s = .ok (j, rest))
    (closes : skipSpaces rest = ']' :: tail) :
    items lenient (budget + 1) nesting s = .ok ([j], tail) := by
  simp only [items, h, closes]

/-- An item of a list, and those behind it. -/
theorem items_more {js : List Json} (h : value lenient budget nesting s = .ok (j, rest))
    (goesOn : skipSpaces rest = ',' :: more)
    (later : items lenient budget nesting more = .ok (js, tail)) :
    items lenient (budget + 1) nesting s = .ok (j :: js, tail) := by
  rw [← items_skipSpaces] at later
  simp only [items, h, goesOn]
  split
  · rename_i after hclosing
    obtain ⟨fault, hfault⟩ := items_closing lenient budget nesting after
    rw [hclosing, hfault] at later
    cases later
  · rw [later]

variable {name : String} {named : List Char}

/-- The last member of an object, and its closing brace. -/
theorem members_last
    (hname : string lenient budget named = .ok (some name.toList, ':' :: s))
    (h : value lenient budget nesting s = .ok (j, rest))
    (closes : skipSpaces rest = '\x7d' :: tail) :
    members lenient (budget + 1) nesting ('"' :: named) = .ok (some [(name, j)], tail) := by
  simp only [members, hname, skipSpaces_cons (by decide : isSpace ':' = false), h, closes,
    Option.map_some, String.ofList_toList]

/-- A member of an object, and those behind it. -/
theorem members_more {ms : List (String × Json)}
    (hname : string lenient budget named = .ok (some name.toList, ':' :: s))
    (h : value lenient budget nesting s = .ok (j, rest))
    (goesOn : skipSpaces rest = ',' :: more) (front : skipSpaces more = '"' :: behind)
    (later : members lenient budget nesting ('"' :: behind) = .ok (some ms, tail)) :
    members lenient (budget + 1) nesting ('"' :: named) = .ok (some ((name, j) :: ms), tail) := by
  simp only [members, hname, skipSpaces_cons (by decide : isSpace ':' = false), h, goesOn, front,
    later, String.ofList_toList]

end Items

end Parts

/-! ## Blanks between the parts -/

namespace Layout

theorem skipSpaces_lineBreak (layout : Layout) (level : Nat) :
    skipSpaces (layout.lineBreak level) = [] := by
  cases layout with
  | compact => rfl
  | indented => simp [lineBreak, skipSpaces, isSpace]

/-- Behind the colon there may be a blank. -/
theorem exists_colon (layout : Layout) :
    ∃ blank, layout.colon = ':' :: blank ∧ skipSpaces blank = [] := by
  cases layout with
  | compact => exact ⟨[], rfl, rfl⟩
  | indented => exact ⟨[' '], rfl, rfl⟩

end Layout

theorem value_behind {lenient : Bool} {blank : List Char} (h : skipSpaces blank = [])
    (budget nesting : Nat) (s : List Char) :
    value lenient budget nesting (blank ++ s) = value lenient budget nesting s := by
  rw [← value_skipSpaces, skipSpaces_of_blank h, value_skipSpaces]

theorem items_behind {lenient : Bool} {blank : List Char} (h : skipSpaces blank = [])
    (budget nesting : Nat) (s : List Char) :
    items lenient budget nesting (blank ++ s) = items lenient budget nesting s := by
  rw [← items_skipSpaces, skipSpaces_of_blank h, items_skipSpaces]

/-- What separates the parts of a value is apart from a number before it, also behind blanks. -/
theorem apart_of_separator {s tail : List Char} {c : Char} (h : skipSpaces s = c :: tail)
    (hc : Apart [c]) : Apart s := by
  cases s with
  | nil => trivial
  | cons d s =>
    by_cases hblank : isSpace d
    · simp only [isSpace, Bool.or_eq_true, beq_iff_eq, or_assoc] at hblank
      rcases hblank with rfl | rfl | rfl | rfl <;> exact ⟨by decide, by decide, by decide, by decide⟩
    · rw [Bool.not_eq_true] at hblank
      rw [skipSpaces_cons hblank] at h
      cases h
      exact hc

/-! ## All values -/

/-- Doubles of a kind are read back from the middle of a text. -/
def Endures (lenient : Bool) (fit : Binary64 → Prop) : Prop :=
  ∀ {x : Binary64}, fit x → ∀ (budget nesting : Nat) {tail : List Char}, Apart tail → ∃ rest,
    value lenient (budget + 1) nesting (writeFloat x ++ tail) = .ok (.float x, rest) ∧
      skipSpaces rest = skipSpaces tail

section Written

variable {lenient : Bool} {fit : Binary64 → Prop} {layout : Layout}

theorem writeItems_append (j : Json) (rest : List Json) (level : Nat) (stop : List Char) :
    writeItems layout level (j :: rest) ++ stop = ',' :: (layout.lineBreak level ++
      (j.write layout level ++ (writeItems layout level rest ++ stop))) := by
  simp [writeItems]

theorem writeMembers_append (name : String) (j : Json) (rest : List (String × Json)) (level : Nat)
    (stop : List Char) :
    writeMembers layout level ((name, j) :: rest) ++ stop = ',' :: (layout.lineBreak level ++
      (writeText name ++ (layout.colon ++ (j.write layout level ++
        (writeMembers layout level rest ++ stop))))) := by
  simp [writeMembers]

theorem write_list_append (j : Json) (rest : List Json) (level : Nat) (tail : List Char) :
    (list (j :: rest)).write layout level ++ tail = '[' :: (layout.lineBreak (level + 1) ++
      (j.write layout (level + 1) ++ (writeItems layout (level + 1) rest ++
        (layout.lineBreak level ++ ']' :: tail)))) := by
  simp [write]

theorem write_object_append (name : String) (j : Json) (rest : List (String × Json)) (level : Nat)
    (tail : List Char) :
    (object ((name, j) :: rest)).write layout level ++ tail = '\x7b' ::
      (layout.lineBreak (level + 1) ++ (writeText name ++ (layout.colon ++
        (j.write layout (level + 1) ++ (writeMembers layout (level + 1) rest ++
          (layout.lineBreak level ++ '\x7d' :: tail)))))) := by
  simp [write]

mutual

/-- A value is read back from the middle of a text, if what follows is apart. -/
theorem value_write (floats : Endures lenient fit) : ∀ (j : Json) (level nesting budget : Nat)
    (tail : List Char), j.Within fit → j.depth < nesting →
      (j.write layout level).length < budget → Apart tail →
      ∃ rest, value lenient budget nesting (j.write layout level ++ tail) = .ok (j, rest) ∧
        skipSpaces rest = skipSpaces tail
  | _, _, _, 0, _, _, _, hbudget, _ => absurd hbudget (Nat.not_lt_zero _)
  | .null, level, nesting, budget + 1, tail, _, _, _, _ => ⟨tail, rfl, rfl⟩
  | .bool true, level, nesting, budget + 1, tail, _, _, _, _ => ⟨tail, rfl, rfl⟩
  | .bool false, level, nesting, budget + 1, tail, _, _, _, _ => ⟨tail, rfl, rfl⟩
  | .int i, level, nesting, budget + 1, tail, hwithin, _, _, apart =>
    ⟨tail, value_number (number_writeInt lenient hwithin.1 hwithin.2 apart), rfl⟩
  | .float x, level, nesting, budget + 1, tail, hwithin, _, _, apart =>
    floats hwithin budget nesting apart
  | .text s, level, nesting, budget + 1, tail, _, _, hbudget, _ =>
    ⟨tail, value_writeText nesting tail (Nat.le_of_lt_succ hbudget), rfl⟩
  | .list [], level, nesting, budget + 1, tail, _, hdepth, _, _ => by
    have hnesting : ¬nesting ≤ 1 := Nat.not_le.mpr hdepth
    refine ⟨tail, ?_, rfl⟩
    simp [write, value, skipSpaces, isSpace, hnesting]
  | .list (j :: rest), level, nesting, budget + 1, tail, hwithin, hdepth, hbudget, _ => by
    simp only [depth] at hdepth
    simp only [write, List.length_cons, List.length_append, List.length_nil] at hbudget
    have hitems := items_write floats j rest (level + 1) (nesting - 1) budget
      (layout.lineBreak level ++ ']' :: tail) tail hwithin (by omega)
      (by simp only [List.length_append]; omega) (skipSpaces_of_blank
        (layout.skipSpaces_lineBreak level) _)
    rw [← items_behind (layout.skipSpaces_lineBreak (level + 1))] at hitems
    refine ⟨tail, ?_, rfl⟩
    rw [write_list_append]
    exact value_list (by omega) hitems
  | .object [], level, nesting, budget + 1, tail, _, hdepth, _, _ => by
    have hnesting : ¬nesting ≤ 1 := Nat.not_le.mpr hdepth
    refine ⟨tail, ?_, rfl⟩
    simp [write, value, skipSpaces, isSpace, hnesting]
  | .object ((name, j) :: rest), level, nesting, budget + 1, tail, hwithin, hdepth, hbudget, _ => by
    simp only [depth] at hdepth
    simp only [write, List.length_cons, List.length_append, List.length_nil] at hbudget
    have hmembers := members_write floats name j rest (level + 1) (nesting - 1) budget
      (layout.lineBreak level ++ '\x7d' :: tail) tail hwithin (by omega)
      (by simp only [List.length_append]; omega) (skipSpaces_of_blank
        (layout.skipSpaces_lineBreak level) _)
    refine ⟨tail, ?_, rfl⟩
    rw [writeText_append] at hmembers
    rw [write_object_append, writeText_append]
    exact value_object (by omega)
      (skipSpaces_of_blank (layout.skipSpaces_lineBreak (level + 1)) _) hmembers
  | .unreadable, _, _, _ + 1, _, hwithin, _, _, _ => hwithin.elim
termination_by j => sizeOf j

/-- The items of a list are read back up to its closing bracket. -/
theorem items_write (floats : Endures lenient fit) : ∀ (j : Json) (rest : List Json)
    (level nesting budget : Nat) (stop tail : List Char), ItemsWithin fit (j :: rest) →
      itemsDepth (j :: rest) < nesting →
      (j.write layout level ++ writeItems layout level rest).length + 1 < budget →
      skipSpaces stop = ']' :: tail →
        items lenient budget nesting
          (j.write layout level ++ (writeItems layout level rest ++ stop)) = .ok (j :: rest, tail)
  | _, _, _, _, 0, _, _, _, _, hbudget, _ => absurd hbudget (Nat.not_lt_zero _)
  | j, [], level, nesting, budget + 1, stop, tail, hwithin, hdepth, hbudget, closes => by
    simp only [itemsDepth] at hdepth
    simp only [writeItems, List.append_nil] at hbudget
    obtain ⟨rest, hvalue, hrest⟩ := value_write floats j level nesting budget stop hwithin.1
      (by omega) (by omega) (apart_of_separator closes (by simp [Apart]))
    exact items_last hvalue (hrest.trans closes)
  | j, j' :: rest, level, nesting, budget + 1, stop, tail, hwithin, hdepth, hbudget, closes => by
    simp only [itemsDepth] at hdepth
    simp only [writeItems, List.length_append, List.length_cons] at hbudget
    have hlater := items_write floats j' rest level nesting budget stop tail hwithin.2
      (by simp only [itemsDepth]; omega) (by simp only [List.length_append]; omega) closes
    rw [← items_behind (layout.skipSpaces_lineBreak level)] at hlater
    obtain ⟨more, hvalue, hmore⟩ := value_write floats j level nesting budget
      (writeItems layout level (j' :: rest) ++ stop) hwithin.1 (by omega) (by omega)
      (by simp [writeItems_append, Apart])
    rw [writeItems_append, skipSpaces_cons (by decide)] at hmore
    exact items_more hvalue hmore hlater
termination_by j rest => sizeOf j + sizeOf rest + 1

/-- The members of an object are read back up to its closing brace. -/
theorem members_write (floats : Endures lenient fit) : ∀ (name : String) (j : Json)
    (rest : List (String × Json)) (level nesting budget : Nat) (stop tail : List Char),
      MembersWithin fit ((name, j) :: rest) → membersDepth ((name, j) :: rest) < nesting →
      (writeText name ++ (layout.colon ++ (j.write layout level ++
        writeMembers layout level rest))).length + 1 < budget →
      skipSpaces stop = '\x7d' :: tail →
        members lenient budget nesting (writeText name ++ (layout.colon ++
          (j.write layout level ++ (writeMembers layout level rest ++ stop)))) =
          .ok (some ((name, j) :: rest), tail)
  | _, _, _, _, _, 0, _, _, _, _, hbudget, _ => absurd hbudget (Nat.not_lt_zero _)
  | name, j, [], level, nesting, budget + 1, stop, tail, hwithin, hdepth, hbudget, closes => by
    simp only [membersDepth] at hdepth
    simp only [writeMembers, List.append_nil, List.length_append] at hbudget
    obtain ⟨blank, hcolon, hblank⟩ := layout.exists_colon
    obtain ⟨rest, hvalue, hrest⟩ := value_write floats j level nesting budget stop hwithin.1
      (by omega) (by omega) (apart_of_separator closes (by simp [Apart]))
    rw [← value_behind hblank] at hvalue
    rw [writeText_append, hcolon]
    exact members_last (string_writeText _ (by omega)) hvalue (hrest.trans closes)
  | name, j, (name', j') :: rest, level, nesting, budget + 1, stop, tail, hwithin, hdepth, hbudget,
      closes => by
    simp only [membersDepth] at hdepth
    simp only [writeMembers, List.length_append, List.length_cons] at hbudget
    have hlater := members_write floats name' j' rest level nesting budget stop tail hwithin.2
      (by simp only [membersDepth]; omega) (by simp only [List.length_append]; omega) closes
    obtain ⟨blank, hcolon, hblank⟩ := layout.exists_colon
    obtain ⟨more, hvalue, hmore⟩ := value_write floats j level nesting budget
      (writeMembers layout level ((name', j') :: rest) ++ stop) hwithin.1 (by omega) (by omega)
      (by simp [writeMembers_append, Apart])
    rw [writeMembers_append, skipSpaces_cons (by decide), writeText_append] at hmore
    rw [← value_behind hblank] at hvalue
    rw [writeText_append] at hlater ⊢
    rw [hcolon]
    exact members_more (string_writeText _ (by omega)) hvalue hmore
      (skipSpaces_of_blank (layout.skipSpaces_lineBreak level) _) hlater
termination_by _ j rest => sizeOf j + sizeOf rest + 1

end

/-- **A document that has been written is read back**, in either layout. -/
theorem document_write_of (floats : Endures lenient fit) {j : Json} (within : j.Within fit)
    {nesting : Nat} (shallow : j.depth < nesting) :
    document lenient nesting (j.write layout 0) = .ok j := by
  have enough : (j.write layout 0).length < 2 * (j.write layout 0).length + 2 := by omega
  obtain ⟨rest, hvalue, hrest⟩ := value_write floats j 0 nesting _ []
    within shallow enough trivial
  rw [List.append_nil] at hvalue
  exact document_eq_ok.mpr ⟨rest, hvalue, hrest⟩

mutual

/-- Lists and objects take more characters than they are deep. -/
theorem depth_le_write : ∀ (j : Json) (level : Nat), j.depth ≤ (j.write layout level).length
  | .null, _ | .bool _, _ | .int _, _ | .float _, _ | .text _, _ | .unreadable, _ => by simp [depth]
  | .list [], _ => by simp [depth, itemsDepth, write]
  | .list (j :: rest), level => by
    have hitems := itemsDepth_le_write j rest (level + 1)
    simp only [depth, write, List.length_cons, List.length_append] at hitems ⊢
    omega
  | .object [], _ => by simp [depth, membersDepth, write]
  | .object ((name, j) :: rest), level => by
    have hmembers := membersDepth_le_write name j rest (level + 1)
    simp only [depth, write, List.length_cons, List.length_append] at hmembers ⊢
    omega
termination_by j => sizeOf j

theorem itemsDepth_le_write : ∀ (j : Json) (rest : List Json) (level : Nat),
    itemsDepth (j :: rest) ≤ (j.write layout level ++ writeItems layout level rest).length
  | j, [], level => by
    have hj := depth_le_write j level
    simpa [itemsDepth, writeItems] using hj
  | j, j' :: rest, level => by
    have hj := depth_le_write j level
    have hrest := itemsDepth_le_write j' rest level
    rw [itemsDepth]
    simp only [writeItems, List.length_append, List.length_cons] at hrest ⊢
    omega
termination_by j rest => sizeOf j + sizeOf rest + 1

theorem membersDepth_le_write : ∀ (name : String) (j : Json) (rest : List (String × Json))
    (level : Nat), membersDepth ((name, j) :: rest) ≤
      (j.write layout level ++ writeMembers layout level rest).length
  | name, j, [], level => by
    have hj := depth_le_write j level
    simpa [membersDepth, writeMembers] using hj
  | name, j, (name', j') :: rest, level => by
    have hj := depth_le_write j level
    have hrest := membersDepth_le_write name' j' rest level
    rw [membersDepth]
    simp only [writeMembers, List.length_append, List.length_cons] at hrest ⊢
    omega
termination_by _ j rest => sizeOf j + sizeOf rest + 1

end

end Written

/-- A document that has been written without blanks is read back. -/
theorem document_write {j : Json} (within : j.Within Lasting) {nesting : Nat}
    (shallow : j.depth < nesting) : document false nesting (j.write .compact 0) = .ok j :=
  document_write_of value_writeFloat within shallow

/-- **What has been written over several lines is read back leniently**, however deep it is nested,
if no double is in it. -/
theorem readLenient_indented {j : Json} (within : j.Within fun _ => False) :
    readLenient (indented j) = .ok j := by
  rw [readLenient, indented, String.toList_ofList]
  refine document_write_of (fun hfit => hfit.elim) within ?_
  have hdepth : j.depth ≤ (j.write .indented 0).length := depth_le_write j 0
  omega

/-! ## Doubles -/

/-- The double that has been read. -/
def float? : Except Fault Json → Option Binary64
  | .ok (float x) => some x
  | _ => none

theorem float?_eq_some {r : Except Fault Json} {x : Binary64} :
    float? r = some x ↔ r = .ok (.float x) := by
  constructor
  · intro h
    unfold float? at h
    split at h
    · rw [Option.some.inj h]
    · cases h
  · rintro rfl
    rfl

end Json

instance (x : Binary64) : Decidable x.Retained :=
  decidable_of_iff (x.isFinite = true → Json.float? (Json.read (Json.compact (.float x))) = some x)
    (imp_congr_right fun _ => Json.float?_eq_some)

/-- Reading rounds more than once, so a third of `10^32` is read as a neighbour. -/
theorem Binary64.exists_not_retained : ∃ x : Binary64, x.isFinite = true ∧ ¬x.Retained := by
  refine ⟨.nearest false (unit * tenTo 32) 3, ?_⟩
  decide +kernel

end Replay
