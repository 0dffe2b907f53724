import Mathlib.Data.List.Infix
import Mathlib.Data.List.Dedup
import Replay.Files
import Replay.Proofs.Text.Pieces

/-!
# What lies in a directory

A directory in a tree of files has entries, which are told apart by their names, and what is removed
from it is one of them: everything that lies in another one stays. A path leads to one place only,
whatever stands there, so that an entry is where the directory is, one name deeper.

* `Files.placeOf`, `Files.placeOf_join` — where a path leads to if it leads anywhere
* `Files.inside` — what lies in an entry of a directory
* `Files.nodup_namesAt`, `Files.mem_namesAt` — the names in a directory
* `Files.Sound` — entries have names that can be followed, and nothing lies below a file
* `Files.inside_of_remove` — one entry is removed, the others stay
-/

set_option autoImplicit false

namespace Replay

open Text

/-! ## Names without their repetitions -/

/-- Items that repeat a key are left out where keys that are repeated are. -/
theorem map_eraseDupsBy {α κ : Type} [BEq κ] (key : α → κ) : (l : List α) →
    (l.eraseDupsBy fun a b => key a == key b).map key = (l.map key).eraseDups
  | [] => by simp
  | a :: rest => by
    rw [List.eraseDupsBy_cons, List.map_cons, List.map_cons, List.eraseDups_cons,
      map_eraseDupsBy key, List.filter_map]
    simp [Function.comp_def]
  termination_by l => l.length
  decreasing_by exact Nat.lt_succ_of_le (List.length_filter_le _ _)

theorem nodup_eraseDups {κ : Type} [BEq κ] [LawfulBEq κ] : (l : List κ) → l.eraseDups.Nodup
  | [] => by simp
  | a :: rest => by
    rw [List.eraseDups_cons]
    refine List.nodup_cons.mpr ⟨fun hmem => ?_, nodup_eraseDups _⟩
    rw [List.mem_eraseDups, List.mem_filter] at hmem
    simp at hmem
  termination_by l => l.length
  decreasing_by exact Nat.lt_succ_of_le (List.length_filter_le _ _)

/-! ## The place that a path leads to -/

namespace Path

theorem isAbsolute_of_free {name : String} (free : '/' ∉ name.toList) :
    isAbsolute name = false := by
  cases hhead : name.toList.head? with
  | none => simp [isAbsolute, hhead]
  | some c =>
    have hc : c ≠ '/' := fun h => free (h ▸ List.mem_of_head? hhead)
    simp [isAbsolute, hhead, hc]

/-- A path and one that is longer start at the same place. -/
theorem isAbsolute_join (base : String) {name : String} (free : '/' ∉ name.toList) :
    isAbsolute (join base name) = isAbsolute base := by
  unfold join
  split
  · rename_i h
    obtain rfl : base = "" := h.resolve_left (by simp [isAbsolute_of_free free])
    exact isAbsolute_of_free free
  · rename_i h
    have hsome : base.toList ≠ [] := fun hnil => h (.inr (String.toList_eq_nil_iff.mp hnil))
    obtain ⟨c, rest, hbase⟩ := List.exists_cons_of_ne_nil hsome
    split <;> simp [isAbsolute, hbase]

/-- The names of a path that is one name longer than another one. If that ends with a slash, nothing
stands behind it yet. -/
theorem names_join (base : String) {name : String} (free : '/' ∉ name.toList) :
    ∃ front, names (join base name) = front ++ [name] ∧
      (names base = front ∨ names base = front ++ [""]) := by
  have hname : splitAll '/' name.toList = [name.toList] := splitAll_of_free free
  unfold join
  split
  · rename_i h
    obtain rfl : base = "" := h.resolve_left (by simp [isAbsolute_of_free free])
    exact ⟨[], by simp [names, hname], .inr rfl⟩
  · split
    · rename_i hslash
      obtain ⟨front, hfront⟩ := List.getLast?_eq_some_iff.mp hslash
      refine ⟨(splitAll '/' front).map String.ofList, ?_, .inr ?_⟩
      · simp [names, hfront, splitAll_append, hname]
      · simp [names, hfront, splitAll_append, splitAll]
    · exact ⟨names base, by simp [names, splitAll_append, hname], .inl rfl⟩

end Path

namespace Files

variable {f f' : Files} {e : FileEntry} {place target : List String} {path directory name : String}

/-- The place that a path leads to, if there are the directories on its way. -/
def placeOf (f : Files) (path : String) : List String :=
  (Path.names path).foldl step (f.start path)

theorem foldl_step_of_walk {names : List String} (h : f.walk place names = .ok target) :
    names.foldl step place = target := by
  induction names generalizing place with
  | nil => exact Except.ok.inj h
  | cons name rest ih =>
    rw [walk] at h
    split at h
    · rename_i next hlookup
      have hnext : step place name = next := by
        unfold lookup at hlookup
        split at hlookup
        · split at hlookup
          · exact Except.ok.inj hlookup
          · cases hlookup
        · cases hlookup
        · cases hlookup
      rw [List.foldl_cons, hnext]
      exact ih h
    · cases h

theorem placeOf_of_resolve (h : f.resolve path = .ok place) : f.placeOf path = place := by
  unfold resolve at h
  split at h
  · cases h
  · exact foldl_step_of_walk h

theorem step_empty (place : List String) : step place "" = place := rfl

theorem step_of_proper (proper : Path.isProper name = true) : step place name = place ++ [name] := by
  obtain ⟨hstays, hup⟩ := Bool.and_eq_true_iff.mp proper
  rw [step, if_neg (by simpa using hstays), if_neg (by simpa using hup)]

/-- An entry of a directory is where that is, one name deeper. -/
theorem placeOf_join (f : Files) (directory : String) (proper : Path.isProper name = true)
    (free : '/' ∉ name.toList) :
    f.placeOf (Path.join directory name) = f.placeOf directory ++ [name] := by
  have hstart : f.start (Path.join directory name) = f.start directory := by
    rw [start, start, Path.isAbsolute_join directory free]
  obtain ⟨front, hjoin, hbase | hbase⟩ := Path.names_join directory free
  · rw [placeOf, placeOf, hstart, hjoin, hbase, List.foldl_append, List.foldl_cons, List.foldl_nil,
      step_of_proper proper]
  · rw [placeOf, placeOf, hstart, hjoin, hbase, List.foldl_append, List.foldl_append,
      List.foldl_cons, List.foldl_nil, List.foldl_cons, List.foldl_nil, step_empty,
      step_of_proper proper]

/-! ## The names in a directory -/

/-- What lies at a place and below it. -/
def within (f : Files) (place : List String) : List FileEntry :=
  f.entries.filter fun e => place.isPrefixOf e.place

theorem mem_within : e ∈ f.within place ↔ e ∈ f.entries ∧ place <+: e.place := by
  rw [within, List.mem_filter, List.isPrefixOf_iff_prefix]

theorem nodup_namesAt (f : Files) (place : List String) : ((f.namesAt place).map Prod.fst).Nodup := by
  rw [namesAt, map_eraseDupsBy]
  exact nodup_eraseDups _

/-- What lies below a place lies in one of the entries there. -/
theorem mem_namesAt : name ∈ (f.namesAt place).map Prod.fst ↔ f.within (place ++ [name]) ≠ [] := by
  rw [namesAt, map_eraseDupsBy, List.mem_eraseDups, ne_eq,
    List.eq_nil_iff_forall_not_mem, not_forall]
  simp only [not_not, mem_within, List.mem_map, List.mem_filterMap, List.isPrefixOf_iff_prefix]
  constructor
  · rintro ⟨⟨first, t⟩, ⟨e, he, hsome⟩, rfl⟩
    refine ⟨e, he, ?_⟩
    split at hsome
    · rename_i hprefix
      obtain ⟨more, hmore⟩ := hprefix
      rw [← hmore, List.drop_left] at hsome
      rw [← hmore, List.prefix_append_right_inj]
      split at hsome
      · cases hsome
      · cases hsome
        exact List.prefix_rfl
      · cases hsome
        exact ⟨_, rfl⟩
    · cases hsome
  · rintro ⟨e, he, more, hmore⟩
    rw [List.append_assoc] at hmore
    cases more with
    | nil => exact ⟨(name, e.modified), ⟨e, he, by simp [← hmore]⟩, rfl⟩
    | cons next more => exact ⟨(name, 0), ⟨e, he, by simp [← hmore]⟩, rfl⟩

theorem list_eq_ok {names : List (String × Nat)} (h : f.list directory = .ok names) :
    names = f.namesAt (f.placeOf directory) := by
  unfold list at h
  split at h
  · cases h
  · rename_i place hresolve
    rw [placeOf_of_resolve hresolve]
    split at h <;> cases h
    rfl

/-! ## One entry that is removed -/

/-- Trees in which entries have names that can be followed, and nothing lies below a file. -/
structure Sound (f : Files) : Prop where
  names : ∀ e ∈ f.entries, ∀ name ∈ e.place, Path.isProper name = true ∧ '/' ∉ name.toList
  below : ∀ e ∈ f.entries, e.node ≠ .directory → ∀ deeper ∈ f.entries,
    e.place <+: deeper.place → deeper.place = e.place

/-- A file is one of the entries; only directories may be known from what lies in them. -/
theorem exists_entry {node : FileNode} (h : f.node? place = some node)
    (file : node ≠ .directory) : ∃ e ∈ f.entries, e.place = place ∧ e.node = node := by
  unfold node? at h
  split at h
  · rename_i e hfind
    exact ⟨e, List.mem_of_find?_eq_some hfind, by simpa using List.find?_some hfind,
      Option.some.inj h⟩
  · split at h
    · exact absurd (Option.some.inj h).symm file
    · cases h

/-- What is removed is a file that lies where the path leads to. -/
theorem remove_eq_ok (h : f.remove path = .ok f') :
    ∃ e ∈ f.entries, e.place = f.placeOf path ∧ e.node ≠ .directory ∧ f' = f.erase e.place := by
  unfold remove at h
  split at h
  · cases h
  · rename_i place hresolve
    rw [placeOf_of_resolve hresolve]
    split at h
    · cases h
    · rename_i node hfile hnode
      cases h
      obtain ⟨e, he, rfl, rfl⟩ := exists_entry hnode hfile
      exact ⟨e, he, rfl, hfile, rfl⟩
    · cases h

/-- What is there after something has been erased was there before, or is the directory around it.
-/
theorem mem_erase {old : FileEntry} (h : old ∈ (f.erase place).entries) :
    (old ∈ f.entries ∧ old.place ≠ place) ∨ old = ⟨place.dropLast, .directory, 0⟩ := by
  unfold erase at h
  dsimp only at h
  split at h
  · exact .inl (by simpa using List.mem_filter.mp h)
  · rw [put, List.mem_append, List.mem_filter, List.mem_singleton] at h
    rcases h with ⟨hold, -⟩ | hnew
    · exact .inl (by simpa using List.mem_filter.mp hold)
    · exact .inr hnew

theorem erase_here (f : Files) (place : List String) : (f.erase place).here = f.here := by
  unfold erase
  dsimp only
  split <;> rfl

/-- What does not lie around the place that is erased stays. -/
theorem within_erase (apart : ¬ target <+: place) :
    (f.erase place).within target = f.within target := by
  have hat {e : FileEntry} (h : target.isPrefixOf e.place = true) : e.place ≠ place := fun heq =>
    apart (heq ▸ List.isPrefixOf_iff_prefix.mp h)
  have haround {e : FileEntry} (h : target.isPrefixOf e.place = true) :
      e.place ≠ place.dropLast := fun heq =>
    apart ((heq ▸ List.isPrefixOf_iff_prefix.mp h).trans (List.dropLast_prefix place))
  have hnew : target.isPrefixOf place.dropLast = false := by
    by_contra h
    exact haround (e := ⟨place.dropLast, .directory, 0⟩) (by simpa using h) rfl
  unfold erase
  dsimp only
  split
  · rw [within, within, List.filter_filter]
    refine List.filter_congr fun e _ => ?_
    cases h : target.isPrefixOf e.place <;> simp [h, hat]
  · rw [within, within, put, List.filter_append, List.filter_filter, List.filter_filter,
      List.filter_singleton]
    simp only [hnew, cond_false, List.append_nil]
    refine List.filter_congr fun e _ => ?_
    cases h : target.isPrefixOf e.place <;> simp [h, hat, haround]

/-- Nothing is left of a file that is erased. -/
theorem within_erase_self (sound : f.Sound) (he : e ∈ f.entries) (file : e.node ≠ .directory)
    (some : e.place ≠ []) : (f.erase e.place).within e.place = [] := by
  refine List.eq_nil_iff_forall_not_mem.mpr fun old hold => ?_
  obtain ⟨hmem, hbelow⟩ := mem_within.mp hold
  rcases mem_erase hmem with ⟨hmem, hother⟩ | rfl
  · exact hother (sound.below e he file old hmem hbelow)
  · have hlength := hbelow.length_le
    rw [List.length_dropLast] at hlength
    have hpos := List.length_pos_iff.mpr some
    omega

theorem Sound.erase (sound : f.Sound) (he : e ∈ f.entries) (some : e.place ≠ []) : (f.erase e.place).Sound where
  names old hold name hname := by
    rcases mem_erase hold with ⟨hmem, -⟩ | rfl
    · exact sound.names old hmem name hname
    · exact sound.names e he name (List.mem_of_mem_dropLast hname)
  below old hold holdfile deeper hdeeper hbelow := by
    rcases mem_erase hold with ⟨hold, -⟩ | rfl
    · rcases mem_erase hdeeper with ⟨hdeeper, -⟩ | rfl
      · exact sound.below old hold holdfile deeper hdeeper hbelow
      · -- the directory around the file would lie below another file
        have habove := hbelow.trans (List.dropLast_prefix e.place)
        have hsame := sound.below old hold holdfile e he habove
        have hlength := hbelow.length_le
        rw [← hsame, List.length_dropLast] at hlength
        have hpos := List.length_pos_iff.mpr some
        omega
    · exact absurd rfl holdfile

theorem placeOf_erase (f : Files) (place : List String) (path : String) :
    (f.erase place).placeOf path = f.placeOf path := by
  rw [placeOf, placeOf, start, start, erase_here]

/-- What lies in an entry of a directory, if there is one. -/
def inside (directory : String) (f : Files) (name : String) : Option (List FileEntry) :=
  match f.within (f.placeOf directory ++ [name]) with
  | [] => none
  | entries => some entries

theorem inside_isSome : (inside directory f name).isSome ↔
    f.within (f.placeOf directory ++ [name]) ≠ [] := by
  unfold inside
  split <;> simp_all

/-- The names of the entries of a sound tree can be followed. -/
theorem Sound.followed (sound : f.Sound) (there : (inside directory f name).isSome) :
    Path.isProper name = true ∧ '/' ∉ name.toList := by
  obtain ⟨e, he⟩ := List.exists_mem_of_ne_nil _ (inside_isSome.mp there)
  obtain ⟨hmem, hbelow⟩ := mem_within.mp he
  exact sound.names e hmem name (hbelow.subset (List.mem_append_right _ (List.mem_singleton_self _)))

/-- **One entry of a directory is removed, and the others stay** with all that lies in them. -/
theorem inside_of_remove (sound : f.Sound) (there : (inside directory f name).isSome)
    (h : f.remove (Path.join directory name) = .ok f') :
    f'.Sound ∧ inside directory f' name = none ∧
      ∀ other, other ≠ name → inside directory f' other = inside directory f other := by
  obtain ⟨hproper, hfree⟩ := sound.followed there
  obtain ⟨e, he, hplace, hfile, rfl⟩ := remove_eq_ok h
  rw [placeOf_join f directory hproper hfree] at hplace
  have hsome : e.place ≠ [] := by simp [hplace]
  refine ⟨sound.erase he hsome, ?_, fun other hother => ?_⟩
  · have hnothing := within_erase_self sound he hfile hsome
    rw [inside, placeOf_erase, ← hplace, hnothing]
  · have hapart : ¬ f.placeOf directory ++ [other] <+: e.place := fun hbelow => by
      rw [hplace, List.prefix_append_right_inj] at hbelow
      exact hother (by simpa using hbelow)
    rw [inside, inside, placeOf_erase, within_erase hapart]

end Files

end Replay
