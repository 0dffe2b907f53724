import Mathlib.Data.List.Infix
import Replay.Loading
import Replay.Proofs.Text.Pieces

/-!
# Files that are written and read

A text that has been written to a file is read back from it, at the path that it was written to:
what is put at a place stands there, and puts no other place out of the reach of a path. A file that
has been read can be written over, as long as the working directory is still there.

* `Files.walk_put` — a path leads to the same place after a file has been written
* `Files.read_write`, `Files.read_writeBelow` — reading what has been written
* `Files.Intact` — the working directory is there
* `Files.writeBelow_of_read` — writing over what has been read
-/

set_option autoImplicit false

namespace Replay

open Text

/-! ## Names of a path -/

namespace Path

theorem exists_names (path : String) : ∃ front last, names path = front ++ [last] := by
  have hsome : names path ≠ [] := by
    simpa [names] using splitAll_ne_nil '/' path.toList
  exact ⟨_, _, (List.dropLast_append_getLast hsome).symm⟩

variable {path last : String} {front : List String}

/-- The last name of a path is empty if and only if the path is, or ends with a slash. -/
theorem last_eq_empty (h : names path = front ++ [last]) :
    last = "" ↔ path = "" ∨ endsWithSlash path = true := by
  have hlast : (splitAll '/' path.toList).getLast?.map String.ofList = some last := by
    rw [← List.getLast?_map]
    show (names path).getLast? = some last
    rw [h, List.getLast?_append, List.getLast?_singleton, Option.some_or]
  obtain ⟨piece, hpiece, rfl⟩ := Option.map_eq_some_iff.mp hlast
  have hempty : String.ofList piece = "" ↔ piece = [] := String.ofList_eq_empty_iff
  have hpath : path.toList = [] ↔ path = "" := String.toList_eq_nil_iff
  rw [hempty, endsWithSlash, beq_iff_eq, ← hpath, ← getLast?_splitAll, hpiece, Option.some_inj]

/-- Of a path that does not end with a slash, no name is left out. -/
theorem named_eq (h : names path = front ++ [last]) (some : last ≠ "") :
    named path = front ++ [last] := by
  rw [named, h, List.reverse_append, List.reverse_singleton, List.singleton_append,
    List.dropWhile_cons_of_neg (by simpa using some), List.reverse_cons, List.reverse_reverse]

theorem not_stays_of_isProper (proper : isProper last = true) : stays last = false := by
  simpa using (Bool.and_eq_true_iff.mp proper).1

theorem ne_empty_of_isProper (proper : isProper last = true) : last ≠ "" := by
  rintro rfl
  cases proper

/-- A path to something that can be new does not end with a slash. -/
theorem not_endsWithSlash (h : names path = front ++ [last]) (proper : isProper last = true) :
    endsWithSlash path = false := by
  cases hends : endsWithSlash path with
  | false => rfl
  | true => exact absurd ((last_eq_empty h).mpr (.inr hends)) (ne_empty_of_isProper proper)

theorem above_eq (h : names path = front ++ [last]) (proper : isProper last = true) :
    above path = front.filter fun name => !stays name := by
  rw [above, h, List.filter_append, List.filter_singleton]
  simp [not_stays_of_isProper proper]

end Path

namespace Files

variable {f f' : Files} {e : FileEntry} {place next target start : List String} {name : String}

/-! ## What stands at a place -/

theorem node?_put_self (f : Files) (e : FileEntry) : (f.put e).node? e.place = some e.node := by
  have hgone : (f.entries.filter fun old => old.place != e.place).find?
      (fun old => old.place == e.place) = none := by
    simp [List.find?_eq_none]
  have hfind : (f.put e).entries.find? (fun old => old.place == e.place) = some e := by
    simp only [put, List.find?_append, hgone, Option.none_or, List.find?_singleton, beq_self_eq_true,
      if_true]
  rw [node?, hfind]

theorem find?_put (other : place ≠ e.place) :
    (f.put e).entries.find? (fun old => old.place == place) =
      f.entries.find? fun old => old.place == place := by
  have hnew : (e.place == place) = false := by simpa using Ne.symm other
  simp only [put, List.find?_append, List.find?_filter, List.find?_singleton, hnew,
    Bool.false_eq_true, if_false, Option.or_none]
  congr 1
  funext old
  by_cases hold : old.place = place
  · simp [hold, other]
  · simp [hold]

/-- A place that something lies in is not emptied: what is put replaces what stood at its place. -/
theorem any_put (e : FileEntry) (h : (f.entries.any fun old => place.isPrefixOf old.place) = true) :
    ((f.put e).entries.any fun old => place.isPrefixOf old.place) = true := by
  obtain ⟨old, hold, hprefix⟩ := List.any_eq_true.mp h
  simp only [put, List.any_append, List.any_filter, Bool.or_eq_true, List.any_eq_true]
  by_cases hplace : old.place = e.place
  · exact .inr ⟨e, List.mem_singleton_self e, hplace ▸ hprefix⟩
  · exact .inl ⟨old, hold, by simp [hplace, hprefix]⟩

/-- What stands at another place stays there. -/
theorem node?_put {node : FileNode} (other : place ≠ e.place) (h : f.node? place = some node) :
    (f.put e).node? place = some node := by
  unfold node? at h ⊢
  rw [find?_put other]
  split at h
  · assumption
  · split at h
    · rename_i hthere
      rw [if_pos ?_]
      · exact h
      · exact Bool.or_eq_true_iff.mpr ((Bool.or_eq_true_iff.mp hthere).imp id (any_put e))
    · cases h

/-! ## Following names -/

theorem lookup_eq_ok : f.lookup place name = .ok next ↔
    f.node? place = some .directory ∧ name.utf8ByteSize ≤ 255 ∧ step place name = next := by
  unfold lookup
  split
  · rename_i hdirectory
    split
    · rename_i hshort
      simp [hdirectory, hshort]
    · rename_i hlong
      simp [hlong]
  · rename_i node hnot hnode
    refine ⟨nofun, fun h => ?_⟩
    rw [hnode] at h
    exact absurd (Option.some.inj h.1) hnot
  · rename_i hnone
    simp [hnone]

theorem walk_cons_eq_ok {names : List String} : f.walk place (name :: names) = .ok target ↔
    ∃ next, f.lookup place name = .ok next ∧ f.walk next names = .ok target := by
  rw [walk]
  cases f.lookup place name <;> simp

theorem walk_append_eq_ok {front back : List String} :
    f.walk place (front ++ back) = .ok target ↔
      ∃ next, f.walk place front = .ok next ∧ f.walk next back = .ok target := by
  induction front generalizing place with
  | nil => simp [walk]
  | cons name front ih =>
    rw [List.cons_append, walk_cons_eq_ok]
    simp only [ih, walk_cons_eq_ok]
    constructor
    · rintro ⟨first, hfirst, middle, hfront, hback⟩
      exact ⟨middle, ⟨first, hfirst, hfront⟩, hback⟩
    · rintro ⟨middle, ⟨first, hfirst, hfront⟩, hback⟩
      exact ⟨first, hfirst, middle, hfront, hback⟩

/-- A name is looked up as before after something has been put at a place where no directory is. -/
theorem lookup_put (vacant : f.node? e.place ≠ some .directory)
    (h : f.lookup place name = .ok next) : (f.put e).lookup place name = .ok next := by
  obtain ⟨hdirectory, hshort, hstep⟩ := lookup_eq_ok.mp h
  have hother : place ≠ e.place := by
    rintro rfl
    exact vacant hdirectory
  exact lookup_eq_ok.mpr ⟨node?_put hother hdirectory, hshort, hstep⟩

/-- **Names lead where they led before** after something has been put at a place where no directory
is. -/
theorem walk_put (vacant : f.node? e.place ≠ some .directory) {names : List String}
    (h : f.walk place names = .ok target) : (f.put e).walk place names = .ok target := by
  induction names generalizing place with
  | nil => exact h
  | cons name names ih =>
    obtain ⟨next, hlookup, hwalk⟩ := walk_cons_eq_ok.mp h
    exact walk_cons_eq_ok.mpr ⟨next, lookup_put vacant hlookup, ih hwalk⟩

/-- What names are aimed at is where they lead, if there are any. -/
theorem aim_append_eq_ok {front : List String} {last : String} {aimed : List String × String} :
    f.aim start (front ++ [last]) = .ok aimed ↔
      f.walk start (front ++ [last]) = .ok aimed.1 ∧ last = aimed.2 := by
  obtain ⟨target, name⟩ := aimed
  rw [walk_append_eq_ok]
  simp only [aim, List.getLast?_append, List.getLast?_singleton, Option.some_or,
    Option.getD_some, List.dropLast_concat, walk]
  cases f.walk start front with
  | error fault => simp
  | ok place => cases hlookup : f.lookup place last <;> simp [Except.map, hlookup]

/-! ## Reading what has been written -/

variable {path content old : String}

theorem read_eq_ok : f.read path = .ok content ↔ refused? path = none ∧
    ∃ place, f.walk (f.start path) (Path.names path) = .ok place ∧
      f.node? place = some (.text content) := by
  unfold read resolve
  cases refused? path with
  | some fault => simp
  | none =>
    cases f.walk (f.start path) (Path.names path) with
    | error fault => simp
    | ok place =>
      simp only [Except.ok.injEq, exists_eq_left', true_and]
      cases f.node? place with
      | none => simp
      | some node => cases node <;> simp

/-- **What has been written to a file is read from it.** -/
theorem read_write (h : f.write path content = .ok f') : f'.read path = .ok content := by
  unfold write at h
  split at h
  · cases h
  · rename_i haccepted
    split at h
    · cases h
    · rename_i target name haim
      split at h
      · cases h
      · rename_i hfile
        cases h
        simp only [Bool.or_eq_true, not_or, Bool.not_eq_true, beq_iff_eq] at hfile
        obtain ⟨⟨-, hslash⟩, hvacant⟩ := hfile
        obtain ⟨front, last, hnames⟩ := Path.exists_names path
        have hlast : last ≠ "" := by
          intro hempty
          rcases (Path.last_eq_empty hnames).mp hempty with rfl | hends
          · cases haccepted
          · rw [hslash] at hends
            cases hends
        rw [Path.named_eq hnames hlast] at haim
        obtain ⟨hwalk, -⟩ := aim_append_eq_ok.mp haim
        rw [← hnames] at hwalk
        exact read_eq_ok.mpr ⟨haccepted, target, walk_put hvacant hwalk, node?_put_self _ _⟩

/-- The same if the directories on the way to the file are made first. -/
theorem read_writeBelow (h : f.writeBelow path content = (.ok (), f')) :
    f'.read path = .ok content := by
  unfold writeBelow at h
  split at h
  · split at h
    · rename_i hwrite
      cases h
      exact read_write hwrite
    · cases h
  · rename_i hfailed
    exact absurd h (hfailed _)

/-! ## Writing over what has been read -/

/-- Everything above a place is a directory. -/
def Grounded (f : Files) (place : List String) : Prop :=
  ∀ above, above <+: place → above ≠ place → f.node? above = some .directory

/-- What is above a directory is one, or that directory itself. -/
theorem Grounded.of_prefix {above : List String} (grounded : f.Grounded place)
    (h : f.node? place = some .directory) (under : above <+: place) :
    f.node? above = some .directory := by
  by_cases hsame : above = place
  · rw [hsame]
    exact h
  · exact grounded above under hsame

theorem Grounded.lookup (grounded : f.Grounded place) (h : f.lookup place name = .ok next) :
    f.Grounded next := by
  obtain ⟨hdirectory, -, rfl⟩ := lookup_eq_ok.mp h
  intro above hunder hne
  unfold Files.step at hunder hne
  split at hunder
  · rename_i hstays
    rw [if_pos hstays] at hne
    exact grounded above hunder hne
  · rename_i hmoves
    rw [if_neg hmoves] at hne
    split at hunder
    · exact grounded.of_prefix hdirectory (hunder.trans (List.dropLast_prefix _))
    · rename_i hdown
      rw [if_neg hdown] at hne
      rcases List.prefix_concat_iff.mp hunder with hwhole | hunder
      · exact absurd hwhole hne
      · exact grounded.of_prefix hdirectory hunder

theorem Grounded.walk {names : List String} (grounded : f.Grounded place)
    (h : f.walk place names = .ok target) : f.Grounded target := by
  induction names generalizing place with
  | nil =>
    cases h
    exact grounded
  | cons name names ih =>
    obtain ⟨next, hlookup, hwalk⟩ := walk_cons_eq_ok.mp h
    exact ih (grounded.lookup hlookup) hwalk

/-- Names that stand for staying where one is may be left out. -/
theorem walk_filter {names : List String} (h : f.walk place names = .ok target) :
    f.walk place (names.filter fun name => !Path.stays name) = .ok target := by
  induction names generalizing place with
  | nil => exact h
  | cons name names ih =>
    obtain ⟨next, hlookup, hwalk⟩ := walk_cons_eq_ok.mp h
    cases hstays : Path.stays name with
    | true =>
      obtain ⟨-, -, hstep⟩ := lookup_eq_ok.mp hlookup
      obtain rfl : place = next := by simpa [Files.step, hstays] using hstep
      simpa [hstays] using ih hwalk
    | false =>
      rw [List.filter_cons_of_pos (by simp [hstays])]
      exact walk_cons_eq_ok.mpr ⟨next, hlookup, ih hwalk⟩

/-- A way that is there does not need to be made. -/
theorem makeWay_of_walk {back : List String} (h : f.walk start back.reverse = .ok place)
    (there : f.node? place = some .directory) : makeWay start back f = (.ok (), f) := by
  cases back with
  | nil => rfl
  | cons name back =>
    rw [List.reverse_cons] at h
    have hat : f.isDirectoryAt start (back.reverse ++ [name]) = true := by
      simp [isDirectoryAt, h, there]
    have haim : f.aim start (back.reverse ++ [name]) = .ok (place, name) :=
      aim_append_eq_ok.mpr ⟨h, rfl⟩
    have hmake : f.make start (back.reverse ++ [name]) = .error .inTheWay := by
      simp [make, haim, there]
    simp [makeWay, makeAfter, hmake, settle, hat]

/-- The working directory is there, and so are those above it. -/
def Intact (f : Files) : Prop := ∀ above, above <+: f.here → f.node? above = some .directory

instance (f : Files) : Decidable f.Intact :=
  decidable_of_iff (∀ above ∈ f.here.inits, f.node? above = some .directory)
    (by simp [Intact, List.mem_inits])

theorem Intact.grounded_start (intact : f.Intact) (path : String) :
    f.Grounded (f.start path) := by
  intro above hunder hne
  unfold start at hunder hne
  split at hunder
  · rename_i habsolute
    rw [if_pos habsolute] at hne
    exact absurd (List.prefix_nil.mp hunder) hne
  · exact intact above hunder

/-- The last name on the way to a file is that of the file. -/
theorem isProper_of_lookup (grounded : f.Grounded place) (h : f.lookup place name = .ok target)
    (file : f.node? target ≠ some .directory) : Path.isProper name = true := by
  obtain ⟨hdirectory, -, rfl⟩ := lookup_eq_ok.mp h
  unfold Files.step at file
  split at file
  · exact absurd hdirectory file
  · rename_i hmoves
    split at file
    · exact absurd (grounded.of_prefix hdirectory (List.dropLast_prefix _)) file
    · rename_i hdown
      simp [Path.isProper, hmoves, hdown]

/-- **A file that has been read can be written over**, if the working directory is still there. -/
theorem writeBelow_of_read (intact : f.Intact) (h : f.read path = .ok old) (content : String) :
    ∃ f', f.writeBelow path content = (.ok (), f') := by
  obtain ⟨haccepted, target, hwalk, hnode⟩ := read_eq_ok.mp h
  obtain ⟨front, last, hnames⟩ := Path.exists_names path
  rw [hnames] at hwalk
  obtain ⟨place, hfront, hlast⟩ := walk_append_eq_ok.mp hwalk
  obtain ⟨next, hlookup, htarget⟩ := walk_cons_eq_ok.mp hlast
  obtain rfl := Except.ok.inj htarget
  have hgrounded : f.Grounded place := (intact.grounded_start path).walk hfront
  have hproper : Path.isProper last = true :=
    isProper_of_lookup hgrounded hlookup (by simp [hnode])
  have hway : makeAbove path f = (.ok (), f) := by
    have hback : f.walk (f.start path) (Path.above path).reverse.reverse = .ok place := by
      rw [List.reverse_reverse, Path.above_eq hnames hproper]
      exact walk_filter hfront
    exact makeWay_of_walk hback (lookup_eq_ok.mp hlookup).1
  have haim : f.aim (f.start path) (Path.named path) = .ok (next, last) := by
    rw [Path.named_eq hnames (Path.ne_empty_of_isProper hproper)]
    exact aim_append_eq_ok.mpr ⟨hwalk, rfl⟩
  have hslash := Path.not_endsWithSlash hnames hproper
  refine ⟨f.put ⟨next, .text content, 0⟩, ?_⟩
  simp [writeBelow, hway, write, haccepted, haim, hproper, hslash, hnode]

end Files

end Replay
