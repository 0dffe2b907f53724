import Mathlib.Data.List.Perm.Subperm
import Mathlib.Data.List.Nodup
import Replay.LogFile
import Replay.Proofs.Files.Entries

/-!
# Which log files are removed

Of a component's log files the newest are kept, in whatever directory they lie: those that are tried
to be removed are the oldest ones and as many as are too many, each of them is gone or has been
given with what stood against it, and nothing else is touched. If the directory cannot be read, or a
log file does not say when it was changed, nothing is removed.

* `LogFile.exists_excess` — those that are too many are the first ones in the order
* `LogDirectory.Lawful` — a file is removed alone, or nothing happens
* `LogDirectory.fate_of_removeEach` — what removing some files one after the other comes to
* `LogDirectory.Legible`, `LogDirectory.Unreadable` — whether a directory can be read
* `LogDirectory.prune_keeps_newest` — the log files that are kept are the newest
-/

set_option autoImplicit false

namespace Replay

variable {σ ν τ ε α : Type}

/-! ## The order of log files -/

namespace LogFile

section Order

variable [LE ν] [DecidableLE ν] [LE τ] [DecidableLE τ]

theorem goesBefore_iff {a b : ν × τ} :
    goesBefore a b = true ↔ a.2 ≤ b.2 ∧ (b.2 ≤ a.2 → a.1 ≤ b.1) := decide_eq_true_iff

variable [Std.IsLinearOrder ν] [Std.IsLinearOrder τ]

theorem goesBefore_trans (a b c : ν × τ) (hab : goesBefore a b = true)
    (hbc : goesBefore b c = true) : goesBefore a c = true := by
  obtain ⟨htime, hname⟩ := goesBefore_iff.mp hab
  obtain ⟨htime', hname'⟩ := goesBefore_iff.mp hbc
  refine goesBefore_iff.mpr ⟨Std.le_trans htime htime', fun hca => ?_⟩
  have hba : b.2 ≤ a.2 := Std.le_trans htime' hca
  have hcb : c.2 ≤ b.2 := Std.le_trans hca htime
  exact Std.le_trans (hname hba) (hname' hcb)

theorem goesBefore_total (a b : ν × τ) : (goesBefore a b || goesBefore b a) = true := by
  rw [Bool.or_eq_true, goesBefore_iff, goesBefore_iff]
  by_cases hab : a.2 ≤ b.2
  · by_cases hba : b.2 ≤ a.2
    · exact (Std.le_total (a := a.1) (b := b.1)).imp (fun h => ⟨hab, fun _ => h⟩)
        fun h => ⟨hba, fun _ => h⟩
    · exact .inl ⟨hab, fun h => absurd h hba⟩
  · have hba : b.2 ≤ a.2 := (Std.le_total (a := a.2) (b := b.2)).resolve_left hab
    exact .inr ⟨hba, fun h => absurd h hab⟩

/-- **The log files that are too many go before all others**, and as many are left as are kept. -/
theorem exists_excess (keep : Nat) (logs : List (ν × τ)) :
    ∃ old recent : List (ν × τ), (old ++ recent).Perm logs ∧ excess keep logs = old.map Prod.fst ∧
      old.length = logs.length - keep ∧ ∀ a ∈ old, ∀ b ∈ recent, goesBefore a b = true := by
  have hsorted := List.pairwise_mergeSort goesBefore_trans goesBefore_total logs
  refine ⟨(logs.mergeSort goesBefore).take (logs.length - keep),
    (logs.mergeSort goesBefore).drop (logs.length - keep), ?_, rfl, ?_, ?_⟩
  · rw [List.take_append_drop]
    exact List.mergeSort_perm logs goesBefore
  · rw [List.length_take, List.length_mergeSort]
    omega
  · rw [← List.take_append_drop (logs.length - keep) (logs.mergeSort goesBefore)] at hsorted
    exact (List.pairwise_append.mp hsorted).2.2

end Order

end LogFile

namespace LogDirectory

variable {D : LogDirectory σ ν τ ε} {component : String} {keep : Nat} {s s' : σ} {n : ν}

/-! ## Removing files -/

/-- What is relied on where files are removed from a directory: `valid` states are those that the
files can be in, and `holds` says what a state holds under a name. Reading a directory meets each of
its names once. An entry is removed alone, or it stays like the others. -/
structure Lawful (D : LogDirectory σ ν τ ε) (valid : σ → Prop) (holds : σ → ν → Option α) :
    Prop where
  once {s : σ} {entries : List (DirectoryEntry ν τ ε)} (here : valid s)
    (read : D.list s = .ok (entries.map .ok)) : (entries.map (·.name)).Nodup
  met {s : σ} {entries : List (DirectoryEntry ν τ ε)} (here : valid s)
    (read : D.list s = .ok (entries.map .ok)) (n : ν) :
    n ∈ entries.map (·.name) ↔ (holds s n).isSome
  removed {s s' : σ} {n : ν} (here : valid s) (there : (holds s n).isSome)
    (done : D.remove n s = (.ok (), s')) :
    valid s' ∧ holds s' n = none ∧ ∀ m, m ≠ n → holds s' m = holds s m
  refused {s s' : σ} {n : ν} {fault : ε} (here : valid s)
    (failed : D.remove n s = (.error fault, s')) : valid s' ∧ ∀ m, holds s' m = holds s m

variable {valid : σ → Prop} {holds : σ → ν → Option α}

/-- What has become of an entry that was to be removed: it is gone, or it is as it was and given
with what stood against it. -/
def Fate (holds : σ → ν → Option α) (s s' : σ) (failed : List (ν × ε)) (n : ν) : Prop :=
  (holds s' n = none ∧ ∀ fault, (n, fault) ∉ failed) ∨
    (holds s' n = holds s n ∧ ∃ fault, (n, fault) ∈ failed)

theorem removeEach_of_removed {rest : List ν} (done : D.remove n s = (.ok (), s')) :
    D.removeEach (n :: rest) s = D.removeEach rest s' := by
  rw [removeEach, done]

theorem removeEach_of_refused {rest : List ν} {fault : ε}
    (failed : D.remove n s = (.error fault, s')) :
    D.removeEach (n :: rest) s =
      ((n, fault) :: (D.removeEach rest s').1, (D.removeEach rest s').2) := by
  rw [removeEach, failed]

/-- What is given is among what was to be removed, in that order. -/
theorem failed_sublist (D : LogDirectory σ ν τ ε) (names : List ν) (s : σ) :
    ((D.removeEach names s).1.map Prod.fst).Sublist names := by
  induction names generalizing s with
  | nil => exact List.Sublist.slnil
  | cons n rest ih =>
    cases hremove : D.remove n s with
    | mk result s' =>
      cases result with
      | ok =>
        rw [removeEach_of_removed hremove]
        exact (ih s').cons n
      | error fault =>
        rw [removeEach_of_refused hremove]
        exact (ih s').cons_cons n

/-- **Of entries that are removed one after the other each one meets its fate, and no other entry is
touched.** -/
theorem fate_of_removeEach (lawful : D.Lawful valid holds) {names : List ν} (here : valid s)
    (distinct : names.Nodup) (there : ∀ n ∈ names, (holds s n).isSome) :
    (∀ m, m ∉ names → holds (D.removeEach names s).2 m = holds s m) ∧
      ∀ n ∈ names, Fate holds s (D.removeEach names s).2 (D.removeEach names s).1 n := by
  induction names generalizing s with
  | nil => exact ⟨fun _ _ => rfl, List.forall_mem_nil _⟩
  | cons n rest ih =>
    obtain ⟨hfresh, hrest⟩ := List.nodup_cons.mp distinct
    obtain ⟨hn, hthere⟩ := List.forall_mem_cons.mp there
    have hnot (s' : σ) (fault : ε) : (n, fault) ∉ (D.removeEach rest s').1 := fun hmem =>
      hfresh ((failed_sublist D rest s').subset (List.mem_map_of_mem hmem))
    have hother {m : ν} (hm : m ∈ rest) : m ≠ n := fun h => hfresh (h ▸ hm)
    cases hremove : D.remove n s with
    | mk result s' =>
      cases result with
      | ok =>
        rw [removeEach_of_removed hremove]
        obtain ⟨hvalid, hgone, hkept⟩ := lawful.removed here hn hremove
        obtain ⟨halone, hfate⟩ := ih hvalid hrest fun m hm => by
          rw [hkept m (hother hm)]
          exact hthere m hm
        refine ⟨fun m hm => ?_, List.forall_mem_cons.mpr ⟨?_, fun m hm => ?_⟩⟩
        · rw [List.mem_cons, not_or] at hm
          rw [halone m hm.2, hkept m hm.1]
        · exact .inl ⟨(halone n hfresh).trans hgone, hnot s'⟩
        · have hfated := hfate m hm
          rwa [Fate, hkept m (hother hm)] at hfated
      | error fault =>
        rw [removeEach_of_refused hremove]
        obtain ⟨hvalid, hkept⟩ := lawful.refused here hremove
        obtain ⟨halone, hfate⟩ := ih hvalid hrest fun m hm => by
          rw [hkept m]
          exact hthere m hm
        refine ⟨fun m hm => ?_, List.forall_mem_cons.mpr ⟨?_, fun m hm => ?_⟩⟩
        · rw [List.mem_cons, not_or] at hm
          rw [halone m hm.2, hkept m]
        · exact .inr ⟨(halone n hfresh).trans (hkept n), fault, List.mem_cons_self⟩
        · have hfated := hfate m hm
          rw [Fate, hkept m] at hfated
          simpa [Fate, hother hm] using hfated

/-! ## Reading a directory -/

/-- Whether a name is that of a log file of a component. -/
def Matches (D : LogDirectory σ ν τ ε) (component : String) (n : ν) : Prop :=
  LogFile.isOf component (D.text n) = true

/-- The log files of a component among the entries of a directory. -/
def matching (D : LogDirectory σ ν τ ε) (component : String)
    (entries : List (DirectoryEntry ν τ ε)) : List (DirectoryEntry ν τ ε) :=
  entries.filter fun e => LogFile.isOf component (D.text e.name)

theorem mem_matching {entries : List (DirectoryEntry ν τ ε)} {e : DirectoryEntry ν τ ε} :
    e ∈ D.matching component entries ↔ e ∈ entries ∧ D.Matches component e.name := List.mem_filter

theorem matching_cons_of_log {e : DirectoryEntry ν τ ε} {rest : List (DirectoryEntry ν τ ε)}
    (h : D.Matches component e.name) :
    D.matching component (e :: rest) = e :: D.matching component rest := List.filter_cons_of_pos h

theorem matching_cons_of_other {e : DirectoryEntry ν τ ε} {rest : List (DirectoryEntry ν τ ε)}
    (h : ¬ D.Matches component e.name) :
    D.matching component (e :: rest) = D.matching component rest := List.filter_cons_of_neg h

/-- A directory in which everything that is met is an entry, of which those that are log files of a
component say when they were changed. -/
structure Legible (D : LogDirectory σ ν τ ε) (component : String) (s : σ)
    (entries : List (DirectoryEntry ν τ ε)) : Prop where
  list : D.list s = .ok (entries.map .ok)
  dated : ∀ e ∈ D.matching component entries, ∃ t, e.modified = .ok t

/-- What can stand against reading a directory: reading it fails from the start or on the way, or a
log file of the component does not say when it was changed. -/
inductive Unreadable (D : LogDirectory σ ν τ ε) (component : String) (s : σ) (fault : ε) : Prop
  | directory (failed : D.list s = .error fault)
  | entry {reads : List (Except ε (DirectoryEntry ν τ ε))} (list : D.list s = .ok reads)
    (failed : .error fault ∈ reads)
  | metadata {reads : List (Except ε (DirectoryEntry ν τ ε))} {e : DirectoryEntry ν τ ε}
    (list : D.list s = .ok reads) (read : .ok e ∈ reads) (log : D.Matches component e.name)
    (failed : e.modified = .error fault)

/-- The log files that are found are those among the entries, with their times. -/
theorem logsAmong_eq_ok {reads : List (Except ε (DirectoryEntry ν τ ε))} {logs : List (ν × τ)}
    (h : D.logsAmong component reads = .ok logs) : ∃ entries, reads = entries.map .ok ∧
      (D.matching component entries).map (fun e => (e.name, e.modified)) =
        logs.map fun log => (log.1, .ok log.2) := by
  induction reads generalizing logs with
  | nil =>
    cases h
    exact ⟨[], rfl, rfl⟩
  | cons read rest ih =>
    cases read with
    | error fault => cases h
    | ok e =>
      rw [logsAmong] at h
      split at h
      · rename_i hlog
        split at h
        · rename_i t htime
          cases hrest : D.logsAmong component rest with
          | error fault =>
            rw [hrest] at h
            cases h
          | ok others =>
            rw [hrest] at h
            cases h
            obtain ⟨entries, rfl, hothers⟩ := ih hrest
            refine ⟨e :: entries, rfl, ?_⟩
            rw [matching_cons_of_log hlog, List.map_cons, List.map_cons, htime, hothers]
        · cases h
      · rename_i hlog
        obtain ⟨entries, rfl, hothers⟩ := ih h
        refine ⟨e :: entries, rfl, ?_⟩
        rwa [matching_cons_of_other hlog]

/-- What is given where the log files are not found has been met. -/
theorem logsAmong_eq_error {reads : List (Except ε (DirectoryEntry ν τ ε))} {fault : ε}
    (h : D.logsAmong component reads = .error fault) : .error fault ∈ reads ∨
      ∃ e, .ok e ∈ reads ∧ D.Matches component e.name ∧ e.modified = .error fault := by
  induction reads with
  | nil => cases h
  | cons read rest ih =>
    have hlater (h : D.logsAmong component rest = .error fault) :
        .error fault ∈ read :: rest ∨ ∃ e, .ok e ∈ read :: rest ∧ D.Matches component e.name ∧
          e.modified = .error fault :=
      (ih h).imp (List.mem_cons_of_mem read) fun ⟨e, he, hmet⟩ =>
        ⟨e, List.mem_cons_of_mem read he, hmet⟩
    cases read with
    | error first =>
      cases h
      exact .inl List.mem_cons_self
    | ok e =>
      rw [logsAmong] at h
      split at h
      · rename_i hlog
        split at h
        · cases hrest : D.logsAmong component rest with
          | error other =>
            rw [hrest] at h
            cases h
            exact hlater hrest
          | ok others =>
            rw [hrest] at h
            cases h
        · rename_i hmodified
          cases h
          exact .inr ⟨e, List.mem_cons_self, hlog, hmodified⟩
      · exact hlater h

/-- A log file is found with the time at which it was changed. -/
theorem found_of_matching {entries : List (DirectoryEntry ν τ ε)} {logs : List (ν × τ)}
    (found : (D.matching component entries).map (fun e => (e.name, e.modified)) =
      logs.map fun log => (log.1, .ok log.2)) {e : DirectoryEntry ν τ ε}
    (he : e ∈ D.matching component entries) : ∃ t, e.modified = .ok t ∧ (e.name, t) ∈ logs := by
  have hmem := List.mem_map_of_mem (f := fun e => (e.name, e.modified)) he
  rw [found] at hmem
  obtain ⟨log, hlog, heq⟩ := List.mem_map.mp hmem
  obtain ⟨hname, htime⟩ := Prod.mk.inj heq
  exact ⟨log.2, htime.symm, hname ▸ hlog⟩

/-- The log files are found where the directory is legible. -/
theorem legible_of_logs {logs : List (ν × τ)} (h : D.logs component s = .ok logs) :
    ∃ entries, D.Legible component s entries := by
  unfold LogDirectory.logs at h
  cases hlist : D.list s with
  | error fault =>
    rw [hlist] at h
    cases h
  | ok reads =>
    rw [hlist] at h
    obtain ⟨entries, rfl, hlogs⟩ := logsAmong_eq_ok h
    refine ⟨entries, hlist, fun e he => ?_⟩
    obtain ⟨t, ht, -⟩ := found_of_matching hlogs he
    exact ⟨t, ht⟩

theorem unreadable_of_logs {fault : ε} (h : D.logs component s = .error fault) :
    D.Unreadable component s fault := by
  unfold LogDirectory.logs at h
  cases hlist : D.list s with
  | error other =>
    rw [hlist] at h
    cases h
    exact .directory hlist
  | ok reads =>
    rw [hlist] at h
    rcases logsAmong_eq_error h with hentry | ⟨e, he, hlog, hmodified⟩
    · exact .entry hlist hentry
    · exact .metadata hlist he hlog hmodified

/-- A directory is not legible and unreadable at once. -/
theorem Legible.not_unreadable {entries : List (DirectoryEntry ν τ ε)} {fault : ε}
    (legible : D.Legible component s entries) : ¬ D.Unreadable component s fault := by
  rintro (failed | ⟨list, failed⟩ | @⟨reads, e, list, read, log, failed⟩)
  · rw [legible.list] at failed
    cases failed
  · rw [legible.list] at list
    cases list
    obtain ⟨e, -, he⟩ := List.mem_map.mp failed
    cases he
  · rw [legible.list] at list
    cases list
    obtain ⟨e', he', heq⟩ := List.mem_map.mp read
    cases heq
    obtain ⟨t, ht⟩ := legible.dated e (mem_matching.mpr ⟨he', log⟩)
    rw [ht] at failed
    cases failed

/-- Every directory is legible or unreadable. -/
theorem legible_or_unreadable (D : LogDirectory σ ν τ ε) (component : String) (s : σ) :
    (∃ entries, D.Legible component s entries) ∨ ∃ fault, D.Unreadable component s fault := by
  cases h : D.logs component s with
  | ok logs => exact .inl (legible_of_logs h)
  | error fault => exact .inr ⟨fault, unreadable_of_logs h⟩

/-- In a legible directory the log files are found. -/
theorem Legible.logs {entries : List (DirectoryEntry ν τ ε)}
    (legible : D.Legible component s entries) : ∃ logs, D.logs component s = .ok logs ∧
      (D.matching component entries).map (fun e => (e.name, e.modified)) =
        logs.map fun log => (log.1, .ok log.2) := by
  cases h : D.logs component s with
  | error fault => exact absurd (unreadable_of_logs h) legible.not_unreadable
  | ok logs =>
    rw [LogDirectory.logs, legible.list] at h
    obtain ⟨entries', hentries, hlogs⟩ := logsAmong_eq_ok h
    obtain rfl := List.map_injective_iff.mpr (fun a b => Except.ok.inj) hentries
    exact ⟨logs, rfl, hlogs⟩

/-! ## Keeping the newest -/

section Newest

variable [LE ν] [LE τ]

/-- The log files of a component among some entries, those that are too many in front. -/
structure Divided (D : LogDirectory σ ν τ ε) (component : String) (keep : Nat)
    (entries : List (DirectoryEntry ν τ ε)) (old recent : List ν) : Prop where
  mem (n : ν) : n ∈ old ++ recent ↔ ∃ e ∈ D.matching component entries, e.name = n
  distinct : (old ++ recent).Nodup
  count : old.length = (D.matching component entries).length - keep
  rest : recent.length ≤ keep
  order : ∀ a ∈ D.matching component entries, ∀ b ∈ D.matching component entries,
    a.name ∈ old → b.name ∉ old → ∀ t t', a.modified = .ok t → b.modified = .ok t' →
      t ≤ t' ∧ (t' ≤ t → a.name ≤ b.name)

/-- What removing the log files that are too many has come to, in a directory with some entries. -/
structure Pruned (D : LogDirectory σ ν τ ε) (holds : σ → ν → Option α) (component : String)
    (keep : Nat) (entries : List (DirectoryEntry ν τ ε)) (s : σ) (attempted : List ν)
    (failed : List (ν × ε)) (s' : σ) : Prop where
  /-- Those that are attempted are removed one after the other. -/
  run : D.removeEach attempted s = (failed, s')
  /-- Each of them is a log file of the component, and none is attempted twice. -/
  logs : ∀ n ∈ attempted, ∃ e ∈ D.matching component entries, e.name = n
  distinct : attempted.Nodup
  /-- They are as many as there are too many. -/
  count : attempted.length = (D.matching component entries).length - keep
  /-- A log file that is not attempted has been changed later, or at the same time and its name is
  greater. -/
  oldest : ∀ a ∈ D.matching component entries, ∀ b ∈ D.matching component entries,
    a.name ∈ attempted → b.name ∉ attempted → ∀ t t', a.modified = .ok t → b.modified = .ok t' →
      t ≤ t' ∧ (t' ≤ t → a.name ≤ b.name)
  /-- What is not attempted is left alone. -/
  alone : ∀ n, n ∉ attempted → holds s' n = holds s n
  /-- What is attempted is gone, or given with what stood against it; nothing else is given. -/
  fate : ∀ n ∈ attempted, Fate holds s s' failed n
  given : ∀ failure ∈ failed, failure.1 ∈ attempted
  /-- Not more log files are left than are kept and than have failed. -/
  left : ∀ names : List ν, names.Nodup →
    (∀ n ∈ names, D.Matches component n ∧ (holds s' n).isSome) →
      names.length ≤ keep + failed.length
  /-- Nothing that is gone has been changed later than a log file that was not attempted. -/
  newest : ∀ a ∈ entries, ∀ b ∈ D.matching component entries, holds s' a.name = none →
    b.name ∉ attempted → ∀ t t', a.modified = .ok t → b.modified = .ok t' → t ≤ t'

/-- Not more log files are left than are kept and than have failed. -/
theorem Divided.length_left {entries : List (DirectoryEntry ν τ ε)} {old recent : List ν}
    (divided : D.Divided component keep entries old recent) (lawful : D.Lawful valid holds)
    (here : valid s) (list : D.list s = .ok (entries.map .ok)) {failed : List (ν × ε)} {s' : σ}
    (alone : ∀ n, n ∉ old → holds s' n = holds s n) (fate : ∀ n ∈ old, Fate holds s s' failed n)
    {names : List ν} (distinct : names.Nodup)
    (left : ∀ n ∈ names, D.Matches component n ∧ (holds s' n).isSome) :
    names.length ≤ keep + failed.length := by
  have hsubset : names ⊆ recent ++ failed.map Prod.fst := by
    intro n hn
    obtain ⟨hmatches, hthere⟩ := left n hn
    by_cases hold : n ∈ old
    · rcases fate n hold with ⟨hgone, -⟩ | ⟨-, fault, hgiven⟩
      · rw [hgone] at hthere
        cases hthere
      · exact List.mem_append_right _ (List.mem_map_of_mem hgiven)
    · rw [alone n hold] at hthere
      obtain ⟨e, he, rfl⟩ := List.mem_map.mp ((lawful.met here list n).mpr hthere)
      have hmem := (divided.mem e.name).mpr ⟨e, mem_matching.mpr ⟨he, hmatches⟩, rfl⟩
      exact List.mem_append_left _ ((List.mem_append.mp hmem).resolve_left hold)
  have hlength := (distinct.subperm hsubset).length_le
  have hrest := divided.rest
  rw [List.length_append, List.length_map] at hlength
  omega

/-- What is removed one after the other is what is to be removed. -/
theorem Divided.pruned {entries : List (DirectoryEntry ν τ ε)} {old recent : List ν}
    (divided : D.Divided component keep entries old recent) (lawful : D.Lawful valid holds)
    (here : valid s) (list : D.list s = .ok (entries.map .ok)) :
    D.Pruned holds component keep entries s old (D.removeEach old s).1 (D.removeEach old s).2 := by
  have hdistinct := (List.nodup_append.mp divided.distinct).1
  have hlog : ∀ n ∈ old, ∃ e ∈ D.matching component entries, e.name = n := fun n hn =>
    (divided.mem n).mp (List.mem_append_left _ hn)
  have hmet {e : DirectoryEntry ν τ ε} (he : e ∈ entries) : (holds s e.name).isSome :=
    (lawful.met here list e.name).mp (List.mem_map_of_mem he)
  obtain ⟨halone, hfate⟩ := fate_of_removeEach lawful here hdistinct fun n hn => by
    obtain ⟨e, he, rfl⟩ := hlog n hn
    exact hmet (mem_matching.mp he).1
  exact {
    run := rfl
    logs := hlog
    distinct := hdistinct
    count := divided.count
    oldest := divided.order
    alone := halone
    fate := hfate
    given := fun failure hf => (failed_sublist D old s).subset (List.mem_map_of_mem hf)
    left := fun names hnames hleft =>
      divided.length_left lawful here list halone hfate hnames hleft
    newest := fun a ha b hb hgone hb' t t' ht ht' => by
      have hold : a.name ∈ old := by
        by_contra hnot
        have hthere := hmet ha
        rw [← halone a.name hnot, hgone] at hthere
        cases hthere
      obtain ⟨e, he, hname⟩ := hlog a.name hold
      have hmatches : D.Matches component a.name := hname ▸ (mem_matching.mp he).2
      exact (divided.order a (mem_matching.mpr ⟨ha, hmatches⟩) b hb hold hb' t t' ht ht').1 }

variable [DecidableLE ν] [DecidableLE τ] [Std.IsLinearOrder ν] [Std.IsLinearOrder τ]

/-- The log files that are too many are those in front. -/
theorem Legible.divided {entries : List (DirectoryEntry ν τ ε)} (lawful : D.Lawful valid holds)
    (here : valid s) (legible : D.Legible component s entries) (keep : Nat) :
    ∃ logs old recent, D.logs component s = .ok logs ∧ LogFile.excess keep logs = old ∧
      D.Divided component keep entries old recent := by
  obtain ⟨logs, hlogs, hmatching⟩ := legible.logs
  obtain ⟨old, recent, hperm, hexcess, hlength, hbefore⟩ := LogFile.exists_excess keep logs
  have hnames : (D.matching component entries).map (·.name) = logs.map Prod.fst := by
    simpa [Function.comp_def] using congrArg (List.map Prod.fst) hmatching
  have hcount : (D.matching component entries).length = logs.length := by
    simpa using congrArg List.length hnames
  have hall : (old.map Prod.fst ++ recent.map Prod.fst).Perm
      ((D.matching component entries).map (·.name)) := by
    rw [← List.map_append, hnames]
    exact hperm.map Prod.fst
  have hdistinct : (old.map Prod.fst ++ recent.map Prod.fst).Nodup :=
    hall.nodup_iff.mpr ((lawful.once here legible.list).sublist (List.filter_sublist.map _))
  -- an entry stands with its time in that part in which its name stands
  have htimed {e : DirectoryEntry ν τ ε} {t : τ} (he : e ∈ D.matching component entries)
      (ht : e.modified = .ok t) : (e.name, t) ∈ old ++ recent := by
    obtain ⟨t', ht', hlog⟩ := found_of_matching hmatching he
    obtain rfl := Except.ok.inj (ht.symm.trans ht')
    exact hperm.mem_iff.mpr hlog
  refine ⟨logs, old.map Prod.fst, recent.map Prod.fst, hlogs, hexcess, ?_⟩
  exact {
    mem := fun n => by rw [hall.mem_iff, List.mem_map]
    distinct := hdistinct
    count := by rw [List.length_map, hlength, hcount]
    rest := by
      have htotal := hperm.length_eq
      rw [List.length_append] at htotal
      rw [List.length_map]
      omega
    order := fun a ha b hb haold hbold t t' ht ht' => by
      have hfirst : (a.name, t) ∈ old := by
        refine (List.mem_append.mp (htimed ha ht)).resolve_right fun hrecent => ?_
        exact (List.nodup_append.mp hdistinct).2.2 _ haold _ (List.mem_map_of_mem hrecent) rfl
      have hsecond : (b.name, t') ∈ recent :=
        (List.mem_append.mp (htimed hb ht')).resolve_left fun hmem =>
          hbold (List.mem_map_of_mem hmem)
      exact LogFile.goesBefore_iff.mp (hbefore _ hfirst _ hsecond) }

/-- **The log files that are kept are the newest ones**, whatever a directory has in it: the oldest
log files of the component are removed, as many as are too many, and nothing else is touched. If the
directory cannot be read nothing is removed, and what stood against it is all that is given. -/
theorem prune_keeps_newest (lawful : D.Lawful valid holds) (here : valid s) (component : String)
    (keep : Nat) :
    (∀ entries, D.Legible component s entries → ∃ attempted failed s',
        D.prune component keep s = (failed.map fun failure => (some failure.1, failure.2), s') ∧
          D.Pruned holds component keep entries s attempted failed s') ∧
      (∀ fault, D.Unreadable component s fault → ∃ met,
        D.Unreadable component s met ∧ D.prune component keep s = ([(none, met)], s)) ∧
      ((∃ entries, D.Legible component s entries) ∨ ∃ fault, D.Unreadable component s fault) := by
  refine ⟨fun entries legible => ?_, fun fault unreadable => ?_, legible_or_unreadable ..⟩
  · obtain ⟨logs, old, recent, hlogs, rfl, hdivided⟩ := legible.divided lawful here keep
    exact ⟨_, _, _, by rw [prune, hlogs], hdivided.pruned lawful here legible.list⟩
  · cases hlogs : D.logs component s with
    | ok logs =>
      obtain ⟨entries, hlegible⟩ := legible_of_logs hlogs
      exact absurd unreadable hlegible.not_unreadable
    | error met => exact ⟨met, unreadable_of_logs hlogs, by rw [prune, hlogs]⟩

end Newest

end LogDirectory

/-! ## Directories in a tree of files -/

section Trees

variable {f : Files} {directory : String}

theorem list_logDirectory (directory : String) (f : Files) :
    (Files.logDirectory directory).list f =
      (f.list directory).map fun names => names.map fun log => .ok ⟨log.1, .ok log.2⟩ := rfl

/-- What is met in a directory in a tree of files are its entries. -/
theorem names_of_logDirectory {entries : List (DirectoryEntry String Nat FileFault)}
    (h : (Files.logDirectory directory).list f = .ok (entries.map .ok)) :
    entries.map (·.name) = (f.namesAt (f.placeOf directory)).map Prod.fst := by
  rw [list_logDirectory] at h
  cases hlist : f.list directory with
  | error fault =>
    rw [hlist] at h
    cases h
  | ok names =>
    rw [hlist] at h
    have hreads := congrArg (List.map fun read => (read.toOption.map (·.name))) (Except.ok.inj h)
    rw [← Files.list_eq_ok hlist]
    refine List.map_injective_iff.mpr (fun _ _ => Option.some.inj) ?_
    simpa [Function.comp_def, Except.toOption] using hreads.symm

/-- **A directory in a tree of files is lawful.** -/
theorem logDirectory_lawful (directory : String) :
    (Files.logDirectory directory).Lawful Files.Sound (Files.inside directory) where
  once _ read := by
    rw [names_of_logDirectory read]
    exact Files.nodup_namesAt _ _
  met _ read n := by
    rw [names_of_logDirectory read, Files.mem_namesAt, Files.inside_isSome]
  removed {f f' n} sound there done := by
    cases hremove : f.remove (Path.join directory n) with
    | error fault => simp [Files.logDirectory, hremove] at done
    | ok rest =>
      obtain rfl : rest = f' := by simpa [Files.logDirectory, hremove] using done
      exact Files.inside_of_remove sound there hremove
  refused {f f' n fault} sound failed := by
    cases hremove : f.remove (Path.join directory n) with
    | error other =>
      obtain ⟨-, rfl⟩ : other = fault ∧ f = f' := by
        simpa [Files.logDirectory, hremove] using failed
      exact ⟨sound, fun _ => rfl⟩
    | ok rest => simp [Files.logDirectory, hremove] at failed

end Trees

/-- Log files of two components, of which one is in fact a directory. -/
def oldLogs : Files := ⟨[], [
  ⟨["logs", "cli_a.log"], .directory, 100⟩,
  ⟨["logs", "cli_c.log"], .text "", 300⟩,
  ⟨["logs", "cli_b.log"], .text "", 300⟩,
  ⟨["logs", "cli_d.log"], .text "", 400⟩,
  ⟨["logs", "watch_a.log"], .text "", 50⟩]⟩

/-- What is met in their directory. -/
def oldLogEntries : List (DirectoryEntry String Nat FileFault) := [
  ⟨"cli_a.log", .ok 100⟩, ⟨"cli_c.log", .ok 300⟩, ⟨"cli_b.log", .ok 300⟩, ⟨"cli_d.log", .ok 400⟩,
  ⟨"watch_a.log", .ok 50⟩]

/-- The same log files, of which one of one component was to be kept. -/
def recentLogs : Files := ⟨[], [
  ⟨["logs", "cli_a.log"], .directory, 100⟩,
  ⟨["logs", "cli_d.log"], .text "", 400⟩,
  ⟨["logs", "watch_a.log"], .text "", 50⟩]⟩

theorem oldLogs_pruned : oldLogs.Sound ∧
    (Files.logDirectory "logs").prune "cli" 1 oldLogs =
      ([(some "cli_a.log", .isDirectory)], recentLogs) ∧
    ∃ attempted failed, (Files.logDirectory "logs").Pruned (Files.inside "logs") "cli" 1
        oldLogEntries oldLogs attempted failed recentLogs ∧
      attempted.length = 3 ∧ failed.length = 1 := by
  have hsound : oldLogs.Sound := ⟨by decide +kernel, by decide +kernel⟩
  have hlist : oldLogs.list "logs" = .ok [("cli_a.log", 100), ("cli_c.log", 300),
      ("cli_b.log", 300), ("cli_d.log", 400), ("watch_a.log", 50)] := by decide +kernel
  have hlegible : (Files.logDirectory "logs").Legible "cli" oldLogs oldLogEntries := by
    refine ⟨by rw [list_logDirectory, hlist]; rfl, fun e he => ?_⟩
    have hentry := (LogDirectory.mem_matching.mp he).1
    simp only [oldLogEntries, List.mem_cons, List.not_mem_nil, or_false] at hentry
    rcases hentry with rfl | rfl | rfl | rfl | rfl <;> exact ⟨_, rfl⟩
  have hlogs : (Files.logDirectory "logs").logs "cli" oldLogs =
      .ok [("cli_a.log", 100), ("cli_c.log", 300), ("cli_b.log", 300), ("cli_d.log", 400)] := by
    decide +kernel
  have hexcess : LogFile.excess 1 [("cli_a.log", 100), ("cli_c.log", 300), ("cli_b.log", 300),
      ("cli_d.log", 400)] = ["cli_a.log", "cli_b.log", "cli_c.log"] := by
    simp [LogFile.excess, List.mergeSort, List.MergeSort.Internal.splitInTwo, LogFile.goesBefore]
  have hevaluated : (Files.logDirectory "logs").prune "cli" 1 oldLogs =
      ([(some "cli_a.log", .isDirectory)], recentLogs) := by
    rw [LogDirectory.prune, hlogs]
    simp only [hexcess]
    decide +kernel
  obtain ⟨attempted, failed, s', hprune, hpruned⟩ :=
    (LogDirectory.prune_keeps_newest (logDirectory_lawful "logs") hsound "cli" 1).1 _ hlegible
  rw [hevaluated] at hprune
  obtain ⟨hfailed, rfl⟩ := Prod.mk.inj hprune
  refine ⟨hsound, hevaluated, attempted, failed, hpruned, ?_, ?_⟩
  · rw [hpruned.count]
    decide +kernel
  · simpa using (congrArg List.length hfailed).symm

end Replay
