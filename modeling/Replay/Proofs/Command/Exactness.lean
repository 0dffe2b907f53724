import Mathlib.Data.List.Nodup
import Mathlib.Data.List.Perm.Subperm
import Replay.Proofs.Command.Arguments

/-!
# Exact arguments

Whether a call has the expected arguments and no others is decided without a look at the ones that
are not expected: the numbers of both are compared, and every expected key is looked up, where the
first argument with that key answers. That is enough if the expected keys differ. Each of them takes
up an argument of its own, so there is no room for another one, nor for one that comes twice.

* `Arguments.perm_of_lookup` — as many arguments as keys that are found are just those
* `Arguments.lookup_of_perm` — in any order, each key is found
* `Call.hasExactly_iff_perm` — the call has exactly the expected arguments, in some order
-/

set_option autoImplicit false

namespace Replay

namespace Arguments

variable {named expected : List (String × String)} (distinct : (expected.map Prod.fst).Nodup)
include distinct

/-- **There is no room for others** where different keys are found among as many arguments. -/
theorem perm_of_lookup (length : named.length = expected.length)
    (found : ∀ e ∈ expected, named.lookup e.1 = some e.2) : named.Perm expected := by
  have hpairs : expected.Nodup := List.Nodup.of_map Prod.fst distinct
  have hthere : expected ⊆ named := fun e he => mem_of_lookup (found e he)
  -- the pigeonhole: what is expected is a part of what is there, and the part is as long
  have hpart : expected.Subperm named := List.subperm_of_subset hpairs hthere
  exact (hpart.perm_of_length_le length.le).symm

/-- Where the keys differ, the order does not matter to what is found. -/
theorem lookup_of_perm (perm : named.Perm expected) :
    ∀ e ∈ expected, named.lookup e.1 = some e.2 := by
  have hkeys : (named.map Prod.fst).Nodup := (perm.map Prod.fst).nodup_iff.mpr distinct
  exact fun e he => lookup_of_mem hkeys (perm.mem_iff.mpr he)

end Arguments

namespace Call

variable {c : Call} {expected : List (String × String)}

theorem hasExactly_iff_lookup : c.hasExactly expected = true ↔
    c.named.length = expected.length ∧ ∀ e ∈ expected, c.named.lookup e.1 = some e.2 := by
  simp only [hasExactly, argument?, Bool.and_eq_true, beq_iff_eq, List.all_eq_true]

section Distinct

variable (distinct : (expected.map Prod.fst).Nodup)
include distinct

theorem perm_of_hasExactly (holds : c.hasExactly expected = true) : c.named.Perm expected := by
  obtain ⟨hlength, hfound⟩ := hasExactly_iff_lookup.mp holds
  exact Arguments.perm_of_lookup distinct hlength hfound

theorem hasExactly_of_perm (perm : c.named.Perm expected) : c.hasExactly expected = true :=
  hasExactly_iff_lookup.mpr ⟨perm.length_eq, Arguments.lookup_of_perm distinct perm⟩

end Distinct

/-- **A call has exactly the expected arguments if and only if its arguments are these in some
order**, whatever the call, its repeated keys included, and however many arguments with different
keys are expected. -/
theorem hasExactly_iff_perm (c : Call) (expected : List (String × String))
    (distinct : (expected.map Prod.fst).Nodup) :
    c.hasExactly expected = true ↔ c.named.Perm expected :=
  ⟨perm_of_hasExactly distinct, hasExactly_of_perm distinct⟩

/-- Two named arguments behind a positional one. -/
def sizedCall : Call := ⟨"object", "add", "'EXEC_DEFAULT'", [("name", "'A'"), ("size", "2")]⟩

/-- As many arguments, with one key for both. -/
def renamedCall : Call := ⟨"object", "add", "", [("name", "'A'"), ("name", "'B'")]⟩

/-- The order of two arguments does not matter, but one of them does not stand in for both. -/
theorem sizedCall_exact :
    Command.parse "bpy.ops.object.add('EXEC_DEFAULT', name='A', size=2)" = .call sizedCall ∧
      Command.parse "bpy.ops.object.add(name='A', name='B')" = .call renamedCall ∧
      ([("size", "2"), ("name", "'A'")].map Prod.fst).Nodup ∧
      sizedCall.hasExactly [("size", "2"), ("name", "'A'")] = true ∧
      renamedCall.hasExactly [("size", "2"), ("name", "'A'")] = false := by
  have hkeys : ([("size", "2"), ("name", "'A'")].map Prod.fst).Nodup := by decide
  have hperm : sizedCall.named.Perm [("size", "2"), ("name", "'A'")] := .swap _ _ _
  have hother : ¬renamedCall.named.Perm [("size", "2"), ("name", "'A'")] := by decide
  refine ⟨by decide +kernel, by decide +kernel, hkeys, ?_, ?_⟩
  · exact (hasExactly_iff_perm sizedCall _ hkeys).mpr hperm
  · exact Bool.eq_false_iff.mpr fun holds =>
      hother ((hasExactly_iff_perm renamedCall _ hkeys).mp holds)

/-- An expected key that comes twice is found twice in one place, and makes room for another one. -/
example : Call.hasExactly ⟨"object", "add", "", [("name", "'A'"), ("size", "2")]⟩
    [("name", "'A'"), ("name", "'A'")] = true := by decide

end Call

end Replay
