import Mathlib.Order.Bounds.Basic
import Replay.Proofs.Playback.LoopBodies

/-!
# Matching ends

The end of a loop is found by counting: it is the first place at which the ends of loops, counted
from behind the beginning, are more than the beginnings. Up to there no end is one too many, so the
steps in between are well nested: every loop that begins among them ends among them, and it ends at
the same step wherever the list is cut in front of it or behind the end that was found.

* `Step.Outnumbered` — there are more ends than beginnings
* `Step.closingFrom_eq_some_iff` — counting down finds the first place where that is so
* `Step.WellNested` — as many ends as beginnings, and nowhere too many of them
* `Step.loopEnd?_matches` — what that says of the loops among some steps
-/

set_option autoImplicit false

namespace Replay

namespace Step

/-! ## Beginnings and ends, counted -/

/-- Whether a step can be read as the beginning of a loop. -/
def beginsLoop (s : Step) : Bool := s.loop?.isSome

/-- Whether a step can be read as the end of a loop. -/
def endsLoop (s : Step) : Bool :=
  match s.instruction with
  | .ok (.directive .loopEnd) => true
  | _ => false

theorem beginsLoop_iff {s : Step} : s.beginsLoop = true ↔ s.bracket = .opens := by
  unfold beginsLoop
  rw [Option.isSome_iff_exists]
  constructor
  · rintro ⟨l, hl⟩
    exact bracket_of_loop (loop?_eq_some.mp hl)
  · intro h
    obtain ⟨l, hl⟩ := reads_of_opens h
    exact ⟨l, loop?_eq_some.mpr hl⟩

theorem endsLoop_iff {s : Step} : s.endsLoop = true ↔ s.bracket = .closes := by
  constructor
  · intro h
    unfold endsLoop at h
    split at h
    · rename_i reads
      simp [bracket, reads]
    · cases h
  · intro h
    simp [endsLoop, reads_of_closes h]

/-- How many loops begin among some steps. -/
def beginnings (steps : List Step) : Nat := steps.countP beginsLoop

/-- How many loops end among some steps, wherever they begin. -/
def ends (steps : List Step) : Nat := steps.countP endsLoop

theorem beginnings_append (a b : List Step) : beginnings (a ++ b) = beginnings a + beginnings b :=
  List.countP_append

theorem ends_append (a b : List Step) : ends (a ++ b) = ends a + ends b := List.countP_append

section Counts

variable {s : Step} {rest : List Step}

theorem count_opens (h : s.bracket = .opens) :
    beginnings (s :: rest) = beginnings rest + 1 ∧ ends (s :: rest) = ends rest := by
  have hbegins : s.beginsLoop = true := beginsLoop_iff.mpr h
  have hends : ¬s.endsLoop = true := by simp [endsLoop_iff, h]
  exact ⟨List.countP_cons_of_pos hbegins, List.countP_cons_of_neg hends⟩

theorem count_closes (h : s.bracket = .closes) :
    beginnings (s :: rest) = beginnings rest ∧ ends (s :: rest) = ends rest + 1 := by
  have hbegins : ¬s.beginsLoop = true := by simp [beginsLoop_iff, h]
  have hends : s.endsLoop = true := endsLoop_iff.mpr h
  exact ⟨List.countP_cons_of_neg hbegins, List.countP_cons_of_pos hends⟩

theorem count_neither (h : s.bracket = .neither) :
    beginnings (s :: rest) = beginnings rest ∧ ends (s :: rest) = ends rest := by
  have hbegins : ¬s.beginsLoop = true := by simp [beginsLoop_iff, h]
  have hends : ¬s.endsLoop = true := by simp [endsLoop_iff, h]
  exact ⟨List.countP_cons_of_neg hbegins, List.countP_cons_of_neg hends⟩

end Counts

/-! ## The first end too many -/

/-- More loops end among some steps than begin there, even if so many have begun before. -/
def Outnumbered (inner : Nat) (steps : List Step) : Prop := inner + beginnings steps < ends steps

/-- The places among some steps up to which the ends outnumber the beginnings. -/
def surplus (inner : Nat) (steps : List Step) : Set Nat :=
  {place | place < steps.length ∧ Outnumbered inner (steps.take (place + 1))}

section Surplus

variable {inner inner' place : Nat} {s : Step} {rest steps : List Step}

theorem zero_mem_surplus : 0 ∈ surplus inner (s :: rest) ↔ Outnumbered inner [s] := by
  simp [surplus]

theorem not_outnumbered_nil (inner : Nat) : ¬Outnumbered inner [] := Nat.not_lt_zero _

theorem succ_mem_surplus (h : ∀ steps, Outnumbered inner (s :: steps) ↔ Outnumbered inner' steps) :
    place + 1 ∈ surplus inner (s :: rest) ↔ place ∈ surplus inner' rest := by
  simp only [surplus, Set.mem_ofPred_eq, List.length_cons, List.take_succ_cons, h,
    Nat.add_lt_add_iff_right]

/-- Where the ends outnumber the beginnings, there is a first place up to which they do. -/
theorem Outnumbered.mem_surplus (h : Outnumbered inner steps) :
    steps.length - 1 ∈ surplus inner steps := by
  have hsome : steps ≠ [] := by
    rintro rfl
    exact not_outnumbered_nil _ h
  have hlength := List.length_pos_iff.mpr hsome
  refine ⟨by omega, ?_⟩
  rwa [Nat.sub_add_cancel hlength, List.take_length]

/-- Where there is no surplus at the first step, it is where the others have one. -/
theorem isLeast_surplus_cons (first : 0 ∉ surplus inner (s :: rest))
    (h : ∀ steps, Outnumbered inner (s :: steps) ↔ Outnumbered inner' steps)
    (least : IsLeast (surplus inner' rest) place) :
    IsLeast (surplus inner (s :: rest)) (place + 1) := by
  refine ⟨(succ_mem_surplus h).mpr least.1, fun other hother => ?_⟩
  cases other with
  | zero => exact absurd hother first
  | succ other => exact Nat.succ_le_succ (least.2 ((succ_mem_surplus h).mp hother))

theorem surplus_cons_eq_empty (first : 0 ∉ surplus inner (s :: rest))
    (h : ∀ steps, Outnumbered inner (s :: steps) ↔ Outnumbered inner' steps)
    (none : surplus inner' rest = ∅) : surplus inner (s :: rest) = ∅ := by
  rw [Set.eq_empty_iff_forall_notMem] at none ⊢
  intro place hplace
  cases place with
  | zero => exact first hplace
  | succ place => exact none place ((succ_mem_surplus h).mp hplace)

/-- What a step does to the count: unless it is the end that is looked for, it leaves so many loops
to be ended behind it. -/
theorem closingFrom_cons (inner : Nat) (s : Step) (rest : List Step) :
    closingFrom inner (s :: rest) = some 0 ∧ 0 ∈ surplus inner (s :: rest) ∨
      ∃ inner', closingFrom inner (s :: rest) = (closingFrom inner' rest).map (· + 1) ∧
        0 ∉ surplus inner (s :: rest) ∧
        ∀ steps, Outnumbered inner (s :: steps) ↔ Outnumbered inner' steps := by
  rw [zero_mem_surplus]
  -- Behind a step that is not the end looked for, the count is that of the others, with another
  -- number of open loops; the step alone is the case without others.
  suffices h : closingFrom inner (s :: rest) = some 0 ∧ Outnumbered inner [s] ∨
      ∃ inner', closingFrom inner (s :: rest) = (closingFrom inner' rest).map (· + 1) ∧
        ∀ steps, Outnumbered inner (s :: steps) ↔ Outnumbered inner' steps by
    refine h.imp_right ?_
    rintro ⟨inner', hrest, hcount⟩
    exact ⟨inner', hrest, fun hfirst => not_outnumbered_nil _ ((hcount []).mp hfirst), hcount⟩
  cases hs : s.bracket with
  | opens =>
    refine .inr ⟨inner + 1, by simp [closingFrom, hs], fun steps => ?_⟩
    rw [Outnumbered, Outnumbered, (count_opens hs).1, (count_opens hs).2]
    omega
  | neither =>
    refine .inr ⟨inner, by simp [closingFrom, hs], fun steps => ?_⟩
    rw [Outnumbered, Outnumbered, (count_neither hs).1, (count_neither hs).2]
  | closes =>
    cases inner with
    | zero =>
      refine .inl ⟨by simp [closingFrom, hs], ?_⟩
      rw [Outnumbered, (count_closes hs).1, (count_closes hs).2]
      exact Nat.one_pos
    | succ inner =>
      refine .inr ⟨inner, by simp [closingFrom, hs], fun steps => ?_⟩
      rw [Outnumbered, Outnumbered, (count_closes hs).1, (count_closes hs).2]
      omega

end Surplus

theorem isLeast_of_closingFrom {steps : List Step} : ∀ {inner place : Nat},
    closingFrom inner steps = some place → IsLeast (surplus inner steps) place := by
  induction steps with
  | nil => nofun
  | cons s rest ih =>
    intro inner place hplace
    obtain ⟨hfirst, hsurplus⟩ | ⟨inner', hrest, hfirst, hcount⟩ := closingFrom_cons inner s rest
    · obtain rfl : 0 = place := by simpa using hfirst.symm.trans hplace
      exact ⟨hsurplus, fun _ _ => Nat.zero_le _⟩
    · obtain ⟨place, hplace', rfl⟩ := Option.map_eq_some_iff.mp (hrest.symm.trans hplace)
      exact isLeast_surplus_cons hfirst hcount (ih hplace')

theorem surplus_of_closingFrom {steps : List Step} : ∀ {inner : Nat},
    closingFrom inner steps = none → surplus inner steps = ∅ := by
  induction steps with
  | nil => intro inner _; simp [surplus]
  | cons s rest ih =>
    intro inner hnone
    obtain ⟨hfirst, -⟩ | ⟨inner', hrest, hfirst, hcount⟩ := closingFrom_cons inner s rest
    · cases hfirst.symm.trans hnone
    · have hnone' := Option.map_eq_none_iff.mp (hrest.symm.trans hnone)
      exact surplus_cons_eq_empty hfirst hcount (ih hnone')

section Ends

variable {inner place : Nat} {steps : List Step}

theorem closingFrom_eq_none_iff : closingFrom inner steps = none ↔ surplus inner steps = ∅ := by
  refine ⟨surplus_of_closingFrom, fun hempty => ?_⟩
  cases hplace : closingFrom inner steps with
  | none => rfl
  | some place =>
    have hmem := (isLeast_of_closingFrom hplace).1
    rw [hempty] at hmem
    cases hmem

/-- **Counting down finds the first place with an end too many.** -/
theorem closingFrom_eq_some_iff :
    closingFrom inner steps = some place ↔ IsLeast (surplus inner steps) place := by
  refine ⟨isLeast_of_closingFrom, fun hleast => ?_⟩
  cases hplace : closingFrom inner steps with
  | none =>
    have hmem := hleast.1
    rw [surplus_of_closingFrom hplace] at hmem
    cases hmem
  | some other => rw [(isLeast_of_closingFrom hplace).unique hleast]

end Ends

/-! ## Well-nested steps -/

/-- **Well-nested steps**: as many loops end as begin, and nowhere have more ended than begun. -/
structure WellNested (steps : List Step) : Prop where
  balanced : ends steps = beginnings steps
  upright : ∀ n, ends (steps.take n) ≤ beginnings (steps.take n)

/-- **The body of a loop is well nested.** -/
theorem wellNested_of_closing? {steps : List Step} {place : Nat} (h : closing? steps = some place) :
    WellNested (steps.take place) := by
  obtain ⟨⟨hlt, hsurplus⟩, hleast⟩ := isLeast_of_closingFrom h
  have hupright : ∀ n ≤ place, ends (steps.take n) ≤ beginnings (steps.take n) := by
    intro n hn
    cases n with
    | zero => exact Nat.le_refl _
    | succ n =>
      refine Nat.not_lt.mp fun hmore => Nat.not_lt.mpr (hleast ⟨by omega, ?_⟩) hn
      rwa [Outnumbered, Nat.zero_add]
  refine ⟨?_, fun n => ?_⟩
  · -- The step at the place is one end at most, and with it there are more ends than beginnings.
    have hbefore := hupright place (Nat.le_refl _)
    have hone : ends [steps[place]] ≤ 1 := List.countP_le_length
    rw [List.take_add_one, List.getElem?_eq_getElem hlt, Option.toList_some, Outnumbered,
      ends_append, beginnings_append] at hsurplus
    omega
  · rw [List.take_take]
    exact hupright _ (Nat.min_le_right _ _)

/-- **A loop that begins in the body of another one ends there.** -/
theorem closing?_of_wellNested {before behind : List Step} {opening : Step}
    (nested : WellNested (before ++ opening :: behind)) (begins : opening.bracket = .opens) :
    ∃ place, closing? behind = some place := by
  have hbalanced := nested.balanced
  have hbefore := nested.upright before.length
  rw [List.take_left] at hbefore
  rw [ends_append, beginnings_append, (count_opens begins).1, (count_opens begins).2] at hbalanced
  have hmore : Outnumbered 0 behind := by
    rw [Outnumbered]
    omega
  rw [← Option.ne_none_iff_exists', Ne, closing?, closingFrom_eq_none_iff]
  exact Set.nonempty_iff_ne_empty.mp ⟨_, hmore.mem_surplus⟩

/-! ## Loops by their places -/

/-- The place of the end of the loop that begins at a place. -/
def loopEnd? (steps : List Step) (start : Nat) : Option Nat :=
  (closing? (steps.drop (start + 1))).map (start + 1 + ·)

/-- The steps behind a place, up to another place and with the step there. -/
def through (steps : List Step) (start stop : Nat) : List Step :=
  (steps.take (stop + 1)).drop (start + 1)

/-- The steps behind a place and in front of another one. -/
def between (steps : List Step) (start stop : Nat) : List Step :=
  (steps.take stop).drop (start + 1)

/-- The places behind the beginning of a loop up to which the ends of loops outnumber the other
beginnings. -/
def overEnds (steps : List Step) (start : Nat) : Set Nat :=
  {stop | start < stop ∧ stop < steps.length ∧ Outnumbered 0 (through steps start stop)}

section Places

variable {steps : List Step} {start stop place : Nat}

theorem mem_overEnds_iff :
    start + 1 + place ∈ overEnds steps start ↔ place ∈ surplus 0 (steps.drop (start + 1)) := by
  have hthrough : through steps start (start + 1 + place) =
      (steps.drop (start + 1)).take (place + 1) := by
    rw [through, List.drop_take]
    congr 1
    omega
  simp only [overEnds, surplus, Set.mem_ofPred_eq, hthrough, List.length_drop]
  constructor
  · rintro ⟨-, hstop, hmore⟩
    exact ⟨by omega, hmore⟩
  · rintro ⟨hplace, hmore⟩
    exact ⟨by omega, by omega, hmore⟩

theorem exists_of_mem_overEnds (h : stop ∈ overEnds steps start) :
    ∃ place, stop = start + 1 + place := Nat.exists_eq_add_of_le h.1

theorem loopEnd?_eq_some_iff :
    loopEnd? steps start = some stop ↔ IsLeast (overEnds steps start) stop := by
  rw [loopEnd?, Option.map_eq_some_iff]
  constructor
  · rintro ⟨place, hplace, rfl⟩
    have hleast := isLeast_of_closingFrom hplace
    refine ⟨mem_overEnds_iff.mpr hleast.1, fun other hother => ?_⟩
    obtain ⟨place', rfl⟩ := exists_of_mem_overEnds hother
    have := hleast.2 (mem_overEnds_iff.mp hother)
    omega
  · rintro ⟨hmem, hleast⟩
    obtain ⟨place, rfl⟩ := exists_of_mem_overEnds hmem
    refine ⟨place, closingFrom_eq_some_iff.mpr ⟨mem_overEnds_iff.mp hmem, fun other hother => ?_⟩, rfl⟩
    have := hleast (mem_overEnds_iff.mpr hother)
    omega

theorem loopEnd?_eq_none_iff : loopEnd? steps start = none ↔ overEnds steps start = ∅ := by
  rw [loopEnd?, Option.map_eq_none_iff, closing?, closingFrom_eq_none_iff,
    Set.eq_empty_iff_forall_notMem, Set.eq_empty_iff_forall_notMem]
  constructor
  · intro hnone stop hstop
    obtain ⟨place, rfl⟩ := exists_of_mem_overEnds hstop
    exact hnone place (mem_overEnds_iff.mp hstop)
  · exact fun hnone place hplace => hnone _ (mem_overEnds_iff.mpr hplace)

/-! ### Loops inside a body -/

/-- The body of a loop is what stands in front of an inner beginning, that, and the rest. -/
theorem between_split (behind : start < place) (inside : place < stop) {opening : Step}
    (there : steps[place]? = some opening) :
    between steps start stop = between steps start place ++ opening :: between steps place stop := by
  obtain ⟨hlt, rfl⟩ := List.getElem?_eq_some_iff.mp there
  have hlength : place < (steps.take stop).length := by
    rw [List.length_take]
    omega
  have hsplit : steps.take stop =
      steps.take place ++ steps[place] :: (steps.take stop).drop (place + 1) := by
    have hrest := List.drop_eq_getElem_cons hlength
    rw [List.getElem_take] at hrest
    rw [← hrest, ← Nat.min_eq_left inside.le, ← List.take_take, Nat.min_eq_left inside.le,
      List.take_append_drop]
  have hle : start + 1 ≤ (steps.take place).length := by
    rw [List.length_take]
    omega
  have hdrop := congrArg (List.drop (start + 1)) hsplit
  rwa [List.drop_append_of_le_length hle] at hdrop

theorem drop_between (behind : start < place) :
    (between steps start stop).drop (place - (start + 1) + 1) = between steps place stop := by
  rw [between, between, List.drop_drop]
  congr 1
  omega

theorem wellNested_of_loopEnd? (ends : loopEnd? steps start = some stop) :
    WellNested (between steps start stop) := by
  obtain ⟨n, hclosing, rfl⟩ := Option.map_eq_some_iff.mp ends
  have hbody : between steps start (start + 1 + n) = (steps.drop (start + 1)).take n := by
    rw [between, List.drop_take]
    congr 1
    omega
  rw [hbody]
  exact wellNested_of_closing? hclosing

/-- **Where a loop ends that begins in the body of another one.** It ends in that body, and at the
same step if the body is looked at alone or if something is cut off in front of its beginning. -/
theorem loopEnd?_inside (ends : loopEnd? steps start = some stop) (behind : start < place)
    (inside : place < stop) {opening : Step} (there : steps[place]? = some opening)
    (begins : opening.beginsLoop = true) :
    ∃ close, place < close ∧ close < stop ∧ loopEnd? steps place = some close ∧
      loopEnd? (between steps start stop) (place - (start + 1)) = some (close - (start + 1)) ∧
      ∀ cut ≤ place, loopEnd? (steps.drop cut) (place - cut) = some (close - cut) := by
  have hnested := wellNested_of_loopEnd? ends
  rw [between_split behind inside there] at hnested
  obtain ⟨n, hinner⟩ := closing?_of_wellNested hnested (beginsLoop_iff.mp begins)
  -- The steps behind the inner beginning are those in the body, and then those behind the body.
  have hrest : steps.drop (place + 1) = between steps place stop ++ steps.drop stop := by
    have hle : place + 1 ≤ (steps.take stop).length := by
      obtain ⟨hlt, -⟩ := (loopEnd?_eq_some_iff.mp ends).1.2
      rw [List.length_take]
      omega
    rw [between, ← List.drop_append_of_le_length hle, List.take_append_drop]
  obtain ⟨hclosing, hn⟩ := closingFrom_append (steps.drop stop) hinner
  rw [← hrest] at hclosing
  have hlength : (between steps place stop).length ≤ stop - (place + 1) := by
    rw [between, List.length_drop, List.length_take]
    omega
  refine ⟨place + 1 + n, by omega, by omega, ?_, ?_, fun cut hcut => ?_⟩
  · rw [loopEnd?, closing?, hclosing, Option.map_some]
  · rw [loopEnd?, drop_between behind, hinner, Option.map_some]
    congr 1
    omega
  · have hdrop : (steps.drop cut).drop (place - cut + 1) = steps.drop (place + 1) := by
      rw [List.drop_drop]
      congr 1
      omega
    rw [loopEnd?, hdrop, closing?, hclosing, Option.map_some]
    congr 1
    omega

end Places

/-- **The end of a loop is the first end too many.** From any place on, the end that is found is the
least place behind it up to which the steps that can be read as ends of loops outnumber those that
can be read as beginnings; if there is no such place, none is found. The step there is an end, and
the body in front of it is well nested: whichever loop begins in the body ends in it, and at the
same step in the whole list, in the body alone and in whatever is left of the list behind a cut in
front of that loop. -/
theorem loopEnd?_matches (steps : List Step) (start : Nat) :
    (∀ stop, loopEnd? steps start = some stop ↔ IsLeast (overEnds steps start) stop) ∧
    (loopEnd? steps start = none ↔ ∀ stop, stop ∉ overEnds steps start) ∧
    ∀ stop, loopEnd? steps start = some stop →
      (∃ closing, steps[stop]? = some closing ∧ closing.endsLoop = true) ∧
      WellNested (between steps start stop) ∧
      ∀ place opening, start < place → place < stop → steps[place]? = some opening →
        opening.beginsLoop = true →
        ∃ close, place < close ∧ close < stop ∧ loopEnd? steps place = some close ∧
          loopEnd? (between steps start stop) (place - (start + 1)) = some (close - (start + 1)) ∧
          ∀ cut ≤ place, loopEnd? (steps.drop cut) (place - cut) = some (close - cut) := by
  refine ⟨fun stop => loopEnd?_eq_some_iff, ?_, fun stop hstop => ⟨?_, ?_, ?_⟩⟩
  · rw [loopEnd?_eq_none_iff, Set.eq_empty_iff_forall_notMem]
  · obtain ⟨n, hclosing, rfl⟩ := Option.map_eq_some_iff.mp hstop
    obtain ⟨closing, hcloses, hsplit⟩ := closing?_split hclosing
    have hlt := lt_of_closing? hclosing
    refine ⟨closing, ?_, endsLoop_iff.mpr hcloses⟩
    rw [← List.getElem?_drop, hsplit, List.getElem?_append_right (by simp), List.length_take,
      Nat.min_eq_left hlt.le, Nat.sub_self, List.getElem?_cons_zero]
  · exact wellNested_of_loopEnd? hstop
  · exact fun place opening behind inside there begins =>
      loopEnd?_inside hstop behind inside there begins

end Step

/-- A loop in a loop, with a directive that cannot be read, and with an end too many behind them. -/
def nestedLoops : List Step := [
  .recorded "l" "ar.event:\x7b\"Type\":\"Loop\",\"StatementType\":\"repeat\",\"RepeatCount\":2\x7d",
  .recorded "k" "ar.event:\x7b\"Type\":\"Loop\",\"StatementType\":\"repeat\",\"RepeatCount\":3\x7d",
  .recorded "b" "ar.event:\x7b\"Type\":\"Loop\"",
  .recorded "f" "ar.event:\x7b\"Type\":\"EndLoop\"\x7d",
  .recorded "x" "bpy.context.scene.x = 1",
  .recorded "e" "ar.event:\x7b\"Type\":\"EndLoop\"\x7d",
  .recorded "g" "ar.event:\x7b\"Type\":\"EndLoop\"\x7d"]

theorem nestedLoops_match :
    Step.loopEnd? nestedLoops 0 = some 5 ∧
      Step.WellNested (Step.between nestedLoops 0 5) ∧
      Step.loopEnd? nestedLoops 1 = some 3 ∧
      Step.loopEnd? (Step.between nestedLoops 0 5) 0 = some 2 ∧
      Step.loopEnd? (nestedLoops.drop 1) 0 = some 2 := by
  have houter : Step.loopEnd? nestedLoops 0 = some 5 := by decide +kernel
  have hinner : Step.loopEnd? nestedLoops 1 = some 3 := by decide +kernel
  obtain ⟨-, -, hmatches⟩ := Step.loopEnd?_matches nestedLoops 0
  obtain ⟨-, hnested, hinside⟩ := hmatches 5 houter
  obtain ⟨close, -, -, hclose, hbody, hcut⟩ :=
    hinside 1 _ (by decide) (by decide) rfl (by decide +kernel)
  obtain rfl : close = 3 := Option.some.inj (hclose.symm.trans hinner)
  exact ⟨houter, hnested, hclose, hbody, hcut 1 (Nat.le_refl _)⟩

end Replay
