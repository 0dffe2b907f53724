import Replay.Proofs.Number.Finite

/-!
# Integers among the doubles

An integer of at most `2^53` in magnitude is a double exactly, and so is the sum of two of them that
is no larger: scaling takes nothing off it that is not zero.

* `Binary64.IsInteger` — a double that is an integer
* `Binary64.ofInt_isInteger`, `Binary64.IsInteger.add` — small integers and their sums
* `Binary64.toInt?_eq_some_iff` — it is found out which integer a double is
-/

set_option autoImplicit false

namespace Replay

theorem twoTo_dvd {n m : Nat} (h : n ≤ m) : twoTo n ∣ twoTo m := Nat.pow_dvd_pow 2 h

/-- A multiple is divided without a rest, so there is nothing to round. -/
theorem roundDiv_of_dvd {a d : Nat} (h : d ∣ a) : roundDiv a d = a / d := by
  have hrest : a % d = 0 := Nat.mod_eq_zero_of_dvd h
  rcases Nat.eq_zero_or_pos d with rfl | hd
  · simp [roundDiv, Nat.eq_zero_of_zero_dvd h]
  · unfold roundDiv
    simp only [hrest, Nat.mul_zero]
    rw [if_pos (.inl hd)]

namespace Binary64

/-- **A double that is an integer.** -/
structure IsInteger (x : Binary64) (i : Int) : Prop where
  finite : x.isFinite = true
  grains : x.grains = i * unit

theorem unit_pos : 0 < unit := twoTo_pos 1074

theorem zero_grains (negative : Bool) : (zero negative).grains = 0 := by
  cases negative <;> rfl

/-- A fraction that its scale divides is rounded to itself. -/
theorem nearest_of_dvd (negative : Bool) {a : Nat} (small : a < twoTo 2097)
    (whole : twoTo (scaleOf a 1) ∣ a) :
    (nearest negative a 1).isFinite = true ∧
      (nearest negative a 1).grains = if negative then -(a : Int) else a := by
  obtain ⟨hfits, hleast⟩ := scaleOf_spec (a := a) Nat.one_pos
  unfold nearest
  dsimp only
  generalize scaleOf a 1 = scale at hfits hleast whole
  rw [Nat.one_mul] at hfits hleast ⊢
  have hvalue : a / twoTo scale * twoTo scale = a := Nat.div_mul_cancel whole
  have hupper : a / twoTo scale < twoTo 53 := by
    rw [Nat.div_lt_iff_lt_mul (twoTo_pos scale), Nat.mul_comm, ← twoTo_add]
    exact hfits
  have hlower : twoTo 52 ≤ a / twoTo scale ∨ scale = 0 := by
    refine hleast.symm.imp_left fun hleast => ?_
    rw [Nat.le_div_iff_mul_le (twoTo_pos scale), Nat.mul_comm, ← twoTo_add]
    exact hleast
  have hscale : scale ≤ 2045 := by
    rcases hleast with rfl | hleast
    · exact Nat.zero_le _
    · have hpower : scale + 52 < 2097 := twoTo_lt.mp (Nat.lt_of_le_of_lt hleast small)
      omega
  rw [roundDiv_of_dvd whole, if_neg (Nat.ne_of_lt hupper)]
  have hpack : Fits (a / twoTo scale) scale := ⟨hupper, hlower, hscale⟩
  refine ⟨pack_isFinite hpack, ?_⟩
  rw [pack, dif_pos hpack, grains, magnitude, hvalue]
  rfl

/-- At the scale of a small integer nothing is cut off. -/
theorem scaleOf_dvd {n : Nat} (small : n ≤ twoTo 53) :
    twoTo (scaleOf (n * unit) 1) ∣ n * unit := by
  obtain ⟨-, hleast⟩ := scaleOf_spec (a := n * unit) Nat.one_pos
  generalize scaleOf (n * unit) 1 = scale at hleast
  by_cases hscale : scale ≤ 1074
  · have hunit : twoTo scale ∣ unit := twoTo_dvd hscale
    exact Nat.dvd_mul_left_of_dvd hunit n
  · -- the only integer that large is `2^53`, and it is a power of two
    have hmost : n * unit ≤ twoTo (53 + 1074) := by
      rw [unit, twoTo_add]
      exact Nat.mul_le_mul_right _ small
    have hbelow : twoTo (scale + 52) ≤ n * unit := by
      rcases hleast with rfl | hleast
      · exact absurd (Nat.zero_le 1074) hscale
      · rwa [Nat.one_mul] at hleast
    have hpower : n * unit = twoTo (scale + 52) := by
      refine Nat.le_antisymm (Nat.le_trans hmost (twoTo_le (by omega))) hbelow
    rw [hpower]
    exact twoTo_dvd (Nat.le_add_right scale 52)

theorem nearest_isInteger {negative : Bool} {i : Int} (small : i.natAbs ≤ twoTo 53)
    (sign : negative = decide (i < 0)) : (nearest negative (i.natAbs * unit) 1).IsInteger i := by
  have hlarge : i.natAbs * unit < twoTo 2097 := by
    calc i.natAbs * unit ≤ twoTo 53 * unit := Nat.mul_le_mul_right _ small
      _ = twoTo (53 + 1074) := by rw [twoTo_add, unit]
      _ < twoTo 2097 := twoTo_lt.mpr (by decide)
  obtain ⟨hfinite, hgrains⟩ := nearest_of_dvd negative hlarge (scaleOf_dvd small)
  refine ⟨hfinite, hgrains.trans ?_⟩
  generalize unit = u
  rw [sign]
  rcases Int.lt_or_le i 0 with hi | hi
  · rw [if_pos (by simpa using hi), Int.natCast_mul, Int.ofNat_natAbs_of_nonpos (Int.le_of_lt hi)]
    rw [Int.neg_mul, Int.neg_neg]
  · rw [if_neg (by simpa using hi), Int.natCast_mul, Int.natAbs_of_nonneg hi]

/-- **A small integer is a double.** -/
theorem ofInt_isInteger {i : Int} (small : i.natAbs ≤ twoTo 53) : (ofInt i).IsInteger i :=
  nearest_isInteger small rfl

/-- **The sum of two integers is exact**, if it is small. -/
theorem IsInteger.add {x y : Binary64} {i j : Int} (hx : x.IsInteger i) (hy : y.IsInteger j)
    (small : (i + j).natAbs ≤ twoTo 53) : (x.add y).IsInteger (i + j) := by
  have hsum : x.grains + y.grains = (i + j) * unit := by
    rw [hx.grains, hy.grains, Int.add_mul]
  obtain ⟨hx, -⟩ := hx
  obtain ⟨hy, -⟩ := hy
  cases x with
  | nan => cases hx
  | infinite _ => cases hx
  | finite negative significand scale fits =>
    cases y with
    | nan => cases hy
    | infinite _ => cases hy
    | finite negative' significand' scale' fits' =>
      unfold Binary64.add
      simp only [hsum]
      have hunit : (0 : Int) < unit := Int.natCast_pos.mpr unit_pos
      split
      · rename_i hzero
        have hi : i + j = 0 := (Int.mul_eq_zero.mp hzero).resolve_right (Int.ne_of_gt hunit)
        refine ⟨rfl, ?_⟩
        rw [hi, Int.zero_mul]
        exact zero_grains _
      · have hsign : decide ((i + j) * unit < 0) = decide (i + j < 0) := by
          generalize (unit : Int) = u at hunit
          rw [decide_eq_decide]
          refine ⟨fun h => Int.not_le.mp fun hle => ?_, fun h => Int.mul_neg_of_neg_of_pos h hunit⟩
          exact Int.not_le.mpr h (Int.mul_nonneg hle (Int.le_of_lt hunit))
        rw [Int.natAbs_mul, Int.natAbs_natCast]
        exact nearest_isInteger small hsign

/-- **It is found out which integer a double is.** -/
theorem toInt?_eq_some_iff {x : Binary64} {i : Int} : x.toInt? = some i ↔ x.IsInteger i := by
  cases x with
  | nan => exact ⟨nofun, fun h => nomatch h.finite⟩
  | infinite _ => exact ⟨nofun, fun h => nomatch h.finite⟩
  | finite negative significand scale fits =>
    have hinteger : (finite negative significand scale fits).IsInteger i ↔
        (if negative then -((significand * twoTo scale : Nat) : Int)
          else ((significand * twoTo scale : Nat) : Int)) = i * unit :=
      ⟨fun h => h.grains, fun h => ⟨rfl, h⟩⟩
    rw [hinteger, toInt?]
    have hunit := unit_pos
    generalize significand * twoTo scale = a
    generalize unit = u at hunit
    constructor
    · intro h
      split at h
      · rename_i hwhole
        have ha : u * (a / u) = a := Nat.mul_div_cancel' (Nat.dvd_of_mod_eq_zero hwhole)
        cases h
        generalize a / u = q at ha
        subst ha
        rw [Int.natCast_mul, Int.mul_comm]
        cases negative <;> simp only [Bool.false_eq_true, if_false, if_true, Int.neg_mul]
      · cases h
    · intro h
      have ha : a = i.natAbs * u := by
        have habs := congrArg Int.natAbs h
        rw [Int.natAbs_mul, Int.natAbs_natCast] at habs
        cases negative <;> simpa using habs
      subst ha
      rw [if_pos (Nat.mul_mod_left _ _), Nat.mul_div_cancel _ hunit]
      have hu : (0 : Int) < u := Int.natCast_pos.mpr hunit
      have hi : (if negative then -(i.natAbs : Int) else (i.natAbs : Int)) = i := by
        refine Int.eq_of_mul_eq_mul_right (Int.ne_of_gt hu) (Eq.trans ?_ h)
        rw [Int.natCast_mul]
        cases negative <;> simp only [Bool.false_eq_true, if_false, if_true, Int.neg_mul]
      rw [hi]

end Binary64

end Replay
