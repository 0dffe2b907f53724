import Replay.Number.Decimal

/-!
# Finite results

Rounding to the nearest double stays finite below `2^1023`, since the scale is the least one at
which the significand has no more than 53 digits.

* `Binary64.scaleOf_spec` — the scale at which a fraction is rounded
* `Binary64.nearest_isFinite` — small fractions are finite
* `Binary64.ofInt_isFinite`, `Binary64.div_isFinite` — integers, and quotients by two or more
-/

set_option autoImplicit false

namespace Replay

theorem twoTo_add (n m : Nat) : twoTo (n + m) = twoTo n * twoTo m := Nat.pow_add 2 n m

theorem twoTo_le {n m : Nat} (h : n ≤ m) : twoTo n ≤ twoTo m := Nat.pow_le_pow_right (by decide) h

theorem tenTo_le {n m : Nat} (h : n ≤ m) : tenTo n ≤ tenTo m := Nat.pow_le_pow_right (by decide) h

theorem twoTo_lt {n m : Nat} : twoTo n < twoTo m ↔ n < m := Nat.pow_lt_pow_iff_right (by decide)

/-! ## Rounding -/

theorem div_le_roundDiv (a d : Nat) : a / d ≤ roundDiv a d := by
  unfold roundDiv
  dsimp only
  split <;> omega

theorem roundDiv_le (a d : Nat) : roundDiv a d ≤ a / d + 1 := by
  unfold roundDiv
  dsimp only
  split <;> omega

namespace Binary64

variable {a d : Nat}

/-- The scale is the least one at which the quotient has at most 53 digits. -/
theorem scaleOf_spec (hd : 0 < d) :
    a < d * twoTo (scaleOf a d + 53) ∧
      (scaleOf a d = 0 ∨ d * twoTo (scaleOf a d + 52) ≤ a) := by
  have hlow : twoTo d.log2 ≤ d := Nat.log2_self_le (by omega)
  have hhigh : d < twoTo (d.log2 + 1) := Nat.lt_log2_self
  have habove : a < twoTo (a.log2 + 1) := Nat.lt_log2_self
  unfold scaleOf
  dsimp only
  generalize hp : a.log2 - (d.log2 + 53) = p
  split
  · rename_i hfits
    refine ⟨hfits, ?_⟩
    cases p with
    | zero => exact .inl rfl
    | succ p =>
      right
      have ha : a ≠ 0 := by
        rintro rfl
        simp at hp
      calc d * twoTo (p + 1 + 52)
          ≤ twoTo (d.log2 + 1) * twoTo (p + 1 + 52) := Nat.mul_le_mul_right _ (Nat.le_of_lt hhigh)
        _ = twoTo (d.log2 + 1 + (p + 1 + 52)) := (twoTo_add _ _).symm
        _ = twoTo a.log2 := by congr 1; omega
        _ ≤ a := Nat.log2_self_le ha
  · rename_i hlarge
    refine ⟨?_, .inr (Nat.not_lt.mp hlarge)⟩
    calc a < twoTo (a.log2 + 1) := habove
      _ ≤ twoTo (d.log2 + (p + 1 + 53)) := twoTo_le (by omega)
      _ = twoTo d.log2 * twoTo (p + 1 + 53) := twoTo_add _ _
      _ ≤ d * twoTo (p + 1 + 53) := Nat.mul_le_mul_right _ hlow

theorem pack_isFinite {negative : Bool} {significand scale : Nat} (h : Fits significand scale) :
    (pack negative significand scale).isFinite = true := by
  rw [pack, dif_pos h]
  rfl

/-- **A fraction below `2^2097` grains is rounded to a finite double.** -/
theorem nearest_isFinite (negative : Bool) (hd : 0 < d) (h : a < d * twoTo 2097) :
    (nearest negative a d).isFinite = true := by
  obtain ⟨hfits, hleast⟩ := scaleOf_spec (a := a) hd
  unfold nearest
  dsimp only
  generalize scaleOf a d = scale at hfits hleast
  have hscale : scale ≤ 2044 := by
    rcases hleast with rfl | hleast
    · exact Nat.zero_le _
    · have hpower : twoTo (scale + 52) < twoTo 2097 :=
        Nat.lt_of_mul_lt_mul_left (Nat.lt_of_le_of_lt hleast h)
      have hexponent : scale + 52 < 2097 := twoTo_lt.mp hpower
      omega
  have hpositive : 0 < d * twoTo scale := Nat.mul_pos hd (twoTo_pos scale)
  have hupper : a / (d * twoTo scale) < twoTo 53 := by
    rw [Nat.div_lt_iff_lt_mul hpositive, Nat.mul_comm, Nat.mul_assoc, ← twoTo_add]
    exact hfits
  have hlower : scale = 0 ∨ twoTo 52 ≤ a / (d * twoTo scale) := by
    refine hleast.imp_right fun hleast => ?_
    rw [Nat.le_div_iff_mul_le hpositive, Nat.mul_comm, Nat.mul_assoc, ← twoTo_add]
    exact hleast
  have hround := div_le_roundDiv a (d * twoTo scale)
  have hround' := roundDiv_le a (d * twoTo scale)
  split
  · exact pack_isFinite ⟨by decide, .inl (Nat.le_refl _), by omega⟩
  · rename_i hne
    refine pack_isFinite ⟨by omega, ?_, by omega⟩
    omega

theorem pack_magnitude {negative : Bool} {significand scale : Nat}
    (h : (pack negative significand scale).isFinite = true) :
    (pack negative significand scale).magnitude = significand * twoTo scale := by
  unfold pack at h ⊢
  split
  · rfl
  · rename_i hfits
    rw [dif_neg hfits] at h
    cases h

/-- Rounding a fraction of a grain or more loses no more than half of it. -/
theorem le_twice_nearest {negative : Bool} (hd : 0 < d) (whole : d ≤ a)
    (finite : (nearest negative a d).isFinite = true) :
    a ≤ 2 * ((nearest negative a d).magnitude * d) := by
  obtain ⟨-, hleast⟩ := scaleOf_spec (a := a) hd
  unfold nearest at finite ⊢
  dsimp only at finite ⊢
  generalize scaleOf a d = scale at *
  have hpositive : 0 < d * twoTo scale := Nat.mul_pos hd (twoTo_pos scale)
  have hsome : d * twoTo scale ≤ a := by
    rcases hleast with rfl | hleast
    · rw [twoTo_zero, Nat.mul_one]
      exact whole
    · exact Nat.le_trans (Nat.mul_le_mul_left d (twoTo_le (by omega))) hleast
  have hquotient : 1 ≤ a / (d * twoTo scale) := (Nat.le_div_iff_mul_le hpositive).mpr (by omega)
  have hround := div_le_roundDiv a (d * twoTo scale)
  generalize roundDiv a (d * twoTo scale) = significand at *
  have hvalue : a ≤ 2 * (significand * twoTo scale * d) := by
    have hrest : a % (d * twoTo scale) < d * twoTo scale := Nat.mod_lt a hpositive
    have hsplit : d * twoTo scale * (a / (d * twoTo scale)) + a % (d * twoTo scale) = a :=
      Nat.div_add_mod a _
    have hone : d * twoTo scale * 1 ≤ d * twoTo scale * (a / (d * twoTo scale)) :=
      Nat.mul_le_mul_left _ hquotient
    have hmore : d * twoTo scale * (a / (d * twoTo scale)) ≤ d * twoTo scale * significand :=
      Nat.mul_le_mul_left _ hround
    have hswap : significand * twoTo scale * d = d * twoTo scale * significand := by
      rw [Nat.mul_comm significand, Nat.mul_assoc, Nat.mul_comm, Nat.mul_comm significand d,
        Nat.mul_right_comm]
    omega
  split at finite
  · rename_i hcarry
    rw [if_pos hcarry, pack_magnitude finite, twoTo_succ scale]
    rw [hcarry, show (53 : Nat) = 52 + 1 from rfl, twoTo_succ 52] at hvalue
    have hswap : twoTo 52 * (twoTo scale * 2) = twoTo 52 * 2 * twoTo scale := by
      rw [Nat.mul_comm (twoTo scale) 2, Nat.mul_assoc]
    rw [hswap]
    exact hvalue
  · rename_i hcarry
    rw [if_neg hcarry, pack_magnitude finite]
    exact hvalue

/-! ## Operations -/

theorem ofInt_isFinite {i : Int} (h : i.natAbs ≤ twoTo 64) : (ofInt i).isFinite = true := by
  rw [ofInt]
  refine nearest_isFinite _ Nat.one_pos ?_
  calc i.natAbs * unit
      ≤ twoTo 64 * unit := Nat.mul_le_mul_right _ h
    _ = twoTo (64 + 1074) := by rw [unit, twoTo_add]
    _ < twoTo 2097 := twoTo_lt.mpr (by omega)
    _ = 1 * twoTo 2097 := (Nat.one_mul _).symm

theorem neg_isFinite {x : Binary64} (h : x.isFinite = true) : x.neg.isFinite = true := by
  cases x with
  | finite _ _ _ _ => rfl
  | nan => cases h
  | infinite _ => cases h

theorem magnitude_lt (x : Binary64) : x.magnitude < twoTo 2098 := by
  cases x with
  | nan => exact twoTo_pos _
  | infinite _ => exact twoTo_pos _
  | finite negative significand scale fits =>
    obtain ⟨hdigits, -, hscale⟩ := fits
    calc significand * twoTo scale
        < twoTo 53 * twoTo scale := Nat.mul_lt_mul_of_pos_right hdigits (twoTo_pos scale)
      _ = twoTo (53 + scale) := (twoTo_add _ _).symm
      _ ≤ twoTo 2098 := twoTo_le (by omega)

/-- A finite number divided by two or more is finite. -/
theorem div_isFinite {x y : Binary64} (hx : x.isFinite = true) (hy : y.isFinite = true)
    (large : twoTo 1 * unit ≤ y.magnitude) : (x.div y).isFinite = true := by
  cases x with
  | nan => cases hx
  | infinite _ => cases hx
  | finite negative significand scale fits =>
    cases y with
    | nan => cases hy
    | infinite _ => cases hy
    | finite negative' significand' scale' fits' =>
      have hunit : 0 < unit := twoTo_pos 1074
      have hpositive : 0 < (finite negative' significand' scale' fits').magnitude :=
        Nat.lt_of_lt_of_le (Nat.mul_pos (twoTo_pos 1) hunit) large
      have hmagnitude := magnitude_lt (finite negative significand scale fits)
      generalize hd : (finite negative' significand' scale' fits').magnitude = d at *
      simp only [div, hd]
      rw [if_neg (by omega)]
      refine nearest_isFinite _ hpositive ?_
      calc (finite negative significand scale fits).magnitude * unit
          < twoTo 2098 * unit := Nat.mul_lt_mul_of_pos_right hmagnitude hunit
        _ = twoTo 1 * unit * twoTo 2097 := by
          rw [show 2098 = 1 + 2097 from rfl, twoTo_add, Nat.mul_right_comm]
        _ ≤ d * twoTo 2097 := Nat.mul_le_mul_right _ large

end Binary64

end Replay
