import Replay.Proofs.Json.RoundTrip
import Replay.Proofs.Number.Finite

/-!
# What a strict reading gives

Every part of a value that is read strictly denotes something: a string has all its characters, an
integer has 64 bits, and a double is finite.

* `number_within` — of a number
* `string_isSome` — of a string
* `document_within` — of a document
-/

set_option autoImplicit false

namespace Replay.Json

/-- A double is finite. -/
def Finite (x : Binary64) : Prop := x.isFinite = true

/-! ## Numbers -/

theorem powerOfTen_eq {k : Nat} (small : k < 309) :
    powerOfTen k = .nearest false (tenTo k * Binary64.unit) 1 := by
  have hone : digitCount 1 = 1 := by decide
  unfold powerOfTen Decimal.toBinary64
  dsimp only
  rw [hone, if_neg Nat.one_ne_zero, if_neg (by omega), if_neg (by omega), if_pos (by omega),
    Nat.one_mul, Int.toNat_natCast]

/-- The powers of ten by which coefficients are scaled are finite, and no less than two. -/
theorem powerOfTen_large {k : Nat} (small : k < 309) (positive : 0 < k) :
    (powerOfTen k).isFinite = true ∧ twoTo 1 * Binary64.unit ≤ (powerOfTen k).magnitude := by
  have hfinite : (powerOfTen k).isFinite = true := by
    by_cases hlast : k = 308
    · subst hlast
      decide +kernel
    · rw [powerOfTen_eq small]
      refine Binary64.nearest_isFinite _ Nat.one_pos ?_
      have hpower : tenTo k < twoTo 1023 := by
        have hbound : tenTo 307 < twoTo 1023 := by decide +kernel
        exact Nat.lt_of_le_of_lt (tenTo_le (by omega)) hbound
      calc tenTo k * Binary64.unit
          < twoTo 1023 * Binary64.unit := Nat.mul_lt_mul_of_pos_right hpower (twoTo_pos 1074)
        _ = twoTo (1023 + 1074) := by rw [Binary64.unit, twoTo_add]
        _ = 1 * twoTo 2097 := by rw [Nat.one_mul]
  refine ⟨hfinite, ?_⟩
  have hten : tenTo 1 ≤ tenTo k := tenTo_le positive
  rw [tenTo_succ, tenTo_zero, Nat.one_mul] at hten
  have hgrains : 10 * Binary64.unit ≤ tenTo k * Binary64.unit := Nat.mul_le_mul_right _ hten
  rw [powerOfTen_eq small] at hfinite ⊢
  have hunit : 0 < Binary64.unit := twoTo_pos 1074
  have hmagnitude := Binary64.le_twice_nearest (a := tenTo k * Binary64.unit) Nat.one_pos
    (by omega) hfinite
  rw [twoTo_succ, twoTo_zero, Nat.one_mul]
  omega

/-- A finite double divided by a power of ten is finite. -/
theorem div_powerOfTen_isFinite {x : Binary64} (hx : Finite x) {k : Nat} (small : k < 309)
    (positive : 0 < k) : Finite (x.div (powerOfTen k)) := by
  obtain ⟨hfinite, hlarge⟩ := powerOfTen_large small positive
  exact Binary64.div_isFinite hx hfinite hlarge

theorem scaleByTen_isFinite : ∀ (steps : Nat) (x : Binary64) (e : Int) {y : Binary64},
    Finite x → scaleByTen steps x e = some y → Finite y
  | 0, x, e, y, hx, h => by
    cases h
    exact hx
  | steps + 1, x, e, y, hx, h => by
    unfold scaleByTen at h
    split at h
    · rename_i hsmall
      split at h
      · dsimp only at h
        split at h <;> cases h
        assumption
      · cases h
        exact div_powerOfTen_isFinite hx (by omega) (by omega)
    · split at h
      · cases h
        exact hx
      · split at h
        · cases h
        · exact scaleByTen_isFinite steps _ _ (div_powerOfTen_isFinite hx (by decide) (by decide)) h

theorem floatOf_isFinite {negative : Bool} {coefficient : Nat} {exponent : Int} {x : Binary64}
    (bound : coefficient ≤ twoTo 64) (h : floatOf negative coefficient exponent = some x) :
    Finite x := by
  obtain ⟨y, hy, rfl⟩ := Option.map_eq_some_iff.mp h
  have hfinite : Finite y :=
    scaleByTen_isFinite 4 _ exponent (Binary64.ofInt_isFinite (by simpa using bound)) hy
  split
  · exact Binary64.neg_isFinite hfinite
  · exact hfinite

section Within

variable {negative : Bool} {coefficient : Nat} {exponent : Int} {s rest : List Char} {j : Json}

theorem floatValue_within {x : Option Binary64} (hx : ∀ y, x = some y → Finite y)
    (h : floatValue false x s = .ok (j, rest)) : j.Within Finite := by
  cases x with
  | none => cases h
  | some y =>
    cases h
    exact hx y rfl

theorem exponentPart_within (bound : coefficient ≤ twoTo 64)
    (h : exponentPart false negative coefficient exponent s = .ok (j, rest)) : j.Within Finite := by
  unfold exponentPart at h
  generalize takeSign s = signed at h
  obtain ⟨down, digits⟩ := signed
  cases digits with
  | nil => cases h
  | cons c digits =>
    dsimp only at h
    split at h
    · split at h
      · refine floatValue_within (fun y hy => ?_) h
        split at hy <;> cases hy
        rfl
      · exact floatValue_within (fun y hy => floatOf_isFinite bound hy) h
    · cases h

theorem afterDigits_within (bound : coefficient ≤ twoTo 64)
    (h : afterDigits false negative coefficient exponent s = .ok (j, rest)) : j.Within Finite := by
  unfold afterDigits at h
  split at h
  · exact exponentPart_within bound h
  · exact exponentPart_within bound h
  · exact floatValue_within (fun y hy => floatOf_isFinite bound hy) h

/-- A coefficient has 64 bits. -/
theorem takeDigits_le : ∀ (s : List Char) {k : Nat}, k ≤ Word.greatest →
    (takeDigits k s).1 ≤ Word.greatest
  | [], _, h => h
  | c :: s, k, h => by
    unfold takeDigits
    dsimp only
    split
    · rename_i hnext
      exact takeDigits_le s hnext.2
    · exact h

theorem le_twoTo_of_word {n : Nat} (h : n ≤ Word.greatest) : n ≤ twoTo 64 :=
  Nat.le_trans h (Nat.sub_le _ _)

theorem fractionPart_within (bound : coefficient ≤ Word.greatest)
    (h : fractionPart false negative coefficient exponent s = .ok (j, rest)) : j.Within Finite := by
  have htaken := le_twoTo_of_word (takeDigits_le s bound)
  unfold fractionPart at h
  generalize takeDigits coefficient s = taken at h htaken
  obtain ⟨n, count, more⟩ := taken
  cases more with
  | nil =>
    dsimp only at h
    split at h
    · cases h
    · exact afterDigits_within htaken h
  | cons c more =>
    dsimp only at h
    split at h
    · cases h
    · exact afterDigits_within htaken h

theorem wholeNumber_within {n : Nat} (bound : n ≤ Word.greatest) :
    (wholeNumber negative n).Within Finite := by
  unfold wholeNumber
  split
  · constructor
    · show -(twoTo 63 : Int) ≤ n
      omega
    · exact Int.ofNat_le.mpr bound
  · split
    · exact Binary64.neg_isFinite (Binary64.ofInt_isFinite (by simpa using le_twoTo_of_word bound))
    · rename_i hsmall
      have hgreatest : twoTo 63 ≤ Word.greatest := by decide
      constructor
      · show -(twoTo 63 : Int) ≤ -(n : Int)
        omega
      · show -(n : Int) ≤ (Word.greatest : Int)
        omega

theorem unsignedNumber_within (h : unsignedNumber false negative s = .ok (j, rest)) :
    j.Within Finite := by
  cases s with
  | nil => cases h
  | cons c more =>
    have htaken := takeDigits_le (c :: more) (Nat.zero_le _)
    rw [unsignedNumber_cons] at h
    split at h
    · cases h
    · split at h
      · cases h
      · unfold behindWhole at h
        split at h
        · exact fractionPart_within htaken h
        · split at h
          · exact afterDigits_within (le_twoTo_of_word htaken) h
          · cases h
            exact wholeNumber_within htaken

/-- **A number is an integer of 64 bits or a finite double.** -/
theorem number_within (h : number false s = .ok (j, rest)) : j.Within Finite := by
  unfold number at h
  split at h
  · exact unsignedNumber_within h
  · exact unsignedNumber_within h

end Within

/-! ## Strings -/

theorem unicodeEscape_isSome {s rest : List Char} {d : Option Char}
    (h : unicodeEscape false s = .ok (d, rest)) : d.isSome = true := by
  unfold unicodeEscape at h
  split at h
  · cases h
  · split at h
    · cases h
    · split at h
      · split at h <;> cases h
        rfl
      · cases h
        rfl

theorem escape_isSome {s rest : List Char} {d : Option Char}
    (h : escape false s = .ok (d, rest)) : d.isSome = true := by
  unfold escape at h
  split at h
  case h_10 => exact unicodeEscape_isSome h
  all_goals
    cases h
  all_goals rfl

/-- **A string has all its characters.** -/
theorem string_isSome : ∀ (budget : Nat) {s rest : List Char} {cs : Option (List Char)},
    string false budget s = .ok (cs, rest) → cs.isSome = true := by
  intro budget
  induction budget with
  | zero =>
    intro s rest cs h
    cases h
  | succ budget ih =>
    intro s rest cs h
    cases s with
    | nil => cases h
    | cons c s =>
      rw [string] at h
      split at h
      · cases h
        rfl
      · split at h
        · split at h
          · cases h
          · rename_i d more hescape
            obtain ⟨d, rfl⟩ := Option.isSome_iff_exists.mp (escape_isSome hescape)
            split at h
            · cases h
            · rename_i cs' after hstring
              obtain ⟨cs', rfl⟩ := Option.isSome_iff_exists.mp (ih hstring)
              cases h
              rfl
        · split at h
          · cases h
          · split at h
            · cases h
            · rename_i cs' after hstring
              obtain ⟨cs', rfl⟩ := Option.isSome_iff_exists.mp (ih hstring)
              cases h
              rfl

/-! ## Values -/

/-- What a strict reading within a budget gives. -/
structure Denotes (budget : Nat) : Prop where
  value : ∀ {nesting s j rest}, Json.value false budget nesting s = .ok (j, rest) → j.Within Finite
  items : ∀ {nesting s js rest}, Json.items false budget nesting s = .ok (js, rest) →
    ItemsWithin Finite js
  members : ∀ {nesting s ms rest}, Json.members false budget nesting s = .ok (ms, rest) →
    ∃ ms', ms = some ms' ∧ MembersWithin Finite ms'

theorem value_within {budget nesting : Nat} {s rest : List Char} {j : Json}
    (ih : Denotes budget) (h : value false (budget + 1) nesting s = .ok (j, rest)) :
    j.Within Finite := by
  rw [value] at h
  split at h
  · cases h
  · rw [value_of_word h]
    trivial
  · rw [value_of_word h]
    trivial
  · rw [value_of_word h]
    trivial
  · split at h
    · cases h
    · cases h
      trivial
    · rename_i hstring
      cases string_isSome _ hstring
  · split at h
    · cases h
    · split at h
      · cases h
        trivial
      · split at h
        · cases h
        · rename_i hitems
          cases h
          exact ih.items hitems
  · split at h
    · cases h
    · split at h
      · cases h
        trivial
      · split at h
        · cases h
        · rename_i hmembers
          cases h
          obtain ⟨_, ⟨⟩, hwithin⟩ := ih.members hmembers
          exact hwithin
        · rename_i hmembers
          obtain ⟨_, ⟨⟩, -⟩ := ih.members hmembers
  · exact number_within h

theorem items_within {budget nesting : Nat} {s rest : List Char} {js : List Json}
    (ih : Denotes budget) (h : items false (budget + 1) nesting s = .ok (js, rest)) :
    ItemsWithin Finite js := by
  rw [items] at h
  split at h
  · cases h
  · rename_i j behind hvalue
    have hj := ih.value hvalue
    split at h
    · cases h
    · cases h
      exact ⟨hj, trivial⟩
    · split at h
      · cases h
      · split at h
        · cases h
        · rename_i hitems
          cases h
          exact ⟨hj, ih.items hitems⟩
    · cases h

theorem members_within {budget nesting : Nat} {s rest : List Char}
    {ms : Option (List (String × Json))} (ih : Denotes budget)
    (h : members false (budget + 1) nesting s = .ok (ms, rest)) :
    ∃ ms', ms = some ms' ∧ MembersWithin Finite ms' := by
  unfold members at h
  split at h
  · cases h
  · split at h
    · cases h
    · rename_i name behind hstring
      obtain ⟨cs, rfl⟩ := Option.isSome_iff_exists.mp (string_isSome _ hstring)
      split at h
      · cases h
      · split at h
        · cases h
        · rename_i j after hvalue
          have hj := ih.value hvalue
          split at h
          · cases h
          · cases h
            exact ⟨_, rfl, hj, trivial⟩
          · split at h
            · cases h
            · rename_i more last hmembers
              obtain ⟨ms', rfl, hrest⟩ := ih.members hmembers
              cases h
              exact ⟨_, rfl, hj, hrest⟩
          · cases h
      · cases h
  · cases h

theorem denotes : ∀ budget, Denotes budget := by
  intro budget
  induction budget with
  | zero => exact ⟨nofun, nofun, nofun⟩
  | succ budget ih => exact ⟨value_within ih, items_within ih, members_within ih⟩

/-- **Every part of a document that is read strictly denotes something.** -/
theorem document_within {nesting : Nat} {s : List Char} {j : Json}
    (h : document false nesting s = .ok j) : j.Within Finite := by
  obtain ⟨rest, hvalue, -⟩ := document_eq_ok.mp h
  exact (denotes _).value hvalue

end Replay.Json
