import Replay.Command.Basic
import Replay.Proofs.Text.Pieces

/-!
# Names

The characters of a name are letters, numbers and underscores. So no blank, no quote and no sign
that has a meaning in a call is among them.

* `Arguments.isNameChar` — the characters of names
* `Arguments.not_isNameChar_of_isBlank` — no blank is one
* `Arguments.sign_not_mem` — no sign that means something stands in a name
-/

set_option autoImplicit false

namespace Replay

open Text

namespace Arguments

/-- Whether a character may stand in a name. -/
def isNameChar (c : Char) : Bool := c == '_' || isLetter c || isNumber c

/-- The code points of blanks. -/
def blankPoints : List Nat :=
  [9, 10, 11, 12, 13, 32, 0x85, 0xA0, 0x1680, 0x2000, 0x2001, 0x2002, 0x2003, 0x2004, 0x2005,
    0x2006, 0x2007, 0x2008, 0x2009, 0x200A, 0x2028, 0x2029, 0x202F, 0x205F, 0x3000]

theorem mem_blankPoints {c : Char} (h : isBlank c = true) : c.toNat ∈ blankPoints := by
  simp only [isBlank, Bool.or_eq_true, Bool.and_eq_true, decide_eq_true_eq, beq_iff_eq] at h
  simp only [blankPoints, List.mem_cons, List.not_mem_nil, or_false]
  omega

/-- No blank may stand in a name. -/
theorem not_isNameChar_of_isBlank {c : Char} (h : isBlank c = true) : isNameChar c = false := by
  have hpoints : ∀ n ∈ blankPoints, isNameChar (Char.ofNat n) = false := by decide +kernel
  rw [← Char.ofNat_toNat c]
  exact hpoints _ (mem_blankPoints h)

theorem isBlank_of_isNameChar {c : Char} (h : isNameChar c = true) : isBlank c = false := by
  cases hc : isBlank c with
  | false => rfl
  | true => rw [not_isNameChar_of_isBlank hc] at h; cases h

/-- The two kinds of quotes. -/
def quotes : List Char := ['"', '\'']

/-- The signs that have a meaning in a call or in a value. -/
def signs : List Char := ['(', ')', '[', ']', ',', '.', '=', '"', '\'']

theorem mem_signs_of_quote {c : Char} (h : c ∈ quotes) : c ∈ signs := by
  simp only [quotes, List.mem_cons, List.not_mem_nil, or_false] at h
  rcases h with rfl | rfl <;> decide

/-- A sign may not stand in a name, and is no blank. -/
theorem not_isNameChar_of_sign : ∀ c ∈ signs, isNameChar c = false ∧ isBlank c = false :=
  forall_mem_of_all (by decide +kernel)

/-- A sign does not stand among blanks. -/
theorem sign_not_mem_of_blank {pad : List Char} (blank : Blank pad) {c : Char} (sign : c ∈ signs) :
    c ∉ pad := by
  intro hc
  have hblank := blank c hc
  rw [(not_isNameChar_of_sign c sign).2] at hblank
  cases hblank

theorem not_isDigit_of_isLetter {c : Char} (letter : isLetter c = true) : c.isDigit = false := by
  cases hdigit : c.isDigit with
  | false => rfl
  | true =>
    simp only [Char.isDigit, Bool.and_eq_true, decide_eq_true_eq, ge_iff_le,
      UInt32.le_iff_toNat_le] at hdigit
    have hrange : 48 ≤ c.toNat ∧ c.toNat ≤ 57 := hdigit
    have hpoints : ∀ n ∈ List.range' 48 10, isLetter (Char.ofNat n) = false := by decide +kernel
    rw [← Char.ofNat_toNat c, hpoints c.toNat (by simp [List.mem_range'_1]; omega)] at letter
    cases letter

theorem isNameChar_of_isIdentifier {name : List Char} (h : isIdentifier name = true) :
    ∀ c ∈ name, isNameChar c = true := by
  cases name with
  | nil => nofun
  | cons c rest =>
    simp only [isIdentifier, Bool.and_eq_true, Bool.or_eq_true, List.all_eq_true] at h
    refine List.forall_mem_cons.mpr ⟨?_, fun d hd => by simpa [isNameChar] using h.2 d hd⟩
    simp only [isNameChar, Bool.or_eq_true]
    exact .inl h.1

/-- A name does not begin with a digit. -/
theorem head_of_isIdentifier {name : List Char} (h : isIdentifier name = true) :
    ∃ c rest, name = c :: rest ∧ isNameChar c = true ∧ c.isDigit = false := by
  cases name with
  | nil => cases h
  | cons c rest =>
    refine ⟨c, rest, rfl, isNameChar_of_isIdentifier h c List.mem_cons_self, ?_⟩
    simp only [isIdentifier, Bool.and_eq_true, Bool.or_eq_true, beq_iff_eq] at h
    rcases h.1 with rfl | hletter
    · rfl
    · exact not_isDigit_of_isLetter hletter

section Identifiers

variable {name : List Char} {c : Char}

theorem ne_nil_of_isIdentifier (h : isIdentifier name = true) : name ≠ [] := by
  rintro rfl
  cases h

theorem trimmed_of_isIdentifier (h : isIdentifier name = true) : Trimmed name :=
  trimmed_of_solid fun c hc => isBlank_of_isNameChar (isNameChar_of_isIdentifier h c hc)

theorem sign_not_mem (h : isIdentifier name = true) (sign : c ∈ signs) : c ∉ name := by
  intro hc
  have hname := isNameChar_of_isIdentifier h c hc
  rw [(not_isNameChar_of_sign c sign).1] at hname
  cases hname

/-- A sign does not stand in a name with blanks around it, either. -/
theorem sign_not_mem_of_trim (h : isIdentifier (trim name) = true) (sign : c ∈ signs) : c ∉ name :=
  fun hc => sign_not_mem h sign (mem_trim hc (not_isNameChar_of_sign c sign).2)

end Identifiers

end Arguments

end Replay
