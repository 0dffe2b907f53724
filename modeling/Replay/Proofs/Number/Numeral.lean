import Mathlib.Data.List.TakeWhile
import Replay.Number.Literal
import Replay.Proofs.Number.Finite
import Replay.Proofs.Text.Pieces

/-!
# Numerals

A number is written with a sign, digits with a point among them, and a power of ten, of which only
digits are needed. Without point and power it is an integer.

* `Numeral` — a number as it is written
* `Numeral.value` — the double nearest it
* `Numeral.integer?_text`, `Numeral.float?_text` — it is read as what it is worth
-/

set_option autoImplicit false

namespace Replay

/-! ## Numbers as they are written -/

/-- Some digits. -/
def Digits (s : List Char) : Prop := ∀ c ∈ s, c.isDigit = true

instance (s : List Char) : Decidable (Digits s) := List.decidableBAll _ s

namespace Numeral

/-- A sign, or none. -/
inductive Sign
  | bare
  | plus
  | minus
deriving DecidableEq

/-- The text of a sign. -/
def Sign.text : Sign → List Char
  | bare => []
  | plus => ['+']
  | minus => ['-']

/-- An integer with a sign. -/
def Sign.apply (s : Sign) (n : Nat) : Int := if s = minus then -(n : Int) else (n : Int)

/-- A power of ten as it is written. -/
structure Power where
  mark : Char
  sign : Sign
  digits : List Char
  marks : mark = 'e' ∨ mark = 'E'
  isDigits : Digits digits
  nonempty : digits ≠ []

/-- The text of a power. -/
def Power.text (p : Power) : List Char := p.mark :: (p.sign.text ++ p.digits)

end Numeral

/-- **A number as it is written**: a sign, digits in front of a point and behind it, and a power of
ten. There is a digit in front of the point or behind it. -/
structure Numeral where
  sign : Numeral.Sign
  whole : List Char
  /-- The digits behind the point, if there is a point. -/
  fraction : Option (List Char)
  power : Option Numeral.Power
  wholeDigits : Digits whole
  fractionDigits : Digits (fraction.getD [])
  nonempty : whole ++ fraction.getD [] ≠ []

namespace Numeral

variable (n : Numeral)

/-- The text of the power of ten, if there is one. -/
def powerText : List Char :=
  match n.power with
  | none => []
  | some p => p.text

/-- The text behind the digits in front of the point. -/
def tail : List Char :=
  match n.fraction with
  | none => n.powerText
  | some digits => '.' :: (digits ++ n.powerText)

/-- The text without the sign. -/
def body : List Char := n.whole ++ n.tail

/-- The text. -/
def text : List Char := n.sign.text ++ n.body

/-- The number without its sign. -/
def decimal : Decimal where
  coefficient := digitsValue (n.whole ++ n.fraction.getD [])
  exponent :=
    (match n.power with
      | none => 0
      | some p => p.sign.apply (digitsValue p.digits)) -
    ((n.fraction.getD []).length : Int)

/-- Whether there is neither a point nor a power. -/
def isInteger : Bool := n.fraction.isNone && n.power.isNone

/-- **The double nearest the number.** Of an integer, zero has no sign. -/
def value : Binary64 :=
  if n.isInteger then .ofInt (n.sign.apply (digitsValue n.whole))
  else n.decimal.toBinary64 (n.sign = .minus)

/-! ## Characters -/

/-- The characters of numbers. -/
def isNumeralChar (c : Char) : Bool :=
  c.isDigit || c == '.' || c == 'e' || c == 'E' || c == '+' || c == '-'

theorem isNumeralChar_of_digits {s : List Char} (h : Digits s) :
    ∀ c ∈ s, isNumeralChar c = true := fun c hc => by simp [isNumeralChar, h c hc]

theorem isNumeralChar_of_sign (s : Sign) : ∀ c ∈ s.text, isNumeralChar c = true :=
  Text.forall_mem_of_all (by cases s <;> decide)

theorem isNumeralChar_of_powerText : ∀ c ∈ n.powerText, isNumeralChar c = true := by
  unfold powerText
  split
  · nofun
  · rename_i p _
    refine List.forall_mem_cons.mpr ⟨?_, List.forall_mem_append.mpr
      ⟨isNumeralChar_of_sign p.sign, isNumeralChar_of_digits p.isDigits⟩⟩
    rcases p.marks with h | h <;> rw [h] <;> decide

theorem isNumeralChar_of_mem_text : ∀ c ∈ n.text, isNumeralChar c = true := by
  refine List.forall_mem_append.mpr ⟨isNumeralChar_of_sign n.sign, List.forall_mem_append.mpr
    ⟨isNumeralChar_of_digits n.wholeDigits, ?_⟩⟩
  have hfraction := n.fractionDigits
  unfold tail
  split
  · exact n.isNumeralChar_of_powerText
  · rename_i digits hf
    rw [hf] at hfraction
    exact List.forall_mem_cons.mpr ⟨by decide, List.forall_mem_append.mpr
      ⟨isNumeralChar_of_digits hfraction, n.isNumeralChar_of_powerText⟩⟩

/-- What begins a number without its sign is a digit or the point. -/
theorem head_body : ∃ c rest, n.body = c :: rest ∧ (c.isDigit = true ∨ c = '.') := by
  unfold body
  cases hw : n.whole with
  | cons c rest => exact ⟨c, rest ++ n.tail, rfl, .inl (n.wholeDigits c (by simp [hw]))⟩
  | nil =>
    have hsome := n.nonempty
    cases hf : n.fraction with
    | none => simp [hw, hf] at hsome
    | some digits => exact ⟨'.', _, by simp only [tail, hf]; rfl, .inr rfl⟩

theorem takeSign_of_ne {c : Char} (signless : c ∉ ['+', '-']) (rest : List Char) :
    takeSign (c :: rest) = (false, c :: rest) := by
  simp only [List.mem_cons, List.not_mem_nil, or_false, not_or] at signless
  simp [takeSign, signless.1, signless.2]

/-- The sign is taken off, and a missing one is a plus. -/
theorem takeSign_append (s : Sign) {t : List Char}
    (head : ∃ c rest, t = c :: rest ∧ (c.isDigit = true ∨ c = '.')) :
    takeSign (s.text ++ t) = (decide (s = .minus), t) := by
  cases s with
  | bare =>
    obtain ⟨c, rest, rfl, hc⟩ := head
    refine takeSign_of_ne (fun hsign => ?_) rest
    simp only [List.mem_cons, List.not_mem_nil, or_false] at hsign
    rcases hsign with rfl | rfl <;> revert hc <;> decide
  | plus => rfl
  | minus => rfl

/-! ## Reading -/

theorem takeWhile_digits {s rest : List Char} (digits : Digits s)
    (apart : ∀ c, rest.head? = some c → c.isDigit = false) :
    (s ++ rest).takeWhile Char.isDigit = s ∧ (s ++ rest).dropWhile Char.isDigit = rest := by
  rw [List.takeWhile_append_of_pos digits, List.dropWhile_append_of_pos digits]
  cases rest with
  | nil => simp
  | cons c rest => simp [apart c rfl]

theorem natural?_digits {s : List Char} (digits : Digits s) (nonempty : s ≠ []) :
    natural? s = some (digitsValue s) :=
  if_pos ⟨nonempty, List.all_eq_true.mpr digits⟩

theorem natural?_of_mem {s : List Char} {c : Char} (mem : c ∈ s) (other : c.isDigit = false) :
    natural? s = none := by
  refine if_neg ?_
  rintro ⟨-, hall⟩
  rw [List.all_eq_true.mp hall c mem] at other
  cases other

theorem Power.mark_not_digit (p : Power) : p.mark.isDigit = false := by
  rcases p.marks with h | h <;> rw [h] <;> decide

/-- A power does not begin with a digit. -/
theorem powerText_apart : ∀ c, n.powerText.head? = some c → c.isDigit = false ∧ c ≠ '.' := by
  unfold powerText
  split
  · nofun
  · rename_i p _
    rintro _ ⟨⟩
    refine ⟨p.mark_not_digit, ?_⟩
    rcases p.marks with h | h <;> rw [h] <;> decide

theorem tail_apart : ∀ c, n.tail.head? = some c → c.isDigit = false := by
  unfold tail
  split
  · exact fun c hc => (n.powerText_apart c hc).1
  · rintro _ ⟨⟩
    decide

/-- An integer has nothing behind its digits. -/
theorem natural?_body :
    natural? n.body = if n.isInteger then some (digitsValue n.whole) else none := by
  have hsome := n.nonempty
  unfold body isInteger tail powerText
  cases hf : n.fraction with
  | some digits => exact natural?_of_mem (c := '.') (by simp) (by decide)
  | none =>
    cases hp : n.power with
    | some p => exact natural?_of_mem (c := p.mark) (by simp [Power.text]) p.mark_not_digit
    | none =>
      rw [hf] at hsome
      simpa using natural?_digits n.wholeDigits (by simpa using hsome)

/-- **An integer is read as an integer**, if it is one between the bounds. -/
theorem integer?_text (low high : Int) : integer? low high n.text =
    if n.isInteger ∧ low ≤ n.sign.apply (digitsValue n.whole) ∧
        n.sign.apply (digitsValue n.whole) ≤ high then
      some (n.sign.apply (digitsValue n.whole))
    else none := by
  rw [integer?, text, takeSign_append n.sign n.head_body]
  simp only [natural?_body, Sign.apply]
  cases n.isInteger with
  | false => rfl
  | true => simp

/-- The digits behind a point, and what follows them. -/
def pointed : List Char → List Char × List Char
  | '.' :: more => (more.takeWhile Char.isDigit, more.dropWhile Char.isDigit)
  | more => ([], more)

/-- The decimal with digits in front of the point and behind it, and the text of a power of ten. -/
def withPower (whole fraction : List Char) : List Char → Option Decimal
  | [] => some ⟨digitsValue (whole ++ fraction), -(fraction.length : Int)⟩
  | e :: more =>
    if e = 'e' ∨ e = 'E' then
      match natural? (takeSign more).2 with
      | none => none
      | some k => some ⟨digitsValue (whole ++ fraction),
          (if (takeSign more).1 then -(k : Int) else (k : Int)) - (fraction.length : Int)⟩
    else none

theorem decimal?_eq {s whole fraction rest : List Char} (digits : s.takeWhile Char.isDigit = whole)
    (point : pointed (s.dropWhile Char.isDigit) = (fraction, rest))
    (nonempty : whole ++ fraction ≠ []) : decimal? s = withPower whole fraction rest := by
  have hdigits : ¬(whole = [] ∧ fraction = []) := by simpa using nonempty
  change (if s.takeWhile Char.isDigit = [] ∧ (pointed (s.dropWhile Char.isDigit)).1 = [] then none
    else withPower (s.takeWhile Char.isDigit) (pointed (s.dropWhile Char.isDigit)).1
      (pointed (s.dropWhile Char.isDigit)).2) = _
  rw [point, digits]
  exact if_neg hdigits

theorem withPower_powerText (whole fraction : List Char) :
    withPower whole fraction n.powerText = some ⟨digitsValue (whole ++ fraction),
      (match n.power with
        | none => 0
        | some p => p.sign.apply (digitsValue p.digits)) - (fraction.length : Int)⟩ := by
  unfold powerText
  cases hp : n.power with
  | none => simp [withPower]
  | some p =>
    have hhead : ∃ c rest, p.digits = c :: rest ∧ (c.isDigit = true ∨ c = '.') := by
      obtain ⟨c, rest, hcons⟩ := List.exists_cons_of_ne_nil p.nonempty
      exact ⟨c, rest, hcons, .inl (p.isDigits c (by simp [hcons]))⟩
    simp only [Power.text, withPower, if_pos p.marks, takeSign_append p.sign hhead,
      natural?_digits p.isDigits p.nonempty, Sign.apply, decide_eq_true_eq]

/-- **Digits with a point and a power are read as the decimal that they write.** -/
theorem decimal?_body : decimal? n.body = some n.decimal := by
  obtain ⟨htake, hdrop⟩ := takeWhile_digits n.wholeDigits n.tail_apart
  have hnonempty := n.nonempty
  have hpoint : pointed (n.body.dropWhile Char.isDigit) = (n.fraction.getD [], n.powerText) := by
    rw [body, hdrop, tail]
    have hfraction := n.fractionDigits
    cases hf : n.fraction with
    | none =>
      unfold pointed
      dsimp only
      split
      · rename_i more hmore
        exact absurd rfl (n.powerText_apart '.' (by rw [hmore]; rfl)).2
      · rfl
    | some digits =>
      rw [hf] at hfraction
      obtain ⟨htake', hdrop'⟩ := takeWhile_digits (s := digits) hfraction
        fun c hc => (n.powerText_apart c hc).1
      simp only [pointed, htake', hdrop']
      rfl
  rw [decimal?_eq (s := n.body) htake hpoint hnonempty, withPower_powerText]
  rfl

/-- **A number is read as the double nearest it**, unless it is read as an integer before. -/
theorem float?_text : float? n.text = some (n.decimal.toBinary64 (n.sign = .minus)) := by
  rw [float?, text, takeSign_append n.sign n.head_body]
  simp only [decimal?_body]

/-! ## Integers beyond the bounds -/

/-- An integer with a finite double is not too large. -/
theorem lt_of_isFinite {i : Int} (finite : (Binary64.ofInt i).isFinite = true) :
    i.natAbs < twoTo 1025 := by
  by_cases hi : i = 0
  · rw [hi]
    exact twoTo_pos _
  have hunit : 0 < Binary64.unit := twoTo_pos 1074
  have hsome : 1 ≤ i.natAbs * Binary64.unit := Nat.mul_pos (by omega) hunit
  have hbound := Binary64.le_twice_nearest Nat.one_pos hsome finite
  have hmagnitude := Binary64.magnitude_lt (Binary64.ofInt i)
  refine Nat.lt_of_mul_lt_mul_right (a := Binary64.unit) ?_
  calc i.natAbs * Binary64.unit
      ≤ 2 * (Binary64.magnitude (Binary64.ofInt i) * 1) := hbound
    _ < 2 * twoTo 2098 := by omega
    _ = twoTo 1025 * Binary64.unit := by
      rw [Binary64.unit, ← twoTo_add, Nat.mul_comm, ← twoTo_succ]

theorem digitCount_le {k e : Nat} (positive : 0 < e) (h : k < tenTo e) : digitCount k ≤ e :=
  (Nat.length_toDigits_le_iff (by decide) positive).mpr h

/-- An integer that is not zero is the same number when it is read as a decimal. -/
theorem toBinary64_of_isInteger (integer : n.isInteger = true) (nonzero : digitsValue n.whole ≠ 0)
    (finite : n.value.isFinite = true) : n.decimal.toBinary64 (n.sign = .minus) = n.value := by
  simp only [value, if_pos integer] at finite ⊢
  simp only [isInteger, Bool.and_eq_true, Option.isNone_iff_eq_none] at integer
  have habs : (n.sign.apply (digitsValue n.whole)).natAbs = digitsValue n.whole := by
    unfold Sign.apply
    split <;> omega
  have hnegative : decide (n.sign.apply (digitsValue n.whole) < 0) = decide (n.sign = .minus) := by
    unfold Sign.apply
    by_cases hsign : n.sign = .minus
    · simp only [hsign, if_true, decide_eq_decide, iff_true]
      omega
    · simp only [hsign, if_false, decide_eq_decide, iff_false]
      omega
  have hpower : twoTo 1025 ≤ tenTo 310 := by decide +kernel
  have hcount : digitCount (digitsValue n.whole) ≤ 310 :=
    digitCount_le (by decide) (Nat.lt_of_lt_of_le (habs ▸ lt_of_isFinite finite) hpower)
  have hdecimal : n.decimal = ⟨digitsValue n.whole, 0⟩ := by
    simp [decimal, integer.1, integer.2]
  rw [hdecimal, Decimal.toBinary64, Binary64.ofInt, habs, hnegative]
  simp only [if_neg nonzero]
  rw [if_neg (by omega), if_neg (by omega), if_pos (by decide)]
  simp [tenTo]

/-! ## What is not a number -/

section Foreign

variable {c : Char} {s : List Char}

theorem not_isDigit_of_foreign (foreign : isNumeralChar c = false) : c.isDigit = false := by
  simp only [isNumeralChar, Bool.or_eq_false_iff] at foreign
  exact foreign.1.1.1.1.1

theorem ne_of_foreign (foreign : isNumeralChar c = false) {d : Char}
    (numeral : isNumeralChar d = true) : c ≠ d := by
  rintro rfl
  rw [foreign] at numeral
  cases numeral

/-- Only a sign is taken off. -/
theorem mem_takeSign (mem : c ∈ s) (foreign : isNumeralChar c = false) : c ∈ (takeSign s).2 := by
  unfold takeSign
  split
  · exact List.mem_of_ne_of_mem (ne_of_foreign foreign (by decide)) mem
  · exact List.mem_of_ne_of_mem (ne_of_foreign foreign (by decide)) mem
  · exact mem

theorem natural?_takeSign_of_mem (mem : c ∈ s) (foreign : isNumeralChar c = false) :
    natural? (takeSign s).2 = none :=
  natural?_of_mem (mem_takeSign mem foreign) (not_isDigit_of_foreign foreign)

theorem integer?_of_mem (mem : c ∈ s) (foreign : isNumeralChar c = false) (low high : Int) :
    integer? low high s = none := by
  simp only [integer?, natural?_takeSign_of_mem mem foreign]

theorem withPower_of_mem (mem : c ∈ s) (foreign : isNumeralChar c = false)
    (whole fraction : List Char) : withPower whole fraction s = none := by
  cases s with
  | nil => cases mem
  | cons e more =>
    by_cases he : e = 'e' ∨ e = 'E'
    · have hmark : isNumeralChar e = true := by rcases he with rfl | rfl <;> decide
      have hmore := List.mem_of_ne_of_mem (ne_of_foreign foreign hmark) mem
      simp only [withPower, if_pos he, natural?_takeSign_of_mem hmore foreign]
    · exact if_neg he

/-- A foreign character is neither a point nor among the digits behind it. -/
theorem mem_pointed (mem : c ∈ s) (foreign : isNumeralChar c = false) : c ∈ (pointed s).2 := by
  unfold pointed
  split
  · exact Text.mem_dropWhile (List.mem_of_ne_of_mem (ne_of_foreign foreign (by decide)) mem)
      (not_isDigit_of_foreign foreign)
  · exact mem

theorem decimal?_of_mem (mem : c ∈ s) (foreign : isNumeralChar c = false) : decimal? s = none := by
  have hrest := mem_pointed (Text.mem_dropWhile mem (not_isDigit_of_foreign foreign)) foreign
  by_cases hdigits : s.takeWhile Char.isDigit ++ (pointed (s.dropWhile Char.isDigit)).1 = []
  · change (if _ then none else _) = none
    exact if_pos (List.append_eq_nil_iff.mp hdigits)
  · exact (decimal?_eq rfl rfl hdigits).trans (withPower_of_mem hrest foreign _ _)

/-- Nor does a text denote a number if a character of it stands neither in numbers nor in the words
for infinity and for no number. -/
theorem float?_of_mem (mem : c ∈ s) (foreign : isNumeralChar c = false)
    (wordless : ∀ word ∈ ["inf", "infinity", "nan"], c.toLower ∉ word.toList) :
    float? s = none := by
  have hbody := mem_takeSign mem foreign
  have hword : ∀ word ∈ ["inf", "infinity", "nan"],
      String.ofList ((takeSign s).2.map Char.toLower) ≠ word := by
    rintro word hword rfl
    exact wordless _ hword (by simpa using ⟨c, hbody, rfl⟩)
  simp only [List.mem_cons, List.not_mem_nil, or_false, forall_eq_or_imp, forall_eq] at hword
  simp only [float?, decimal?_of_mem hbody foreign, hword, or_self, if_false]

variable {rest : List Char} (digit : c.isDigit = false) (signless : c ∉ ['+', '-'])

include digit signless

theorem integer?_of_head (low high : Int) : integer? low high (c :: rest) = none := by
  simp only [integer?, takeSign_of_ne signless, natural?_of_mem List.mem_cons_self digit]

/-- What does not begin like a number is no finite number. -/
theorem float?_of_head (pointless : c ≠ '.') :
    ∀ x, float? (c :: rest) = some x → x.isFinite = false := by
  have hdecimal : decimal? (c :: rest) = none := by
    simp [decimal?, digit, pointless]
  intro x hx
  simp only [float?, takeSign_of_ne signless, hdecimal] at hx
  split at hx
  · cases hx
    rfl
  · split at hx
    · cases hx
      rfl
    · cases hx

end Foreign

end Numeral

end Replay
