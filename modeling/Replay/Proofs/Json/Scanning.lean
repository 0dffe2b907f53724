import Replay.Json.Reader
import Replay.Json.Writer

/-!
# Scanning numbers and strings

A number is read up to the first character that cannot belong to it, so what follows such a
character makes no difference. Digits of an integer and the escapes of a string are read as what
they were written for.

* `number_append` — a number is read the same in front of anything that is apart from it
* `number_writeInt` — an integer of 64 bits is read back
* `string_escaped` — any characters are read back from between their quotes
-/

set_option autoImplicit false

namespace Replay.Json

/-! ## What stands behind a number -/

/-- The front of a text cannot belong to a number before it. -/
def Apart : List Char → Prop
  | [] => True
  | c :: _ => c.isDigit = false ∧ c ≠ '.' ∧ c ≠ 'e' ∧ c ≠ 'E'

section Append

variable {tail : List Char}

theorem Apart.takeWhile_append (h : Apart tail) (s : List Char) :
    (s ++ tail).takeWhile Char.isDigit = s.takeWhile Char.isDigit := by
  induction s with
  | nil =>
    cases tail with
    | nil => rfl
    | cons c rest => simp [h.1]
  | cons d s ih => by_cases hd : d.isDigit <;> simp [hd, ih]

theorem Apart.dropWhile_append (h : Apart tail) (s : List Char) :
    (s ++ tail).dropWhile Char.isDigit = s.dropWhile Char.isDigit ++ tail := by
  induction s with
  | nil =>
    cases tail with
    | nil => rfl
    | cons c rest => simp [h.1]
  | cons d s ih => by_cases hd : d.isDigit <;> simp [hd, ih]

theorem Apart.takeDigits_append (h : Apart tail) : ∀ (s : List Char) (k : Nat),
    takeDigits k (s ++ tail) =
      ((takeDigits k s).1, (takeDigits k s).2.1, (takeDigits k s).2.2 ++ tail) := by
  intro s
  induction s with
  | nil =>
    intro k
    cases tail with
    | nil => rfl
    | cons c rest => simp [takeDigits, h.1]
  | cons d s ih =>
    intro k
    simp only [List.cons_append, takeDigits]
    split
    · rw [ih]
    · rfl

variable {lenient negative : Bool} {coefficient : Nat} {exponent : Int} {s rest : List Char}
  {j : Json}

theorem floatValue_append {x : Option Binary64} (h : floatValue lenient x s = .ok (j, rest)) :
    floatValue lenient x (s ++ tail) = .ok (j, rest ++ tail) := by
  unfold floatValue at h ⊢
  split at h
  · cases h
    rfl
  · split at h <;> cases h
    rename_i hlenient
    rw [if_pos hlenient]

theorem takeSign_append (c : Char) (s tail : List Char) :
    takeSign (c :: s ++ tail) = ((takeSign (c :: s)).1, (takeSign (c :: s)).2 ++ tail) := by
  by_cases hminus : c = '-'
  · subst hminus
    rfl
  · by_cases hplus : c = '+'
    · subst hplus
      rfl
    · simp [takeSign, hminus, hplus]

theorem exponentPart_append (apart : Apart tail)
    (h : exponentPart lenient negative coefficient exponent s = .ok (j, rest)) :
    exponentPart lenient negative coefficient exponent (s ++ tail) = .ok (j, rest ++ tail) := by
  cases s with
  | nil => cases h
  | cons c s =>
    simp only [exponentPart, takeSign_append] at h ⊢
    generalize takeSign (c :: s) = signed at h ⊢
    obtain ⟨down, digits⟩ := signed
    cases digits with
    | nil => cases h
    | cons d digits =>
      simp only [List.cons_append] at h ⊢
      split at h
      · rename_i hdigit
        rw [if_pos hdigit, ← List.cons_append, apart.takeWhile_append, apart.dropWhile_append]
        split at h
        · rename_i hhuge
          rw [if_pos hhuge]
          exact floatValue_append h
        · rename_i hhuge
          rw [if_neg hhuge]
          exact floatValue_append h
      · cases h

/-- A number without an exponent. -/
theorem afterDigits_eq (lower : s.head? ≠ some 'e') (upper : s.head? ≠ some 'E') :
    afterDigits lenient negative coefficient exponent s =
      floatValue lenient (floatOf negative coefficient exponent) s := by
  unfold afterDigits
  split
  · exact absurd rfl lower
  · exact absurd rfl upper
  · rfl

theorem Apart.head?_ne (apart : Apart s) :
    s.head? ≠ some '.' ∧ s.head? ≠ some 'e' ∧ s.head? ≠ some 'E' := by
  cases s with
  | nil => simp
  | cons c s =>
    obtain ⟨-, hpoint, hlower, hupper⟩ := apart
    simp [hpoint, hlower, hupper]

theorem head?_append_ne {c : Char} (front : s.head? ≠ some c) (back : tail.head? ≠ some c) :
    (s ++ tail).head? ≠ some c := by
  cases s with
  | nil => exact back
  | cons d s => exact front

theorem afterDigits_append (apart : Apart tail)
    (h : afterDigits lenient negative coefficient exponent s = .ok (j, rest)) :
    afterDigits lenient negative coefficient exponent (s ++ tail) = .ok (j, rest ++ tail) := by
  obtain ⟨-, hlower, hupper⟩ := apart.head?_ne
  by_cases hs : s.head? = some 'e' ∨ s.head? = some 'E'
  · cases s with
    | nil => simp at hs
    | cons c s =>
      rcases hs with hs | hs <;> cases hs <;> exact exponentPart_append apart h
  · obtain ⟨hslower, hsupper⟩ := not_or.mp hs
    rw [afterDigits_eq hslower hsupper] at h
    rw [afterDigits_eq (head?_append_ne hslower hlower) (head?_append_ne hsupper hupper)]
    exact floatValue_append h

theorem fractionPart_append (apart : Apart tail)
    (h : fractionPart lenient negative coefficient exponent s = .ok (j, rest)) :
    fractionPart lenient negative coefficient exponent (s ++ tail) = .ok (j, rest ++ tail) := by
  unfold fractionPart at h ⊢
  rw [apart.takeDigits_append]
  generalize takeDigits coefficient s = taken at h ⊢
  obtain ⟨n, count, more⟩ := taken
  cases more with
  | nil =>
    simp only [List.nil_append] at h ⊢
    split at h
    · cases h
    · rename_i hcount
      have hbehind := afterDigits_append apart h
      cases tail with
      | nil => simpa [hcount] using hbehind
      | cons c tail => simpa [hcount, apart.1] using hbehind
  | cons d more =>
    simp only [List.cons_append] at h ⊢
    split at h
    · cases h
    · rename_i hdigits
      rw [if_neg hdigits, ← List.cons_append, apart.dropWhile_append]
      exact afterDigits_append apart h

/-- A number without a point and an exponent, of which no digit was dropped. -/
def wholeNumber (negative : Bool) (n : Nat) : Json :=
  if ¬negative then .int n
  else if n = 0 ∨ twoTo 63 < n then .float (Binary64.ofInt n).neg
  else .int (-(n : Int))

/-- The part of a number behind the digits before its point. -/
def behindWhole (lenient negative : Bool) (n dropped : Nat) (s : List Char) : Scan Json :=
  if s.head? = some '.' then fractionPart lenient negative n dropped s.tail
  else if s.head? = some 'e' ∨ s.head? = some 'E' ∨ 0 < dropped then
    afterDigits lenient negative n dropped s
  else .ok (wholeNumber negative n, s)

/-- A number behind its sign begins with a digit, and with a nought only if no digit follows. -/
theorem unsignedNumber_cons (c : Char) (more : List Char) :
    unsignedNumber lenient negative (c :: more) =
      if ¬c.isDigit then .error .malformed
      else if c = '0' ∧ more.head?.any Char.isDigit then .error .malformed
      else behindWhole lenient negative (takeDigits 0 (c :: more)).1
        ((takeDigits 0 (c :: more)).2.2.takeWhile Char.isDigit).length
        ((takeDigits 0 (c :: more)).2.2.dropWhile Char.isDigit) := by
  simp only [unsignedNumber]
  generalize takeDigits 0 (c :: more) = taken
  obtain ⟨n, count, behind⟩ := taken
  simp only
  generalize (behind.takeWhile Char.isDigit).length = dropped
  split
  · rfl
  · split
    · rfl
    · unfold behindWhole
      split
      · rename_i fraction hbehind
        simp [hbehind]
      · rename_i rest hbehind
        simp [hbehind]
      · rename_i rest hbehind
        simp [hbehind]
      · rename_i hpoint hlower hupper
        generalize behind.dropWhile Char.isDigit = s at *
        have hne : ∀ c, (∀ rest, s ≠ c :: rest) → s.head? ≠ some c := by
          intro c hc
          cases s with
          | nil => simp
          | cons d s => exact fun heq => hc s (by cases heq; rfl)
        rw [if_neg (hne '.' hpoint)]
        simp only [hne 'e' hlower, hne 'E' hupper, false_or, wholeNumber]
        split
        · rfl
        · split
          · rfl
          · split <;> rfl

theorem behindWhole_append {n dropped : Nat} (apart : Apart tail)
    (h : behindWhole lenient negative n dropped s = .ok (j, rest)) :
    behindWhole lenient negative n dropped (s ++ tail) = .ok (j, rest ++ tail) := by
  obtain ⟨hpoint, hlower, hupper⟩ := apart.head?_ne
  unfold behindWhole at h ⊢
  have hhead : ∀ c, tail.head? ≠ some c → ((s ++ tail).head? = some c ↔ s.head? = some c) := by
    intro c hc
    cases s with
    | nil => simpa using hc
    | cons d s => rfl
  simp only [hhead '.' hpoint, hhead 'e' hlower, hhead 'E' hupper]
  split at h
  · rename_i hs
    rw [if_pos hs]
    cases s with
    | nil => cases hs
    | cons d s => exact fractionPart_append apart h
  · rename_i hs
    rw [if_neg hs]
    split at h
    · rename_i hexponent
      rw [if_pos hexponent]
      exact afterDigits_append apart h
    · rename_i hexponent
      rw [if_neg hexponent]
      cases h
      rfl

theorem unsignedNumber_append (apart : Apart tail)
    (h : unsignedNumber lenient negative s = .ok (j, rest)) :
    unsignedNumber lenient negative (s ++ tail) = .ok (j, rest ++ tail) := by
  cases s with
  | nil => cases h
  | cons c more =>
    rw [unsignedNumber_cons] at h
    have hnought : (more ++ tail).head?.any Char.isDigit = more.head?.any Char.isDigit := by
      cases more with
      | nil =>
        cases tail with
        | nil => rfl
        | cons d tail => simp [apart.1]
      | cons d more => rfl
    rw [List.cons_append, unsignedNumber_cons, ← List.cons_append, apart.takeDigits_append,
      apart.takeWhile_append, apart.dropWhile_append, hnought]
    split at h
    · cases h
    · rename_i hdigit
      rw [if_neg hdigit]
      split at h
      · cases h
      · rename_i hzero
        rw [if_neg hzero]
        exact behindWhole_append apart h

theorem number_of_ne_minus (h : s.head? ≠ some '-') :
    number lenient s = unsignedNumber lenient false s := by
  unfold number
  split
  · exact absurd rfl h
  · rfl

/-- **What follows a number makes no difference**, if it cannot belong to the number. -/
theorem number_append (apart : Apart tail) (h : number lenient s = .ok (j, rest)) :
    number lenient (s ++ tail) = .ok (j, rest ++ tail) := by
  by_cases hminus : s.head? = some '-'
  · cases s with
    | nil => cases hminus
    | cons c s =>
      cases hminus
      exact unsignedNumber_append apart h
  · rw [number_of_ne_minus hminus] at h
    have hhead : (s ++ tail).head? ≠ some '-' := by
      cases s with
      | nil => cases h
      | cons c s => exact hminus
    rw [number_of_ne_minus hhead]
    exact unsignedNumber_append apart h

/-- A number begins with a digit or a minus. -/
theorem head_of_number (h : number lenient s = .ok (j, rest)) :
    ∃ c more, s = c :: more ∧ (c = '-' ∨ c.isDigit = true) := by
  cases s with
  | nil => cases h
  | cons c more =>
    refine ⟨c, more, rfl, ?_⟩
    by_cases hminus : c = '-'
    · exact .inl hminus
    · right
      rw [number_of_ne_minus (by simpa using hminus), unsignedNumber_cons] at h
      cases hdigit : c.isDigit with
      | true => rfl
      | false => simp [hdigit] at h

end Append

/-! ## Integers -/

theorem le_ofDigitChars : ∀ (digits : List Char) (k : Nat), k ≤ Nat.ofDigitChars 10 digits k
  | [], _ => Nat.le_refl _
  | c :: digits, k => by
    have hrest := le_ofDigitChars digits (10 * k + digitValue c)
    show k ≤ Nat.ofDigitChars 10 digits (10 * k + digitValue c)
    omega

/-- Digits are taken into a coefficient to the end of them, if 64 bits hold it. -/
theorem takeDigits_eq {tail : List Char} (apart : Apart tail) : ∀ {digits : List Char} {k : Nat},
    (∀ c ∈ digits, c.isDigit = true) → Nat.ofDigitChars 10 digits k ≤ Word.greatest →
      takeDigits k (digits ++ tail) = (Nat.ofDigitChars 10 digits k, digits.length, tail) := by
  intro digits
  induction digits with
  | nil =>
    intro k _ _
    cases tail with
    | nil => rfl
    | cons c tail => simp [takeDigits, apart.1]
  | cons c digits ih =>
    intro k hdigits hbound
    obtain ⟨hc, hrest⟩ := List.forall_mem_cons.mp hdigits
    have hnext : 10 * k + digitValue c ≤ Word.greatest :=
      Nat.le_trans (le_ofDigitChars digits _) hbound
    have htaken := ih hrest (k := 10 * k + digitValue c) hbound
    rw [List.cons_append, takeDigits, if_pos ⟨hc, hnext⟩, htaken]
    rfl

/-- A number that is not nought is not written with a nought in front. -/
theorem head?_toDigits_ne (n : Nat) (h : n ≠ 0) : (Nat.toDigits 10 n).head? ≠ some '0' := by
  induction n using Nat.strongRecOn with
  | ind n ih =>
    by_cases hsmall : n < 10
    · have hdigit : ∀ d, d < 10 → d ≠ 0 → d.digitChar ≠ '0' := by decide
      rw [Nat.toDigits_of_lt_base hsmall]
      simpa using hdigit n hsmall h
    · rw [Nat.toDigits_of_base_le (by decide) (Nat.not_lt.mp hsmall)]
      have hfront := ih (n / 10) (by omega) (by omega)
      cases hdigits : Nat.toDigits 10 (n / 10) with
      | nil => exact absurd hdigits Nat.toDigits_ne_nil
      | cons c more =>
        rw [hdigits] at hfront
        exact hfront

/-- The digits of a number: a first one, and a nought only if it is the only one. -/
theorem toDigits_eq_cons (n : Nat) : ∃ c more, Nat.toDigits 10 n = c :: more ∧ c.isDigit = true ∧
    ¬(c = '0' ∧ more.head?.any Char.isDigit) := by
  cases hdigits : Nat.toDigits 10 n with
  | nil => exact absurd hdigits Nat.toDigits_ne_nil
  | cons c more =>
    have hc : c.isDigit = true :=
      Nat.isDigit_of_mem_toDigits (by decide) (by decide) (hdigits ▸ List.mem_cons_self)
    refine ⟨c, more, rfl, hc, ?_⟩
    rintro ⟨rfl, hmore⟩
    by_cases hn : n = 0
    · subst hn
      cases hdigits
      cases hmore
    · have hhead := head?_toDigits_ne n hn
      rw [hdigits] at hhead
      exact hhead rfl

/-- Digits are read as the number that they were written for. -/
theorem unsignedNumber_toDigits (lenient negative : Bool) {n : Nat} (h : n ≤ Word.greatest)
    {tail : List Char} (apart : Apart tail) :
    unsignedNumber lenient negative (Nat.toDigits 10 n ++ tail) =
      .ok (wholeNumber negative n, tail) := by
  obtain ⟨c, more, hdigits, hc, hnought⟩ := toDigits_eq_cons n
  have hall : ∀ d ∈ c :: more, d.isDigit = true := by
    intro d hd
    exact Nat.isDigit_of_mem_toDigits (by decide) (by decide) (hdigits ▸ hd)
  have hvalue : Nat.ofDigitChars 10 (c :: more) 0 = n := by
    rw [← hdigits]
    exact Nat.ofDigitChars_ten_toDigits
  have htaken := takeDigits_eq apart (k := 0) hall (by rw [hvalue]; exact h)
  have hfront : ¬(c = '0' ∧ (more ++ tail).head?.any Char.isDigit) := by
    cases more with
    | nil =>
      cases tail with
      | nil => simp
      | cons d tail => simp [apart.1]
    | cons d more => exact hnought
  have hspan := apart.takeWhile_append []
  have hrest := apart.dropWhile_append []
  simp only [List.nil_append, List.takeWhile_nil, List.dropWhile_nil] at hspan hrest
  obtain ⟨hpoint, hlower, hupper⟩ := apart.head?_ne
  rw [hdigits, List.cons_append, unsignedNumber_cons, if_neg (not_not_intro hc), if_neg hfront,
    ← List.cons_append, htaken, hspan, hrest, hvalue]
  simp [behindWhole, hpoint, hlower, hupper]

/-- **An integer of 64 bits is read back.** -/
theorem number_writeInt (lenient : Bool) {i : Int} (low : Word.leastInt ≤ i)
    (high : i ≤ Word.greatest) {tail : List Char} (apart : Apart tail) :
    number lenient (writeInt i ++ tail) = .ok (.int i, tail) := by
  cases i with
  | ofNat n =>
    have hminus : (Nat.toDigits 10 n ++ tail).head? ≠ some '-' := by
      obtain ⟨c, more, hdigits, hc, -⟩ := toDigits_eq_cons n
      rw [hdigits]
      simp only [List.cons_append, List.head?_cons, ne_eq, Option.some.injEq]
      rintro rfl
      cases hc
    have hn : n ≤ Word.greatest := Int.ofNat_le.mp high
    show number lenient (Nat.toDigits 10 n ++ tail) = _
    rw [number_of_ne_minus hminus, unsignedNumber_toDigits lenient false hn apart]
    rfl
  | negSucc n =>
    have hn : n + 1 ≤ twoTo 63 := by
      have := low
      simp only [Word.leastInt] at this
      omega
    have hword : n + 1 ≤ Word.greatest := Nat.le_trans hn (by decide)
    show unsignedNumber lenient true (Nat.toDigits 10 (n + 1) ++ tail) = _
    rw [unsignedNumber_toDigits lenient true hword apart]
    simp [wholeNumber, Int.negSucc_eq, Nat.not_lt.mpr hn]

/-! ## Strings -/

/-- The escape of a control character is four digits of which the last two tell it. -/
theorem unicodeEscape_control (lenient : Bool) {n : Nat} (h : n < 0x20) (rest : List Char) :
    unicodeEscape lenient ('0' :: '0' :: hexDigit (n / 16) :: hexDigit (n % 16) :: rest) =
      .ok (some (Char.ofNat n), rest) := by
  have hdigits : ∀ m, m < 0x20 →
      (hexDigit (m / 16)).utf8Size = 1 ∧ (hexDigit (m % 16)).utf8Size = 1 ∧
        hexValue? (hexDigit (m / 16)) = some (m / 16) ∧
        hexValue? (hexDigit (m % 16)) = some (m % 16) := by decide
  obtain ⟨hsize, hsize', hvalue, hvalue'⟩ := hdigits n h
  have hbytes : (List.take 4 ('0' :: '0' :: hexDigit (n / 16) :: hexDigit (n % 16) :: rest)).foldl
      (fun n c => n + c.utf8Size) 0 = 4 := by
    simp only [List.take, List.foldl_cons, List.foldl_nil, hsize, hsize']
    decide
  have hnought : hexValue? '0' = some 0 := by decide
  have hfour : fourHex ('0' :: '0' :: hexDigit (n / 16) :: hexDigit (n % 16) :: rest) =
      .ok (n, rest) := by
    have hsum : ((0 * 16 + 0) * 16 + n / 16) * 16 + n % 16 = n := by omega
    simp only [fourHex, hbytes, hnought, hvalue, hvalue', hsum]
    rfl
  have hlow : isLowSurrogate n = false := by
    simp only [isLowSurrogate, Bool.and_eq_false_iff, decide_eq_false_iff_not]
    omega
  have hhigh : isHighSurrogate n = false := by
    simp only [isHighSurrogate, Bool.and_eq_false_iff, decide_eq_false_iff_not]
    omega
  simp [unicodeEscape, hfour, hlow, hhigh]

/-- An escape is read as the character that it stands for. -/
theorem string_escape {lenient : Bool} {budget : Nat} {c : Char} {s rest : List Char}
    (h : escape lenient s = .ok (some c, rest)) :
    string lenient (budget + 1) ('\\' :: s) =
      match string lenient budget rest with
      | .error fault => .error fault
      | .ok (cs, after) => .ok (cs.map (c :: ·), after) := by
  rw [string, if_neg (by decide), if_pos rfl, h]
  dsimp only
  cases string lenient budget rest with
  | error fault => rfl
  | ok scanned =>
    obtain ⟨cs, after⟩ := scanned
    cases cs <;> rfl

/-- A character is read back from how it is written inside a string. -/
theorem string_escaped_cons (lenient : Bool) (budget : Nat) (c : Char) (s : List Char) :
    string lenient (budget + 1) (escaped c ++ s) =
      match string lenient budget s with
      | .error fault => .error fault
      | .ok (cs, rest) => .ok (cs.map (c :: ·), rest) := by
  unfold escaped
  -- the seven escapes of two characters
  iterate 7
    split
    · rename_i hc
      subst hc
      exact string_escape rfl
  split
  · rename_i hcontrol
    have hunicode := unicodeEscape_control lenient hcontrol s
    rw [Char.ofNat_toNat] at hunicode
    exact string_escape hunicode
  · rename_i hquote hbackslash _ _ _ _ _ hcontrol
    rw [List.singleton_append, string, if_neg hquote, if_neg hbackslash]
    exact if_neg hcontrol

/-- **Any characters are read back from between their quotes.** -/
theorem string_escaped (lenient : Bool) (rest : List Char) : ∀ {s : List Char} {budget : Nat},
    s.length < budget →
      string lenient budget (s.flatMap escaped ++ '"' :: rest) = .ok (some s, rest) := by
  intro s
  induction s with
  | nil =>
    intro budget hbudget
    cases budget with
    | zero => exact absurd hbudget (Nat.lt_irrefl 0)
    | succ budget => rfl
  | cons c s ih =>
    intro budget hbudget
    cases budget with
    | zero => exact absurd hbudget (Nat.not_lt_zero _)
    | succ budget =>
      rw [List.flatMap_cons, List.append_assoc, string_escaped_cons,
        ih (Nat.lt_of_succ_lt_succ hbudget)]
      rfl

/-- Nothing inside a string is written with less than a character. -/
theorem length_le_escaped (s : List Char) : s.length ≤ (s.flatMap escaped).length := by
  induction s with
  | nil => exact Nat.le_refl 0
  | cons c s ih =>
    have hc : 1 ≤ (escaped c).length := by
      unfold escaped
      repeat' split
      all_goals simp
    simp only [List.flatMap_cons, List.length_append, List.length_cons]
    omega

end Replay.Json
