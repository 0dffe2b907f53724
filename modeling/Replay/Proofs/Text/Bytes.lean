import Mathlib.Data.List.Basic
import Replay.Text.Basic

/-!
# Bytes of texts

A text is stored as the bytes of its characters in UTF-8, one to four for each, and is cut at offsets
into these bytes. A range of bytes is part of a text if it does not end before it starts or behind
the text, and if neither end of it lies inside of a character. Nothing can be cut out of a text but
such ranges.

* `bytes`, `byteSize` — the bytes of a text, and how many there are
* `IsBoundary`, `isBoundary_iff` — offsets between two characters
* `InRange`, `inRange_iff` — the ranges of bytes that are part of a text
* `slice`, `bytes_of_slice` — what stands in a range of bytes
-/

set_option autoImplicit false

namespace Replay.Text

variable {c d : Char} {s front back piece : List Char} {start stop offset : Nat}

/-! ## Bytes of a character -/

/-- The bytes of a text. -/
def bytes (s : List Char) : List UInt8 := s.flatMap String.utf8EncodeChar

/-- The number of bytes of a text. -/
def byteSize : List Char → Nat
  | [] => 0
  | c :: s => c.utf8Size + byteSize s

@[simp] theorem bytes_nil : bytes [] = [] := rfl

theorem bytes_cons (c : Char) (s : List Char) :
    bytes (c :: s) = String.utf8EncodeChar c ++ bytes s := rfl

theorem bytes_append (front back : List Char) :
    bytes (front ++ back) = bytes front ++ bytes back := List.flatMap_append

@[simp] theorem byteSize_nil : byteSize [] = 0 := rfl

theorem byteSize_cons (c : Char) (s : List Char) : byteSize (c :: s) = c.utf8Size + byteSize s :=
  rfl

theorem byteSize_append (front back : List Char) :
    byteSize (front ++ back) = byteSize front + byteSize back := by
  induction front with
  | nil => rw [List.nil_append, byteSize_nil, Nat.zero_add]
  | cons c front ih => rw [List.cons_append, byteSize_cons, byteSize_cons, ih, Nat.add_assoc]

theorem byteSize_eq_zero (h : byteSize s = 0) : s = [] := by
  cases s with
  | nil => rfl
  | cons c s =>
    have hpos := Char.utf8Size_pos c
    rw [byteSize_cons] at h
    omega

@[simp] theorem length_bytes (s : List Char) : (bytes s).length = byteSize s := by
  induction s with
  | nil => rfl
  | cons c s ih =>
    rw [bytes_cons, List.length_append, String.length_utf8EncodeChar, ih, byteSize_cons]

theorem utf8Size_ascii (ascii : c.toNat < 128) : c.utf8Size = 1 :=
  Char.utf8Size_eq_one_iff.mpr (UInt32.le_iff_toNat_le.mpr (Nat.le_of_lt_succ ascii))

theorem utf8EncodeChar_ascii (ascii : c.toNat < 128) : String.utf8EncodeChar c = [c.toUInt8] :=
  String.utf8EncodeChar_eq_singleton (utf8Size_ascii ascii)

theorem toNat_toUInt8_ascii (ascii : c.toNat < 128) : c.toUInt8.toNat = c.toNat := by
  change c.toNat % 256 = c.toNat
  omega

/-- The bytes of a character that is not one byte are greater than all that are characters on their
own. -/
theorem le_of_mem_utf8EncodeChar {b : UInt8} (wide : ¬ c.toNat < 128)
    (h : b ∈ String.utf8EncodeChar c) : 128 ≤ b.toNat := by
  have hwide : ¬ c.val.toNat ≤ 127 := fun hle => wide (Nat.lt_succ_of_le hle)
  unfold String.utf8EncodeChar at h
  simp only [hwide, if_false] at h
  split at h
  · simp only [List.mem_cons, List.not_mem_nil, or_false] at h
    rcases h with rfl | rfl <;> rw [UInt8.toNat_ofNat'] <;> omega
  · split at h
    · simp only [List.mem_cons, List.not_mem_nil, or_false] at h
      rcases h with rfl | rfl | rfl <;> rw [UInt8.toNat_ofNat'] <;> omega
    · simp only [List.mem_cons, List.not_mem_nil, or_false] at h
      rcases h with rfl | rfl | rfl | rfl <;> rw [UInt8.toNat_ofNat'] <;> omega

/-- A byte that is a character on its own is part of no other character. -/
theorem eq_of_toUInt8_mem (ascii : d.toNat < 128) (h : d.toUInt8 ∈ String.utf8EncodeChar c) :
    c = d := by
  have hd := toNat_toUInt8_ascii ascii
  by_cases hc : c.toNat < 128
  · rw [utf8EncodeChar_ascii hc, List.mem_singleton] at h
    rw [h, toNat_toUInt8_ascii hc] at hd
    exact Char.toNat_inj.mp hd
  · have hle := le_of_mem_utf8EncodeChar hc h
    omega

/-! ## Boundaries of characters -/

/-- Whether an offset lies between two characters: at the end of the text, or where the first byte of
a character is. -/
def IsBoundary (s : List Char) (offset : Nat) : Prop :=
  offset = (bytes s).length ∨ ∃ b, (bytes s)[offset]? = some b ∧ b.IsUTF8FirstByte

instance (s : List Char) (offset : Nat) : Decidable (IsBoundary s offset) :=
  match h : (bytes s)[offset]? with
  | some b => decidable_of_iff (offset = (bytes s).length ∨ b.IsUTF8FirstByte) (by
      simp [IsBoundary, h])
  | none => decidable_of_iff (offset = (bytes s).length) (by simp [IsBoundary, h])

theorem utf8EncodeChar_first {b : UInt8} {i : Nat} (h : (String.utf8EncodeChar c)[i]? = some b) :
    b.IsUTF8FirstByte ↔ i = 0 := by
  obtain ⟨hlt, rfl⟩ := List.getElem?_eq_some_iff.mp h
  exact UInt8.isUTF8FirstByte_getElem_utf8EncodeChar

/-- The first byte of a text is that of a character. -/
theorem isBoundary_zero (s : List Char) : IsBoundary s 0 := by
  cases s with
  | nil => exact .inl rfl
  | cons c s =>
    have hpos : 0 < (String.utf8EncodeChar c).length := by
      rw [String.length_utf8EncodeChar]
      exact Char.utf8Size_pos c
    refine .inr ⟨(String.utf8EncodeChar c)[0], ?_, ?_⟩
    · rw [bytes_cons, List.getElem?_append_left hpos, List.getElem?_eq_getElem hpos]
    · exact UInt8.isUTF8FirstByte_getElem_utf8EncodeChar.mpr rfl

/-- Offsets behind some characters lie where they lie in the rest of the text. -/
theorem isBoundary_append (front back : List Char) (offset : Nat) :
    IsBoundary (front ++ back) (byteSize front + offset) ↔ IsBoundary back offset := by
  have hbehind : (bytes front).length ≤ byteSize front + offset := by
    rw [length_bytes]
    exact Nat.le_add_right _ _
  rw [IsBoundary, IsBoundary, bytes_append, List.length_append, List.getElem?_append_right hbehind,
    length_bytes front, Nat.add_sub_cancel_left, Nat.add_left_cancel_iff]

/-- **An offset between two characters is how many bytes the characters in front of it take.** -/
theorem isBoundary_iff :
    IsBoundary s offset ↔ ∃ front back, s = front ++ back ∧ byteSize front = offset := by
  constructor
  · intro h
    induction s generalizing offset with
    | nil =>
      refine ⟨[], [], rfl, ?_⟩
      rcases h with rfl | ⟨b, hb, -⟩
      · rfl
      · cases hb
    | cons c s ih =>
      by_cases hinside : offset < c.utf8Size
      · -- only the first byte of a character begins one
        have hlt : offset < (String.utf8EncodeChar c).length := by
          rwa [String.length_utf8EncodeChar]
        rcases h with hend | ⟨b, hb, hfirst⟩
        · rw [length_bytes, byteSize_cons] at hend
          omega
        · rw [bytes_cons, List.getElem?_append_left hlt] at hb
          exact ⟨[], c :: s, rfl, ((utf8EncodeChar_first hb).mp hfirst).symm⟩
      · obtain ⟨more, rfl⟩ := Nat.exists_eq_add_of_le (Nat.le_of_not_lt hinside)
        have hsize : byteSize [c] = c.utf8Size := by simp [byteSize]
        have hrest := (isBoundary_append [c] s more).mp (by rwa [hsize])
        obtain ⟨front, back, rfl, rfl⟩ := ih hrest
        exact ⟨c :: front, back, rfl, byteSize_cons c front⟩
  · rintro ⟨front, back, rfl, rfl⟩
    exact (isBoundary_append front back 0).mpr (isBoundary_zero back)

/-! ## Ranges of bytes -/

/-- Whether a range of bytes is part of a text: it starts not behind its end and ends not behind
that of the text, and both times between two characters. -/
structure InRange (s : List Char) (start stop : Nat) : Prop where
  ordered : start ≤ stop
  within : stop ≤ (bytes s).length
  starts : IsBoundary s start
  ends : IsBoundary s stop

instance (s : List Char) (start stop : Nat) : Decidable (InRange s start stop) :=
  decidable_of_iff
    (start ≤ stop ∧ stop ≤ (bytes s).length ∧ IsBoundary s start ∧ IsBoundary s stop)
    ⟨fun ⟨ordered, within, starts, ends⟩ => ⟨ordered, within, starts, ends⟩,
      fun ⟨ordered, within, starts, ends⟩ => ⟨ordered, within, starts, ends⟩⟩

/-- **A range of bytes that is part of a text holds some of its characters.** -/
theorem inRange_iff : InRange s start stop ↔ ∃ front piece back, s = front ++ piece ++ back ∧
    byteSize front = start ∧ byteSize (front ++ piece) = stop := by
  constructor
  · rintro ⟨hordered, -, hstarts, hends⟩
    obtain ⟨before, back, rfl, rfl⟩ := isBoundary_iff.mp hends
    obtain ⟨front, rest, heq, rfl⟩ := isBoundary_iff.mp hstarts
    rcases List.append_eq_append_iff.mp heq with ⟨more, rfl, rfl⟩ | ⟨piece, rfl, rfl⟩
    · rw [byteSize_append] at hordered
      obtain rfl : more = [] := byteSize_eq_zero (by omega)
      exact ⟨before, [], rest, by simp, by simp, by simp⟩
    · exact ⟨front, piece, back, rfl, rfl, rfl⟩
  · rintro ⟨front, piece, back, rfl, rfl, rfl⟩
    refine ⟨?_, ?_, isBoundary_iff.mpr ⟨front, piece ++ back, ?_, rfl⟩,
      isBoundary_iff.mpr ⟨front ++ piece, back, rfl, rfl⟩⟩
    · rw [byteSize_append]
      exact Nat.le_add_right _ _
    · rw [length_bytes, byteSize_append (front ++ piece)]
      exact Nat.le_add_right _ _
    · rw [List.append_assoc]

/-- A text without its first bytes. -/
def dropBytes : Nat → List Char → List Char
  | _, [] => []
  | n, c :: rest => if n = 0 then c :: rest else dropBytes (n - c.utf8Size) rest

/-- The first bytes of a text. -/
def takeBytes : Nat → List Char → List Char
  | _, [] => []
  | n, c :: rest => if n = 0 then [] else c :: takeBytes (n - c.utf8Size) rest

@[simp] theorem dropBytes_zero (s : List Char) : dropBytes 0 s = s := by
  cases s <;> rfl

@[simp] theorem takeBytes_zero (s : List Char) : takeBytes 0 s = [] := by
  cases s <;> rfl

theorem dropBytes_append (front back : List Char) :
    dropBytes (byteSize front) (front ++ back) = back := by
  induction front with
  | nil => exact dropBytes_zero back
  | cons c front ih =>
    have hpos := Char.utf8Size_pos c
    rw [List.cons_append, dropBytes, byteSize_cons, if_neg (by omega), Nat.add_sub_cancel_left, ih]

theorem takeBytes_append (front back : List Char) :
    takeBytes (byteSize front) (front ++ back) = front := by
  induction front with
  | nil => exact takeBytes_zero back
  | cons c front ih =>
    have hpos := Char.utf8Size_pos c
    rw [List.cons_append, takeBytes, byteSize_cons, if_neg (by omega), Nat.add_sub_cancel_left, ih]

/-- A range of bytes that is no part of a text. -/
structure BadRange where
  text : List Char
  start : Nat
  stop : Nat
deriving DecidableEq, Repr

/-- What stands in a range of bytes of a text. -/
def slice (s : List Char) (start stop : Nat) : Except BadRange (List Char) :=
  if InRange s start stop then .ok (takeBytes (stop - start) (dropBytes start s))
  else .error ⟨s, start, stop⟩

/-- Some characters of a text are cut out of it at the offsets that those around them give. -/
theorem slice_append (front piece back : List Char) :
    slice (front ++ piece ++ back) (byteSize front) (byteSize (front ++ piece)) = .ok piece := by
  rw [slice, if_pos (inRange_iff.mpr ⟨front, piece, back, rfl, rfl, rfl⟩), byteSize_append,
    Nat.add_sub_cancel_left, List.append_assoc, dropBytes_append, takeBytes_append]

theorem slice_front (front back : List Char) :
    slice (front ++ back) 0 (byteSize front) = .ok front := slice_append [] front back

theorem slice_back (front back : List Char) :
    slice (front ++ back) (byteSize front) (byteSize (front ++ back)) = .ok back := by
  simpa using slice_append front back []

/-- What is cut out are the characters between those that take the bytes around the range. -/
theorem slice_eq_ok_iff : slice s start stop = .ok piece ↔
    ∃ front back, s = front ++ piece ++ back ∧ byteSize front = start ∧
      byteSize (front ++ piece) = stop := by
  constructor
  · intro h
    by_cases hrange : InRange s start stop
    · obtain ⟨front, found, back, rfl, rfl, rfl⟩ := inRange_iff.mp hrange
      rw [slice_append] at h
      cases h
      exact ⟨front, back, rfl, rfl, rfl⟩
    · rw [slice, if_neg hrange] at h
      cases h
  · rintro ⟨front, back, rfl, rfl, rfl⟩
    exact slice_append front piece back

/-- **What is cut out of a text is what its bytes in the range are.** -/
theorem bytes_of_slice (h : slice s start stop = .ok piece) :
    bytes piece = ((bytes s).drop start).take (stop - start) := by
  obtain ⟨front, back, rfl, rfl, rfl⟩ := slice_eq_ok_iff.mp h
  rw [bytes_append, bytes_append, byteSize_append, Nat.add_sub_cancel_left, List.append_assoc,
    ← length_bytes front, List.drop_left, ← length_bytes piece, List.take_left]

end Replay.Text
