import Replay.Proofs.Text.Pieces

/-!
# Occurrences of a pattern

Where a pattern is found in a text that is put together from parts: in one of the parts, unless it
lies across a seam, which a character that is not in the pattern rules out.

* `infix_append_of_last`, `infix_append_of_first` — no pattern lies across a foreign character
* `cutAt?_eq_none_iff` — a text is cut just if the pattern occurs in it
* `of_cutAt?_eq_some`, `cutAt?_append` — it is cut at the first occurrence
-/

set_option autoImplicit false

namespace Replay.Text

variable {p s a b : List Char}

/-! ## Across a seam -/

/-- A pattern does not lie across the end of a text whose last character is foreign to it. -/
theorem infix_append_of_last (foreign : ∀ c, a.getLast? = some c → c ∉ p) :
    p <:+: a ++ b ↔ p <:+: a ∨ p <:+: b := by
  rw [List.infix_append_iff]
  refine or_congr_right ⟨?_, .inl⟩
  rintro (hb | ⟨front, back, rfl, hfront, hback⟩)
  · exact hb
  · cases hlast : front.getLast? with
    | none =>
      rw [List.getLast?_eq_none_iff] at hlast
      rw [hlast, List.nil_append]
      exact hback.isInfix
    | some c =>
      obtain ⟨before, rfl⟩ := hfront
      have hne : front ≠ [] := by
        rintro rfl
        cases hlast
      refine absurd (List.mem_append_left back (List.mem_of_mem_getLast? hlast)) (foreign c ?_)
      rwa [List.getLast?_append_of_ne_nil _ hne]

/-- A pattern does not lie across the beginning of a text whose first character is foreign to it. -/
theorem infix_append_of_first (foreign : ∀ c, b.head? = some c → c ∉ p) :
    p <:+: a ++ b ↔ p <:+: a ∨ p <:+: b := by
  have hreverse := infix_append_of_last (p := p.reverse) (a := b.reverse) (b := a.reverse)
    fun c hc => by simpa using foreign c (by rwa [List.getLast?_reverse] at hc)
  rw [← List.reverse_append, List.reverse_infix, List.reverse_infix, List.reverse_infix] at hreverse
  rw [hreverse, or_comm]

/-- A pattern does not occur among characters that are foreign to it. -/
theorem not_infix_of_foreign (some : p ≠ []) (foreign : ∀ c ∈ s, c ∉ p) : ¬p <:+: s := by
  intro hoccurs
  obtain ⟨c, rest, rfl⟩ := List.exists_cons_of_ne_nil some
  exact foreign c (hoccurs.mem List.mem_cons_self) List.mem_cons_self

/-! ## The first occurrence -/

theorem of_afterStart?_eq_some {start rest : List Char} (h : afterStart? start s = some rest) :
    s = start ++ rest := by
  induction start generalizing s with
  | nil =>
    cases s <;> cases h <;> rfl
  | cons c start ih =>
    cases s with
    | nil => cases h
    | cons d s =>
      unfold afterStart? at h
      split at h
      · rename_i hc
        rw [hc, ih h]
        rfl
      · cases h

theorem afterStart?_eq_none_iff {start : List Char} :
    afterStart? start s = none ↔ ¬start <+: s := by
  constructor
  · rintro h ⟨rest, rfl⟩
    rw [afterStart?_append] at h
    cases h
  · intro h
    cases hrest : afterStart? start s with
    | none => rfl
    | some rest => exact absurd ⟨rest, (of_afterStart?_eq_some hrest).symm⟩ h

/-- **A text is cut just if the pattern occurs in it.** -/
theorem cutAt?_eq_none_iff (some : p ≠ []) : cutAt? p s = none ↔ ¬p <:+: s := by
  induction s with
  | nil => simp [cutAt?, some]
  | cons c rest ih =>
    rw [List.infix_cons_iff, not_or, ← ih, ← afterStart?_eq_none_iff, cutAt?]
    cases afterStart? p (c :: rest) <;> simp

/-- What ends one character before a pattern does begins the text. -/
theorem dropLast_begins (a p b : List Char) : a ++ p.dropLast <+: a ++ p ++ b := by
  rw [List.append_assoc, List.prefix_append_right_inj]
  exact List.IsPrefix.trans p.dropLast_prefix (List.prefix_append p b)

/-- What is cut was put together from the two sides, and no occurrence ends earlier. -/
theorem of_cutAt?_eq_some (nonempty : p ≠ []) (h : cutAt? p s = some (a, b)) :
    s = a ++ p ++ b ∧ ¬p <:+: a ++ p.dropLast := by
  induction s generalizing a with
  | nil => simp [cutAt?, nonempty] at h
  | cons c rest ih =>
    rw [cutAt?] at h
    cases hstart : afterStart? p (c :: rest) with
    | some after =>
      rw [hstart] at h
      cases h
      refine ⟨of_afterStart?_eq_some hstart, fun hoccurs => ?_⟩
      have hlength := hoccurs.length_le
      have hpositive := List.length_pos_of_ne_nil nonempty
      simp only [List.nil_append, List.length_dropLast] at hlength
      omega
    | none =>
      rw [hstart] at h
      obtain ⟨⟨a', b'⟩, hcut, hparts⟩ := Option.map_eq_some_iff.mp h
      cases hparts
      obtain ⟨rfl, hfirst⟩ := ih hcut
      refine ⟨rfl, fun hoccurs => ?_⟩
      rw [List.cons_append, List.infix_cons_iff] at hoccurs
      refine hoccurs.elim (fun hbegins => ?_) hfirst
      have hwhole := hbegins.trans ((List.prefix_cons_inj c).mpr (dropLast_begins a' p b'))
      exact afterStart?_eq_none_iff.mp hstart hwhole

/-- A text is cut where the pattern stands if no occurrence ends earlier. -/
theorem cutAt?_append (nonempty : p ≠ []) (hfirst : ¬p <:+: a ++ p.dropLast) :
    cutAt? p (a ++ p ++ b) = some (a, b) := by
  induction a with
  | nil =>
    obtain ⟨c, rest, rfl⟩ := List.exists_cons_of_ne_nil nonempty
    rw [List.nil_append, List.cons_append, cutAt?, ← List.cons_append, afterStart?_append]
  | cons c a ih =>
    have hrest := ih fun hoccurs => hfirst (List.infix_cons hoccurs)
    have hstart : afterStart? p (c :: (a ++ p ++ b)) = none := by
      rw [afterStart?_eq_none_iff]
      intro hbegins
      have hearly : p <+: c :: a ++ p.dropLast := by
        refine List.prefix_of_prefix_length_le hbegins (dropLast_begins (c :: a) p b) ?_
        have hpositive := List.length_pos_of_ne_nil nonempty
        simp only [List.length_append, List.length_cons, List.length_dropLast]
        omega
      exact hfirst hearly.isInfix
    rw [List.cons_append, List.cons_append, cutAt?, hstart, hrest]
    rfl

end Replay.Text
