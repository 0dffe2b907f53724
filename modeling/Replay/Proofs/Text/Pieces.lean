import Mathlib.Data.List.Basic
import Mathlib.Data.List.TakeWhile
import Replay.Text.Basic

/-!
# Pieces of text

What trimming, cutting and splitting give of a text that is put together from known parts.

* `Trimmed` — texts without blanks at their ends
* `Trimmed.trim_padded` — trimming takes just the blanks off that were added
* `cut?_append`, `cutLast?_append` — the cut at a separator that a part is free of
* `splitAll_append`, `join_splitAll`, `getLast?_splitAll` — the pieces of a text between separators
-/

set_option autoImplicit false

namespace Replay.Text

/-! ## Characters in turn -/

/-- What is decided for each character of a text in turn. -/
theorem forall_mem_of_all {p : Char → Prop} [DecidablePred p] {s : List Char}
    (h : s.all (fun c => decide (p c)) = true) : ∀ c ∈ s, p c :=
  fun c hc => of_decide_eq_true (List.all_eq_true.mp h c hc)

/-! ## Blanks -/

/-- Nothing but blanks. -/
def Blank (s : List Char) : Prop := ∀ c ∈ s, isBlank c = true

instance (s : List Char) : Decidable (Blank s) := List.decidableBAll _ s

/-- A text without blanks at its ends. -/
structure Trimmed (s : List Char) : Prop where
  first : ∀ c, s.head? = some c → isBlank c = false
  last : ∀ c, s.getLast? = some c → isBlank c = false

theorem trimStart_of_first {s : List Char} (first : ∀ c, s.head? = some c → isBlank c = false) :
    trimStart s = s := by
  cases s with
  | nil => rfl
  | cons c rest => exact List.dropWhile_cons_of_neg (by simp [first c rfl])

theorem trimEnd_eq (s : List Char) : trimEnd s = (trimStart s.reverse).reverse := rfl

theorem dropEndWhile_of_last {p : Char → Bool} {s : List Char}
    (last : ∀ c, s.getLast? = some c → p c = false) : dropEndWhile p s = s := by
  have hreverse : s.reverse.dropWhile p = s.reverse := by
    cases hs : s.reverse with
    | nil => rfl
    | cons c rest =>
      have hlast : s.getLast? = some c := by rw [← List.head?_reverse, hs, List.head?_cons]
      exact List.dropWhile_cons_of_neg (by simp [last c hlast])
  rw [dropEndWhile, hreverse, List.reverse_reverse]

theorem trimEnd_of_last {s : List Char} (last : ∀ c, s.getLast? = some c → isBlank c = false) :
    trimEnd s = s := dropEndWhile_of_last last

namespace Trimmed

variable {s t before after : List Char}

theorem nil : Trimmed [] := ⟨nofun, nofun⟩

theorem reverse (h : Trimmed s) : Trimmed s.reverse :=
  ⟨fun c hc => h.last c (by rwa [List.head?_reverse] at hc),
    fun c hc => h.first c (by rwa [List.getLast?_reverse] at hc)⟩

theorem trimStart_padded (h : Trimmed s) (blank : Blank before) : trimStart (before ++ s) = s := by
  rw [trimStart, List.dropWhile_append_of_pos blank]
  exact trimStart_of_first h.first

theorem trimEnd_padded (h : Trimmed s) (blank : Blank after) : trimEnd (s ++ after) = s := by
  have hblank : Blank after.reverse := fun c hc => blank c (List.mem_reverse.mp hc)
  rw [trimEnd_eq, List.reverse_append, h.reverse.trimStart_padded hblank, List.reverse_reverse]

/-- **Trimming takes just the blanks off that were added.** -/
theorem trim_padded (h : Trimmed s) (blank : Blank before) (blank' : Blank after) :
    trim (before ++ s ++ after) = s := by
  cases s with
  | nil =>
    have hblank : Blank (before ++ after) := List.forall_mem_append.mpr ⟨blank, blank'⟩
    rw [List.append_nil, trim, ← List.append_nil (before ++ after), nil.trimStart_padded hblank]
    rfl
  | cons c rest =>
    have hstart : Trimmed (c :: rest) := h
    have hdrop : trimStart (before ++ (c :: rest ++ after)) = c :: rest ++ after := by
      rw [trimStart, List.dropWhile_append_of_pos blank]
      exact trimStart_of_first fun d hd => h.first d (by simpa using hd)
    rw [trim, List.append_assoc, hdrop, hstart.trimEnd_padded blank']

theorem trim_behind (h : Trimmed s) (blank : Blank before) : trim (before ++ s) = s := by
  have hnone : Blank [] := nofun
  simpa using h.trim_padded blank hnone

theorem trim_eq (h : Trimmed s) : trim s = s := by
  have hnone : Blank [] := nofun
  simpa using h.trim_behind hnone

/-- What two trimmed texts enclose is trimmed with them. -/
theorem append (h : Trimmed s) (h' : Trimmed t) (hs : s ≠ []) (ht : t ≠ []) (between : List Char) :
    Trimmed (s ++ between ++ t) := by
  refine ⟨fun c hc => h.first c ?_, fun c hc => h'.last c ?_⟩
  · rwa [List.append_assoc, List.head?_append_of_ne_nil _ hs] at hc
  · rwa [List.getLast?_append_of_ne_nil _ ht] at hc

end Trimmed

/-- A text whose first and last characters are no blanks. -/
theorem trimmed_of_ends {c d : Char} (hc : isBlank c = false) (hd : isBlank d = false)
    (between : List Char) : Trimmed (c :: between ++ [d]) := by
  refine ⟨?_, ?_⟩
  · rintro _ ⟨⟩
    exact hc
  · intro e he
    rw [List.getLast?_append_of_ne_nil _ (by simp)] at he
    cases he
    exact hd

theorem trimmed_of_solid {s : List Char} (solid : ∀ c ∈ s, isBlank c = false) : Trimmed s :=
  ⟨fun c hc => solid c (List.mem_of_mem_head? hc),
    fun c hc => solid c (List.mem_of_mem_getLast? hc)⟩

/-- What is dropped from the start of a text has the property by which it is dropped. -/
theorem mem_dropWhile {p : Char → Bool} {c : Char} {s : List Char} (h : c ∈ s)
    (stays : p c = false) : c ∈ s.dropWhile p := by
  rw [← List.takeWhile_append_dropWhile (p := p) (l := s)] at h
  refine (List.mem_append.mp h).resolve_left fun hdropped => ?_
  rw [List.mem_takeWhile_imp hdropped] at stays
  cases stays

/-- Trimming loses no character but blanks. -/
theorem mem_trim {c : Char} {s : List Char} (h : c ∈ s) (solid : isBlank c = false) :
    c ∈ trim s := by
  rw [trim, trimEnd_eq, List.mem_reverse]
  exact mem_dropWhile (List.mem_reverse.mpr (mem_dropWhile h solid)) solid

/-- Trimming at the start stops at a character that is no blank. -/
theorem trimStart_append_cons {c : Char} (solid : isBlank c = false) (a b : List Char) :
    trimStart (a ++ c :: b) = trimStart a ++ c :: b := by
  rw [trimStart, List.dropWhile_append]
  split
  · rename_i hempty
    have hnil : trimStart a = [] := List.isEmpty_iff.mp hempty
    rw [hnil, List.dropWhile_cons_of_neg (by simp [solid]), List.nil_append]
  · rfl

/-- Trimming at the end stops at a character that is no blank. -/
theorem trimEnd_append_cons {c : Char} (solid : isBlank c = false) (a b : List Char) :
    trimEnd (a ++ c :: b) = a ++ c :: trimEnd b := by
  have hreverse : (a ++ c :: b).reverse = b.reverse ++ c :: a.reverse := by simp
  rw [trimEnd_eq, hreverse, trimStart_append_cons solid, trimEnd_eq]
  simp

/-- **Trimming does not reach beyond a character that is no blank.** -/
theorem trim_append_cons {c : Char} (solid : isBlank c = false) (a b : List Char) :
    trim (a ++ c :: b) = trimStart a ++ c :: trimEnd b := by
  rw [trim, trimStart_append_cons solid, trimEnd_append_cons solid]

/-- What is dropped at the end of a text. -/
theorem dropEndWhile_append (p : Char → Bool) (s : List Char) :
    ∃ dropped, s = dropEndWhile p s ++ dropped ∧ ∀ c ∈ dropped, p c = true := by
  refine ⟨(s.reverse.takeWhile p).reverse, ?_, fun c hc => ?_⟩
  · rw [dropEndWhile, ← List.reverse_append, List.takeWhile_append_dropWhile, List.reverse_reverse]
  · exact List.mem_takeWhile_imp (List.mem_reverse.mp hc)

theorem dropEndWhile_isPrefix (p : Char → Bool) (s : List Char) : dropEndWhile p s <+: s := by
  obtain ⟨dropped, hs, -⟩ := dropEndWhile_append p s
  exact ⟨dropped, hs.symm⟩

/-- Trimming takes blanks off that stand in front of a text. -/
theorem trim_behind_blank {pad : List Char} (blank : Blank pad) (s : List Char) :
    trim (pad ++ s) = trim s := by
  rw [trim, trimStart, List.dropWhile_append_of_pos blank]
  rfl

theorem trimStart_suffix (s : List Char) : trimStart s <:+ s := List.dropWhile_suffix isBlank

theorem trimEnd_isPrefix (s : List Char) : trimEnd s <+: s := dropEndWhile_isPrefix isBlank s

theorem trim_isInfix (s : List Char) : trim s <:+: s :=
  (trimEnd_isPrefix (trimStart s)).isInfix.trans (trimStart_suffix s).isInfix

theorem head_trimStart {c : Char} {s : List Char} (h : (trimStart s).head? = some c) :
    isBlank c = false := by
  have hhead := List.head?_dropWhile_not isBlank s
  rw [trimStart] at h
  rw [h] at hhead
  simpa using hhead

theorem trimStart_trimStart (s : List Char) : trimStart (trimStart s) = trimStart s :=
  trimStart_of_first fun _ => head_trimStart

/-- What is dropped at the end of a trimmed text, with the blanks in front of it: nothing, if the
text does not end with what is dropped. -/
theorem Trimmed.dropEndWhile_cut {s : List Char} (h : Trimmed s) (p : Char → Bool) :
    ∃ cut, s = trimEnd (dropEndWhile p s) ++ cut ∧ (∀ c ∈ cut, p c = true ∨ isBlank c = true) ∧
      (cut ≠ [] → ∃ c, s.getLast? = some c ∧ p c = true) := by
  by_cases hlast : ∀ c, s.getLast? = some c → p c = false
  · refine ⟨[], ?_, List.forall_mem_nil _, fun hsome => absurd rfl hsome⟩
    rw [dropEndWhile_of_last hlast, trimEnd_of_last h.last, List.append_nil]
  · obtain ⟨dropped, hdropped, hp⟩ := dropEndWhile_append p s
    obtain ⟨blanks, hblanks, hblank⟩ := dropEndWhile_append isBlank (dropEndWhile p s)
    refine ⟨blanks ++ dropped, ?_, ?_, fun _ => ?_⟩
    · rw [trimEnd, ← List.append_assoc, ← hblanks, ← hdropped]
    · exact List.forall_mem_append.mpr ⟨fun c hc => .inr (hblank c hc), fun c hc => .inl (hp c hc)⟩
    · simpa using hlast

/-- A text without blanks at its start is trimmed by trimming it at the end. -/
theorem trimmed_trimEnd {s : List Char} (first : ∀ c, s.head? = some c → isBlank c = false) :
    Trimmed (trimEnd s) := by
  refine ⟨fun c hc => ?_, fun c hc => ?_⟩
  · obtain ⟨more, hmore⟩ := trimEnd_isPrefix s
    refine first c ?_
    rw [← hmore, List.head?_append, hc, Option.some_or]
  · rw [trimEnd_eq, List.getLast?_reverse] at hc
    exact head_trimStart hc

/-- What has been trimmed is trimmed. -/
theorem trimmed_trim (s : List Char) : Trimmed (trim s) :=
  trimmed_trimEnd fun _ => head_trimStart

/-- Behind a character that is no blank, trimming takes off an end only. -/
theorem trim_cons {c : Char} (solid : isBlank c = false) (s : List Char) :
    ∃ kept, trim (c :: s) = c :: kept ∧ kept <+: s :=
  ⟨trimEnd s, trim_append_cons solid [] s, trimEnd_isPrefix s⟩

/-- In front of a character that is no blank, trimming takes off a start only. -/
theorem trim_concat {c : Char} (solid : isBlank c = false) (s : List Char) :
    ∃ kept, trim (s ++ [c]) = kept ++ [c] ∧ kept <:+ s :=
  ⟨trimStart s, trim_append_cons solid s [], trimStart_suffix s⟩

/-! ## Starts -/

theorem afterStart?_append (start s : List Char) : afterStart? start (start ++ s) = some s := by
  induction start with
  | nil => cases s <;> rfl
  | cons c start ih => simp [afterStart?, ih]

/-! ## Cuts -/

section Cuts

variable {sep : Char} {a b : List Char}

/-- What is free of a separator, in front of a text, stays in front of its first cut. -/
theorem cut?_behind (free : sep ∉ a) (s : List Char) :
    cut? sep (a ++ s) = (cut? sep s).map fun parts => (a ++ parts.1, parts.2) := by
  induction a with
  | nil => simp
  | cons c rest ih =>
    obtain ⟨hc, hrest⟩ := List.ne_and_not_mem_of_not_mem_cons free
    rw [List.cons_append, cut?, if_neg (Ne.symm hc), ih hrest, Option.map_map]
    rfl

/-- The first occurrence of a separator is behind what is free of it. -/
theorem cut?_append (free : sep ∉ a) : cut? sep (a ++ sep :: b) = some (a, b) := by
  rw [cut?_behind free, cut?, if_pos rfl, Option.map_some, List.append_nil]

/-- What is cut was put together from the two sides. -/
theorem of_cut?_eq_some {s : List Char} (h : cut? sep s = some (a, b)) :
    s = a ++ sep :: b ∧ sep ∉ a := by
  induction s generalizing a with
  | nil => cases h
  | cons c rest ih =>
    unfold cut? at h
    split at h
    · rename_i hc
      cases h
      exact ⟨by rw [hc]; rfl, by simp⟩
    · rename_i hc
      obtain ⟨⟨a', b'⟩, hcut, hparts⟩ := Option.map_eq_some_iff.mp h
      cases hparts
      obtain ⟨rfl, hfree⟩ := ih hcut
      exact ⟨rfl, List.not_mem_cons_of_ne_of_not_mem (Ne.symm hc) hfree⟩

theorem cut?_isSome {s : List Char} (h : sep ∈ s) : (cut? sep s).isSome = true := by
  obtain ⟨a, b, rfl, hfree⟩ := List.eq_append_cons_of_mem h
  rw [cut?_append hfree]
  rfl

/-- The last occurrence of a separator is in front of what is free of it. -/
theorem cutLast?_append (free : sep ∉ b) : cutLast? sep (a ++ sep :: b) = some (a, b) := by
  have hreverse : (a ++ sep :: b).reverse = b.reverse ++ sep :: a.reverse := by simp
  rw [cutLast?, hreverse, cut?_append (by simpa using free)]
  simp

/-- What is cut at the last occurrence was put together from the two sides. -/
theorem of_cutLast?_eq_some {s : List Char} (h : cutLast? sep s = some (a, b)) :
    s = a ++ sep :: b ∧ sep ∉ b := by
  obtain ⟨⟨b', a'⟩, hcut, hparts⟩ := Option.map_eq_some_iff.mp h
  obtain ⟨rfl, rfl⟩ := Prod.mk.inj hparts
  obtain ⟨hreverse, hfree⟩ := of_cut?_eq_some hcut
  refine ⟨?_, fun hmem => hfree (List.mem_reverse.mp hmem)⟩
  rw [← List.reverse_reverse s, hreverse]
  simp

end Cuts

/-! ## Pieces between separators -/

section Pieces

variable {sep : Char}

theorem splitAll_ne_nil (sep : Char) (s : List Char) : splitAll sep s ≠ [] := by
  cases s with
  | nil => simp [splitAll]
  | cons c rest =>
    unfold splitAll
    split
    · simp
    · split <;> simp

theorem splitAll_cons_of_ne {c : Char} (hc : c ≠ sep) {rest piece : List Char}
    {pieces : List (List Char)} (h : splitAll sep rest = piece :: pieces) :
    splitAll sep (c :: rest) = (c :: piece) :: pieces := by
  simp [splitAll, hc, h]

/-- The pieces of two texts with a separator between them are those of each. -/
theorem splitAll_append (a b : List Char) :
    splitAll sep (a ++ sep :: b) = splitAll sep a ++ splitAll sep b := by
  induction a with
  | nil => simp [splitAll]
  | cons c rest ih =>
    obtain ⟨piece, pieces, hrest⟩ := List.exists_cons_of_ne_nil (splitAll_ne_nil sep rest)
    rw [hrest] at ih
    by_cases hc : c = sep
    · simp only [List.cons_append, splitAll, if_pos hc, ih, hrest]
    · rw [List.cons_append, splitAll_cons_of_ne hc hrest]
      rw [splitAll_cons_of_ne hc ih]
      rfl

/-- What stands in a text that is put together from pieces stands in one of them, or is a separator.
-/
theorem mem_join {c : Char} {pieces : List (List Char)} (h : c ∈ join [sep] pieces) :
    c = sep ∨ ∃ piece ∈ pieces, c ∈ piece := by
  induction pieces with
  | nil => cases h
  | cons piece pieces ih =>
    cases pieces with
    | nil => exact .inr ⟨piece, List.mem_cons_self, h⟩
    | cons next pieces =>
      simp only [join, List.mem_append, List.mem_singleton] at h
      rcases h with (hpiece | hsep) | hrest
      · exact .inr ⟨piece, List.mem_cons_self, hpiece⟩
      · exact .inl hsep
      · refine (ih hrest).imp_right ?_
        rintro ⟨other, hother, hc⟩
        exact ⟨other, List.mem_cons_of_mem piece hother, hc⟩

/-- The pieces make up the text. -/
theorem join_splitAll (sep : Char) (s : List Char) : join [sep] (splitAll sep s) = s := by
  induction s with
  | nil => rfl
  | cons c rest ih =>
    obtain ⟨piece, pieces, hrest⟩ := List.exists_cons_of_ne_nil (splitAll_ne_nil sep rest)
    by_cases hc : c = sep
    · rw [hrest] at ih
      simp [splitAll, hc, hrest, join, ih]
    · rw [splitAll_cons_of_ne hc hrest]
      rw [hrest] at ih
      cases pieces with
      | nil => simp only [join] at ih ⊢; rw [ih]
      | cons next pieces => simp only [join, List.cons_append] at ih ⊢; rw [ih]

/-- A text with several pieces is its first piece, a separator, and what the others are pieces of.
-/
theorem of_splitAll_cons_cons {s piece next : List Char} {pieces : List (List Char)}
    (h : splitAll sep s = piece :: next :: pieces) :
    ∃ rest, s = piece ++ sep :: rest ∧ splitAll sep rest = next :: pieces := by
  induction s generalizing piece with
  | nil => cases h
  | cons c rest ih =>
    obtain ⟨first, others, hrest⟩ := List.exists_cons_of_ne_nil (splitAll_ne_nil sep rest)
    by_cases hc : c = sep
    · rw [splitAll, if_pos hc] at h
      obtain ⟨rfl, hothers⟩ := List.cons.inj h
      exact ⟨rest, by rw [hc]; rfl, hothers⟩
    · rw [splitAll_cons_of_ne hc hrest] at h
      obtain ⟨rfl, rfl⟩ := List.cons.inj h
      obtain ⟨behind, hbehind, hpieces⟩ := ih hrest
      exact ⟨behind, by rw [hbehind]; rfl, hpieces⟩

/-- The last piece is empty if and only if the text is, or ends with a separator. -/
theorem getLast?_splitAll {s : List Char} :
    (splitAll sep s).getLast? = some [] ↔ s = [] ∨ s.getLast? = some sep := by
  constructor
  · generalize hpieces : splitAll sep s = pieces
    intro hlast
    induction pieces generalizing s with
    | nil => cases hlast
    | cons piece pieces ih =>
      cases pieces with
      | nil =>
        have hs := join_splitAll sep s
        rw [hpieces] at hs
        exact .inl (hs.symm.trans (Option.some.inj hlast))
      | cons next pieces =>
        obtain ⟨rest, rfl, hrest⟩ := of_splitAll_cons_cons hpieces
        rw [List.getLast?_cons_cons] at hlast
        rcases ih hrest hlast with rfl | hsep
        · simp
        · simp [List.getLast?_append, List.getLast?_cons, hsep]
  · rintro (rfl | hsep)
    · rfl
    · obtain ⟨front, rfl⟩ := List.getLast?_eq_some_iff.mp hsep
      rw [splitAll_append]
      simp [splitAll]

/-- The first piece begins the text. -/
theorem splitAll_prefix {s piece : List Char} {pieces : List (List Char)}
    (h : splitAll sep s = piece :: pieces) : ∃ more, s = piece ++ more := by
  cases pieces with
  | nil => exact ⟨[], by rw [List.append_nil, ← join_splitAll sep s, h]; rfl⟩
  | cons next pieces =>
    obtain ⟨rest, hs, -⟩ := of_splitAll_cons_cons h
    exact ⟨sep :: rest, hs⟩

/-- The first piece is free of separators. -/
theorem splitAll_free {s piece : List Char} {pieces : List (List Char)}
    (h : splitAll sep s = piece :: pieces) : sep ∉ piece := by
  induction s generalizing piece pieces with
  | nil =>
    obtain ⟨rfl, -⟩ := List.cons.inj h
    exact List.not_mem_nil
  | cons c rest ih =>
    obtain ⟨first, others, hrest⟩ := List.exists_cons_of_ne_nil (splitAll_ne_nil sep rest)
    by_cases hc : c = sep
    · rw [splitAll, if_pos hc] at h
      obtain ⟨rfl, -⟩ := List.cons.inj h
      exact List.not_mem_nil
    · rw [splitAll_cons_of_ne hc hrest] at h
      obtain ⟨rfl, -⟩ := List.cons.inj h
      exact List.not_mem_cons_of_ne_of_not_mem (Ne.symm hc) (ih hrest)

/-- A text that is free of the separator, in front of another one, is in front of the first piece.
-/
theorem splitAll_prepend {a b piece : List Char} {pieces : List (List Char)} (free : sep ∉ a)
    (h : splitAll sep b = piece :: pieces) : splitAll sep (a ++ b) = (a ++ piece) :: pieces := by
  induction a with
  | nil => exact h
  | cons c rest ih =>
    obtain ⟨hc, hrest⟩ := List.ne_and_not_mem_of_not_mem_cons free
    exact splitAll_cons_of_ne (Ne.symm hc) (ih hrest)

/-- No piece has a separator in it. -/
theorem free_of_mem_splitAll {s : List Char} : ∀ piece ∈ splitAll sep s, sep ∉ piece := by
  generalize hpieces : splitAll sep s = pieces
  induction pieces generalizing s with
  | nil => exact List.forall_mem_nil _
  | cons piece pieces ih =>
    refine List.forall_mem_cons.mpr ⟨splitAll_free hpieces, ?_⟩
    cases pieces with
    | nil => exact List.forall_mem_nil _
    | cons next pieces =>
      obtain ⟨rest, -, hrest⟩ := of_splitAll_cons_cons hpieces
      exact ih hrest

/-- A text without separators is one piece. -/
theorem splitAll_of_free {s : List Char} (free : sep ∉ s) : splitAll sep s = [s] := by
  have hnil : splitAll sep ([] : List Char) = [[]] := rfl
  have hprepend := splitAll_prepend free hnil
  rwa [List.append_nil] at hprepend

/-- **The pieces that a text is made up of are its pieces.** -/
theorem splitAll_join {pieces : List (List Char)} (some : pieces ≠ [])
    (free : ∀ piece ∈ pieces, sep ∉ piece) : splitAll sep (join [sep] pieces) = pieces := by
  induction pieces with
  | nil => exact absurd rfl some
  | cons piece pieces ih =>
    obtain ⟨hpiece, hpieces⟩ := List.forall_mem_cons.mp free
    cases pieces with
    | nil => exact splitAll_of_free hpiece
    | cons next pieces =>
      have hjoin : join [sep] (piece :: next :: pieces) =
          piece ++ sep :: join [sep] (next :: pieces) := by simp [join]
      rw [hjoin, splitAll_append, splitAll_of_free hpiece, ih (List.cons_ne_nil _ _) hpieces]
      rfl

end Pieces

end Replay.Text
