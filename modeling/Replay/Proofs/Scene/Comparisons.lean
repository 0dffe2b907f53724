import Mathlib.Data.String.Basic
import Mathlib.Order.Compare
import Mathlib.Order.WithBot
import Replay.Proofs.Text.Occurrences
import Replay.Proofs.Scene.Operands

/-!
# Comparisons

A condition with a sign between two operands says how what they are worth compares: texts by their
characters, all else by the exact numbers. The sign is not found where it stands, but as the first
sign of all that occurs in the text; so a text in quotes with a sign in it can hide the sign that
was meant, and then there is half a text in quotes on one side.

* `Relation.verdict` — what a relation says of two values
* `Relation.HiddenBy` — the operands that hide a sign
* `Scene.satisfies_comparison` — a comparison is decided as it reads, unless its sign is hidden
-/

set_option autoImplicit false

namespace Replay

open Text Arguments

/-! ## What a relation says -/

/-- Where a number stands between the two infinities, in grains. -/
def Binary64.place? : Binary64 → Option (WithBot (WithTop Int))
  | nan => none
  | infinite negative => some (if negative then ⊥ else ⊤)
  | x => some (((x.grains : Int) : WithTop Int) : WithBot (WithTop Int))

namespace Operand

/-- Where an operand stands between the two infinities: a truth value counts as one or zero. -/
def place? : Operand → Option (WithBot (WithTop Int))
  | number x => x.place?
  | bool b => some ((((if b then Binary64.unit else 0 : Nat) : Int) : WithTop Int) : WithBot _)
  | text _ => none

theorem place?_eq (a : Operand) : a.place? = a.number?.bind Binary64.place? := by
  cases a with
  | number x => rfl
  | text s => rfl
  | bool b => cases b <;> decide +kernel

end Operand

namespace Relation

section Orders

variable {α : Type} [LinearOrder α] {a b : α}

/-- What a relation says of two members of an order. -/
def Relates : Relation → α → α → Prop
  | atMost, a, b => a ≤ b
  | atLeast, a, b => b ≤ a
  | equal, a, b => a = b
  | unequal, a, b => a ≠ b
  | less, a, b => a < b
  | greater, a, b => b < a

instance (r : Relation) (a b : α) : Decidable (r.Relates a b) :=
  match r with
  | atMost => inferInstanceAs (Decidable (a ≤ b))
  | atLeast => inferInstanceAs (Decidable (b ≤ a))
  | equal => inferInstanceAs (Decidable (a = b))
  | unequal => inferInstanceAs (Decidable (a ≠ b))
  | less => inferInstanceAs (Decidable (a < b))
  | greater => inferInstanceAs (Decidable (b < a))

variable (r : Relation)

theorem accepts_lt (h : a < b) : r.accepts .lt = decide (r.Relates a b) := by
  cases r <;> simp [accepts, Relates, h, h.le, h.ne, h.not_gt, h.not_ge]

theorem accepts_eq (a : α) : r.accepts .eq = decide (r.Relates a a) := by
  cases r <;> simp [accepts, Relates]

theorem accepts_gt (h : b < a) : r.accepts .gt = decide (r.Relates a b) := by
  cases r <;> simp [accepts, Relates, h, h.le, h.ne', h.not_gt, h.not_ge]

theorem accepts_compare (a b : α) : r.accepts (compare a b) = decide (r.Relates a b) := by
  rcases lt_trichotomy a b with h | rfl | h
  · rw [compare_lt_iff_lt.mpr h, r.accepts_lt h]
  · rw [compare_eq_iff_eq.mpr rfl, r.accepts_eq a]
  · rw [compare_gt_iff_gt.mpr h, r.accepts_gt h]

end Orders

/-- Integers compare in the same way between the two infinities. -/
theorem accepts_compare_grains (r : Relation) (i j : Int) : r.accepts (compare i j) =
    decide (r.Relates ((i : WithTop Int) : WithBot (WithTop Int)) (j : WithTop Int)) := by
  rcases lt_trichotomy i j with h | rfl | h
  · rw [compare_lt_iff_lt.mpr h]
    exact r.accepts_lt (by exact_mod_cast h)
  · rw [compare_eq_iff_eq.mpr rfl]
    exact r.accepts_eq _
  · rw [compare_gt_iff_gt.mpr h]
    exact r.accepts_gt (by exact_mod_cast h)

/-- Numbers compare by where they stand. -/
theorem accepts_compare? (r : Relation) (x y : Binary64) : (x.compare? y).map r.accepts =
    x.place?.bind fun p => y.place?.map fun q => decide (r.Relates p q) := by
  have hbot : ∀ i : WithTop Int, (⊥ : WithBot (WithTop Int)) < i := WithBot.bot_lt_coe
  have htop : ∀ i : Int, ((i : WithTop Int) : WithBot (WithTop Int)) < ⊤ :=
    fun i => WithBot.coe_lt_coe.mpr (WithTop.coe_lt_top i)
  cases x with
  | nan => rfl
  | infinite negative =>
    cases y with
    | nan => cases negative <;> rfl
    | infinite negative' =>
      cases negative <;> cases negative'
      · exact congrArg some (r.accepts_eq _)
      · exact congrArg some (r.accepts_gt (hbot _))
      · exact congrArg some (r.accepts_lt (hbot _))
      · exact congrArg some (r.accepts_eq _)
    | finite =>
      cases negative
      · exact congrArg some (r.accepts_gt (htop _))
      · exact congrArg some (r.accepts_lt (hbot _))
  | finite =>
    cases y with
    | nan => rfl
    | infinite negative =>
      cases negative
      · exact congrArg some (r.accepts_lt (htop _))
      · exact congrArg some (r.accepts_gt (hbot _))
    | finite => exact congrArg some (r.accepts_compare_grains _ _)

/-- Operands of which one is no text compare by where they stand. -/
theorem accepts_compare?_of_numbers (r : Relation) {a b : Operand}
    (others : ∀ s t, a = .text s → b = .text t → False) : (a.compare? b).map r.accepts =
      a.place?.bind fun p => b.place?.map fun q => decide (r.Relates p q) := by
  rw [a.place?_eq, b.place?_eq]
  unfold Operand.compare?
  split
  · rename_i s t
    exact absurd rfl fun h => others s t h rfl
  · split
    · rename_i x y hx hy
      rw [hx, hy]
      exact r.accepts_compare? x y
    · rename_i hnone
      cases hx : a.number? with
      | none => rfl
      | some x =>
        cases hy : b.number? with
        | none => simp
        | some y => exact absurd hy (hnone x y hx)

/-- What a relation says of two values that do not compare: they are not equal, and there is no
order between them. -/
def apart (r : Relation) (a b : Operand) : Except SceneError Bool :=
  match r with
  | equal => .ok false
  | unequal => .ok true
  | _ => .error (.incomparable r.sign a.typeName b.typeName)

/-- **What a relation says of two values**: of texts by their characters, of others by where they
stand. -/
def verdict (r : Relation) : Operand → Operand → Except SceneError Bool
  | .text s, .text t => .ok (decide (r.Relates s t))
  | a, b =>
    match a.place?, b.place? with
    | some x, some y => .ok (decide (r.Relates x y))
    | _, _ => r.apart a b

theorem holds_eq (r : Relation) (a b : Operand) :
    r.holds a b = ((a.compare? b).map r.accepts).elim (r.apart a b) .ok := by
  unfold holds
  cases a.compare? b with
  | none => cases r <;> rfl
  | some o => rfl

/-- **A relation holds between two values just if it says so.** -/
theorem holds_eq_verdict (r : Relation) (a b : Operand) : r.holds a b = r.verdict a b := by
  rw [holds_eq]
  unfold verdict
  split
  · rename_i s t
    exact congrArg Except.ok (r.accepts_compare s t)
  · rename_i others
    rw [r.accepts_compare?_of_numbers others]
    cases a.place? with
    | none => rfl
    | some p =>
      cases b.place? with
      | none => rfl
      | some q => rfl

/-! ## Where a sign is found -/

section Signs

variable (r : Relation) {c : Char}

theorem sign_ne_nil : r.sign.toList ≠ [] := by cases r <;> decide

theorem mem_marks_of_mem_sign : ∀ c ∈ r.sign.toList, c ∈ marks :=
  forall_mem_of_all (by cases r <;> decide)

theorem not_mem_sign_of_solid (solid : Solid c) : c ∉ r.sign.toList :=
  fun hc => solid.2 (r.mem_marks_of_mem_sign c hc)

theorem not_mem_sign_of_blank (blank : isBlank c = true) : c ∉ r.sign.toList := by
  have hmarks : ∀ d ∈ marks, isBlank d = false := forall_mem_of_all (by decide)
  intro hc
  rw [hmarks c (r.mem_marks_of_mem_sign c hc)] at blank
  cases blank

/-- The relations that are looked for before another one. -/
def earlier : List Relation := all.takeWhile fun o => o != r

theorem all_eq : ∃ later, all = r.earlier ++ r :: later := by cases r <;> exact ⟨_, rfl⟩

/-- What is looked for before does not stand in the sign of a relation. -/
theorem not_infix_sign_of_earlier : ∀ o ∈ r.earlier, ¬o.sign.toList <:+: r.sign.toList := by
  cases r <;> decide

end Signs

section Cuts

variable {s : List Char} {rs : List Relation}

/-- No sign cuts a text just if none occurs in it. -/
theorem cutFirst?_eq_none_iff : cutFirst? s rs = none ↔ ∀ o ∈ rs, ¬o.sign.toList <:+: s := by
  induction rs with
  | nil => simp [cutFirst?]
  | cons o rest ih =>
    rw [List.forall_mem_cons, ← ih, ← cutAt?_eq_none_iff o.sign_ne_nil, cutFirst?]
    cases cutAt? o.sign.toList s <;> simp

theorem of_cutFirst?_eq_some {o : Relation} {a b : List Char}
    (h : cutFirst? s rs = some (o, a, b)) : o ∈ rs ∧ cutAt? o.sign.toList s = some (a, b) := by
  induction rs with
  | nil => cases h
  | cons o' rest ih =>
    unfold cutFirst? at h
    split at h
    · rename_i hcut
      cases h
      exact ⟨List.mem_cons_self, hcut⟩
    · exact ⟨List.mem_cons_of_mem o' (ih h).1, (ih h).2⟩

theorem cutFirst?_append (s : List Char) (rs rs' : List Relation) :
    cutFirst? s (rs ++ rs') = (cutFirst? s rs).or (cutFirst? s rs') := by
  induction rs with
  | nil => rfl
  | cons o rest ih =>
    rw [List.cons_append, cutFirst?, cutFirst?]
    cases cutAt? o.sign.toList s with
    | none => exact ih
    | some parts => rfl

/-- The first sign that occurs is looked for before another one, or it is that. -/
theorem cutFirst?_all (r : Relation) {a b : List Char} (h : cutAt? r.sign.toList s = some (a, b)) :
    cutFirst? s all = (cutFirst? s r.earlier).or (some (r, a, b)) := by
  obtain ⟨later, hall⟩ := r.all_eq
  rw [hall, cutFirst?_append, cutFirst?, h]

end Cuts

/-! ## Hidden signs -/

/-- **The operands hide a sign** if one of them contains a sign that is looked for before, or the
left one contains the sign itself. -/
def HiddenBy (r : Relation) (left right : List Char) : Prop :=
  (∃ o ∈ r.earlier, o.sign.toList <:+: left ∨ o.sign.toList <:+: right) ∨ r.sign.toList <:+: left

instance (r : Relation) (left right : List Char) : Decidable (r.HiddenBy left right) :=
  inferInstanceAs (Decidable (_ ∨ _))

/-- The text of a comparison, with anything around its parts. -/
def text (r : Relation) (left right p₀ p₁ p₂ p₃ : List Char) : String :=
  String.ofList (p₀ ++ left ++ p₁ ++ r.sign.toList ++ p₂ ++ right ++ p₃)

section Comparison

variable {r : Relation} {left right before after : List Char}

/-- The sign of a relation with what stands around it. -/
def between (r : Relation) (before after : List Char) : List Char :=
  before ++ r.sign.toList ++ after

variable (blank : Blank before) (blank' : Blank after)

include blank blank' in
/-- Among blanks, a sign is found only in a sign. -/
theorem infix_between (o : Relation) :
    o.sign.toList <:+: r.between before after ↔ o.sign.toList <:+: r.sign.toList := by
  have hnone : ∀ {s : List Char}, Blank s → ¬o.sign.toList <:+: s := fun hs =>
    not_infix_of_foreign o.sign_ne_nil fun c hc => o.not_mem_sign_of_blank (hs c hc)
  rw [between, infix_append_of_first fun c hc => o.not_mem_sign_of_blank
    (blank' c (List.mem_of_mem_head? hc)), infix_append_of_last fun c hc =>
      o.not_mem_sign_of_blank (blank c (List.mem_of_mem_getLast? hc))]
  simp [hnone blank, hnone blank']

variable (last : ∀ c, left.getLast? = some c → Solid c)
  (first : ∀ c, right.head? = some c → Solid c)

include last in
theorem infix_append_left (o : Relation) (rest : List Char) :
    o.sign.toList <:+: left ++ rest ↔ o.sign.toList <:+: left ∨ o.sign.toList <:+: rest :=
  infix_append_of_last fun c hc => o.not_mem_sign_of_solid (last c hc)

include first in
theorem infix_append_right (o : Relation) (front : List Char) :
    o.sign.toList <:+: front ++ right ↔ o.sign.toList <:+: front ∨ o.sign.toList <:+: right :=
  infix_append_of_first fun c hc => o.not_mem_sign_of_solid (first c hc)

include blank blank' last first

/-- **A sign that is not hidden cuts the comparison where it stands.** -/
theorem cutFirst?_of_shown (shown : ¬r.HiddenBy left right) :
    cutFirst? (left ++ r.between before after ++ right) all =
      some (r, left ++ before, after ++ right) := by
  rw [HiddenBy, not_or] at shown
  have hcut : cutAt? r.sign.toList (left ++ r.between before after ++ right) =
      some (left ++ before, after ++ right) := by
    have hparts : left ++ r.between before after ++ right =
        left ++ before ++ r.sign.toList ++ (after ++ right) := by
      simp [between]
    rw [hparts]
    refine cutAt?_append r.sign_ne_nil ?_
    rw [List.append_assoc, infix_append_left last, infix_append_of_last fun c hc =>
      r.not_mem_sign_of_blank (blank c (List.mem_of_mem_getLast? hc))]
    -- an earlier occurrence would end in the left operand, among the blanks or inside the sign
    rintro (hleft | hbefore | hsign)
    · exact shown.2 hleft
    · exact not_infix_of_foreign r.sign_ne_nil
        (fun c hc => r.not_mem_sign_of_blank (blank c hc)) hbefore
    · have hlength := hsign.length_le
      have hpositive := List.length_pos_of_ne_nil r.sign_ne_nil
      rw [List.length_dropLast] at hlength
      omega
  have hearlier : cutFirst? (left ++ r.between before after ++ right) r.earlier = none := by
    refine cutFirst?_eq_none_iff.mpr fun o ho hfound => ?_
    rw [infix_append_right first, infix_append_left last, infix_between blank blank'] at hfound
    obtain (hleft | hsign) | hright := hfound
    · exact shown.1 ⟨o, ho, .inl hleft⟩
    · exact r.not_infix_sign_of_earlier o ho hsign
    · exact shown.1 ⟨o, ho, .inr hright⟩
  rw [cutFirst?_all r hcut, hearlier, Option.none_or]

/-- **A hidden sign leaves the cut to a sign in an operand**, in the right one only if there is no
such sign up to it. -/
theorem cutFirst?_of_hidden (hidden : r.HiddenBy left right) :
    ∃ o a b, cutFirst? (left ++ r.between before after ++ right) all = some (o, a, b) ∧
      cutAt? o.sign.toList (left ++ r.between before after ++ right) = some (a, b) ∧
      (o.sign.toList <:+: left ∨ ¬o.sign.toList <:+: left ++ r.between before after) := by
  have hoccurs : r.sign.toList <:+: left ++ r.between before after ++ right :=
    ⟨left ++ before, after ++ right, by simp [between]⟩
  obtain ⟨⟨a, b⟩, hcut⟩ := Option.ne_none_iff_exists'.mp
    fun hnone => (cutAt?_eq_none_iff r.sign_ne_nil).mp hnone hoccurs
  rw [cutFirst?_all r hcut]
  cases hearlier : cutFirst? (left ++ r.between before after ++ right) r.earlier with
  | some found =>
    -- a sign that is looked for before the relation's own cuts, and it does not stand between
    obtain ⟨o, a, b⟩ := found
    obtain ⟨ho, hcut⟩ := of_cutFirst?_eq_some hearlier
    refine ⟨o, a, b, rfl, hcut, ?_⟩
    rw [infix_append_left last, infix_between blank blank']
    by_cases hleft : o.sign.toList <:+: left
    · exact .inl hleft
    · exact .inr (not_or.mpr ⟨hleft, r.not_infix_sign_of_earlier o ho⟩)
  | none =>
    -- none of these occurs, so the relation's own sign cuts, and it stands in the left operand
    refine ⟨r, a, b, rfl, hcut, .inl (hidden.resolve_left ?_)⟩
    rintro ⟨o, ho, hoperand⟩
    refine cutFirst?_eq_none_iff.mp hearlier o ho ?_
    rw [infix_append_right first, infix_append_left last]
    exact hoperand.elim (fun hleft => .inl (.inl hleft)) .inr

end Comparison

/-! ## Half a text in quotes -/

section Halves

variable {o : Relation} {quote : Char} {content a b : List Char}

theorem quote_not_mem_sign (kind : quote ∈ quotes) : quote ∉ o.sign.toList :=
  o.not_mem_sign_of_solid (solid_of_quote quote kind)

/-- What is cut inside a text in quotes at the left begins with a quote that is not closed. -/
theorem opened_of_cut (kind : quote ∈ quotes) (closed : quote ∉ content) {rest : List Char}
    (inside : o.sign.toList <:+: quote :: content ++ [quote])
    (cut : cutAt? o.sign.toList (quote :: content ++ [quote] ++ rest) = some (a, b)) :
    ∃ opened, a = quote :: opened ∧ quote ∉ opened := by
  obtain ⟨heq, hfirst⟩ := of_cutAt?_eq_some o.sign_ne_nil cut
  -- the cut is early enough for all of its sign but the last character to stand in the operand
  have hearly : a ++ o.sign.toList.dropLast <+: quote :: content ++ [quote] := by
    refine (List.prefix_or_prefix_of_prefix (heq ▸ dropLast_begins a o.sign.toList b)
      (List.prefix_append _ rest)).resolve_right fun hlate => ?_
    exact hfirst (inside.trans hlate.isInfix)
  have hbegins : a <+: quote :: content := by
    have hpart := (List.prefix_append a o.sign.toList.dropLast).trans hearly
    refine (List.prefix_concat_iff.mp hpart).resolve_left ?_
    rintro rfl
    exact hfirst (inside.trans (List.prefix_append _ _).isInfix)
  obtain rfl | ⟨opened, rfl, hopened⟩ := List.prefix_cons_iff.mp hbegins
  · obtain ⟨c, sign, hsign⟩ := List.exists_cons_of_ne_nil o.sign_ne_nil
    rw [hsign] at heq
    refine absurd ?_ (quote_not_mem_sign (o := o) kind)
    rw [hsign, (List.cons.inj heq).1]
    exact List.mem_cons_self
  · exact ⟨opened, rfl, fun hc => closed (hopened.subset hc)⟩

/-- What is cut inside a text in quotes at the right ends with a quote that is not opened. -/
theorem closed_of_cut (kind : quote ∈ quotes) (closed : quote ∉ content) {front : List Char}
    (outside : ¬o.sign.toList <:+: front)
    (cut : cutAt? o.sign.toList (front ++ (quote :: content ++ [quote])) = some (a, b)) :
    ∃ unopened, b = unopened ++ [quote] ∧ quote ∉ unopened := by
  obtain ⟨heq, -⟩ := of_cutAt?_eq_some o.sign_ne_nil cut
  have hquote := quote_not_mem_sign (o := o) kind
  have hlate : front ++ [quote] <+: a ++ o.sign.toList := by
    have hfront : front ++ [quote] <+: front ++ (quote :: content ++ [quote]) :=
      (List.prefix_append_right_inj front).mpr ⟨content ++ [quote], rfl⟩
    refine (List.prefix_or_prefix_of_prefix hfront ⟨b, heq.symm⟩).resolve_right fun hearly => ?_
    have hfound := (List.suffix_append a o.sign.toList).isInfix.trans hearly.isInfix
    rw [infix_append_of_first (by simpa using hquote)] at hfound
    refine hfound.elim outside (not_infix_of_foreign o.sign_ne_nil ?_)
    simpa using hquote
  obtain ⟨more, hmore⟩ := hlate
  have hends : b <:+ content ++ [quote] := by
    have hwhole : front ++ [quote] ++ (more ++ b) = front ++ [quote] ++ (content ++ [quote]) := by
      rw [← List.append_assoc, hmore, ← heq]
      simp
    exact ⟨more, List.append_cancel_left hwhole⟩
  obtain rfl | ⟨unopened, rfl, hunopened⟩ := List.suffix_concat_iff.mp hends
  · obtain ⟨sign, c, hsign⟩ := (List.eq_nil_or_concat o.sign.toList).resolve_left o.sign_ne_nil
    rw [List.concat_eq_append] at hsign
    have hlast := congrArg List.getLast? heq
    rw [List.append_nil, hsign, ← List.append_assoc, ← List.append_assoc, List.getLast?_concat,
      List.getLast?_concat] at hlast
    cases hlast
    exact absurd (hsign ▸ List.mem_append_right sign List.mem_cons_self) hquote
  · exact ⟨unopened, rfl, fun hc => closed (hunopened.subset hc)⟩

end Halves

end Relation

/-! ## Comparisons -/

namespace Scene

variable {scene : Scene}

/-- What a condition with a sign comes to: the operands are read from left to right. -/
theorem satisfies_of_cut {condition : String} {s : List Char} (text : trim condition.toList = s)
    (nonempty : s ≠ []) {o : Relation} {a b : List Char}
    (cut : Relation.cutFirst? s Relation.all = some (o, a, b)) :
    scene.satisfies condition = (Operand.of scene (String.ofList a)).bind fun x =>
      (Operand.of scene (String.ofList b)).bind fun y => o.verdict x y := by
  simp only [satisfies, text, if_neg nonempty, cut]
  cases Operand.of scene (String.ofList a) with
  | error e => rfl
  | ok x =>
    cases Operand.of scene (String.ofList b) with
    | error e => rfl
    | ok y => exact o.holds_eq_verdict x y

theorem Denotes.quoted_of_sign {s : List Char} {value : Operand} (h : Denotes scene s value)
    {o : Relation} (inside : o.sign.toList <:+: s) :
    ∃ quote content, quote ∈ quotes ∧ quote ∉ content ∧ s = quote :: content ++ [quote] := by
  obtain ⟨c, rest, hsign⟩ := List.exists_cons_of_ne_nil o.sign_ne_nil
  have hc : c ∈ o.sign.toList := hsign ▸ List.mem_cons_self
  exact h.quoted_of_mark (inside.subset hc) (o.mem_marks_of_mem_sign c hc)

section

variable {left right : List Char} {x y : Operand} (worth : Denotes scene left x)
  (worth' : Denotes scene right y)

include worth worth'

/-- What is left on one side of a cut in an operand is the name of nothing. -/
theorem undefinedName_of_cut (keys : Operand.KeysUnquoted scene) {o : Relation}
    {middle a b : List Char}
    (cut : cutAt? o.sign.toList (left ++ middle ++ right) = some (a, b))
    (place : o.sign.toList <:+: left ∨ ¬o.sign.toList <:+: left ++ middle) :
    ∃ key, ((Operand.of scene (String.ofList a)).bind fun x =>
      (Operand.of scene (String.ofList b)).bind fun y => o.verdict x y) =
        .error (.undefinedName key) := by
  rcases place with hleft | hfront
  · obtain ⟨quote, content, kind, closed, rfl⟩ := worth.quoted_of_sign hleft
    rw [List.append_assoc] at cut
    obtain ⟨opened, rfl, hopened⟩ := Relation.opened_of_cut kind closed hleft cut
    obtain ⟨key, herror⟩ := Operand.of_opened kind keys hopened
    exact ⟨key, by rw [herror]; rfl⟩
  · obtain ⟨heq, -⟩ := of_cutAt?_eq_some o.sign_ne_nil cut
    have hright : o.sign.toList <:+: right := by
      refine ((Relation.infix_append_right worth'.ends.2.1 o (left ++ middle)).mp ?_).resolve_left
        hfront
      exact ⟨a, b, heq.symm⟩
    obtain ⟨quote, content, kind, closed, rfl⟩ := worth'.quoted_of_sign hright
    obtain ⟨unopened, rfl, hunopened⟩ := Relation.closed_of_cut kind closed hfront cut
    obtain ⟨key, herror⟩ := Operand.of_closed kind keys hunopened
    -- the left side may be defined: other quotes can begin in one operand and end in the other
    cases hleft : Operand.of scene (String.ofList a) with
    | error e =>
      obtain ⟨key', rfl⟩ := Operand.undefinedName_of_error hleft
      exact ⟨key', rfl⟩
    | ok x' => exact ⟨key, by rw [herror]; rfl⟩

/-- **A comparison is decided as it reads, unless its sign is hidden.** Whatever the operands are
worth and however many blanks there are, the condition comes to what the relation says of the two
values. If the operands hide the sign, some name is not defined instead, as far as no property has a
quote in its key. -/
theorem satisfies_comparison (r : Relation) {p₀ p₁ p₂ p₃ : List Char}
    (blank : Blank (p₀ ++ p₁ ++ p₂ ++ p₃)) :
    (¬r.HiddenBy left right →
      scene.satisfies (r.text left right p₀ p₁ p₂ p₃) = r.verdict x y) ∧
    (r.HiddenBy left right → Operand.KeysUnquoted scene →
      ∃ key, scene.satisfies (r.text left right p₀ p₁ p₂ p₃) = .error (.undefinedName key)) := by
  simp only [Blank, List.forall_mem_append] at blank
  obtain ⟨⟨⟨hp₀, hp₁⟩, hp₂⟩, hp₃⟩ := blank
  obtain ⟨hne, -, hlast⟩ := worth.ends
  obtain ⟨hne', hfirst, -⟩ := worth'.ends
  have htext : trim (r.text left right p₀ p₁ p₂ p₃).toList = left ++ r.between p₁ p₂ ++ right := by
    have htrimmed := worth.trimmed.append worth'.trimmed hne hne' (r.between p₁ p₂)
    rw [← htrimmed.trim_padded hp₀ hp₃, Relation.text, String.toList_ofList, Relation.between]
    simp only [List.append_assoc]
  have hsome : left ++ r.between p₁ p₂ ++ right ≠ [] := by simp [hne]
  constructor
  · intro shown
    have hcut := Relation.cutFirst?_of_shown hp₁ hp₂ hlast hfirst shown
    have hnone : Blank [] := nofun
    have hleft := Operand.of_denotes worth hnone hp₁
    have hright := Operand.of_denotes worth' hp₂ hnone
    rw [List.nil_append] at hleft
    rw [List.append_nil] at hright
    rw [satisfies_of_cut htext hsome hcut, hleft, hright]
    rfl
  · intro hidden keys
    obtain ⟨o, a, b, hcut, hparts, hplace⟩ :=
      Relation.cutFirst?_of_hidden hp₁ hp₂ hlast hfirst hidden
    rw [satisfies_of_cut htext hsome hcut]
    exact undefinedName_of_cut worth worth' keys hparts hplace

end

end Scene

/-! ## A sign that shows, and one that is hidden -/

/-- A scene in which a mode is set. -/
def editing : Scene := { Scene.blank with properties := .ofList [("mode", .text "EDIT")] }

/-- A text in quotes. -/
def inQuotes (content : String) : List Char := '\'' :: content.toList ++ ['\'']

theorem denotes_inQuotes (scene : Scene) {content : String} (closed : '\'' ∉ content.toList) :
    scene.Denotes (inQuotes content) (.text content) := by
  have hquoted : scene.Denotes (inQuotes content) (.text (String.ofList content.toList)) :=
    .quoted (by decide) closed
  rwa [String.ofList_toList] at hquoted

theorem editing_comparisons :
    editing.satisfies "bpy.context.scene.mode != 'a<b'" = .ok true ∧
      ∃ key, editing.satisfies "'a<=b' == 'a<=b'" = .error (.undefinedName key) := by
  have hmode : editing.Denotes (Scene.path ++ "mode".toList) (.text "EDIT") :=
    .property (by decide +kernel) (by decide +kernel) (.inr rfl)
      (rfl : editing.properties.get? "mode" = some (.text "EDIT")) rfl
  have hless : editing.Denotes (inQuotes "a<b") (.text "a<b") :=
    denotes_inQuotes editing (by decide +kernel)
  have hatMost : editing.Denotes (inQuotes "a<=b") (.text "a<=b") :=
    denotes_inQuotes editing (by decide +kernel)
  have hkeys : Operand.KeysUnquoted editing :=
    Operand.keysUnquoted_of_entries (by decide +kernel)
  have hblank : Blank ([] ++ [' '] ++ [' '] ++ []) := by decide
  have hshown := (Scene.satisfies_comparison hmode hless .unequal hblank).1 (by decide +kernel)
  have hhidden :=
    (Scene.satisfies_comparison hatMost hatMost .equal hblank).2 (by decide +kernel) hkeys
  have htext : Relation.unequal.text (Scene.path ++ "mode".toList) (inQuotes "a<b") [] [' '] [' ']
      [] = "bpy.context.scene.mode != 'a<b'" := by decide +kernel
  have htext' : Relation.equal.text (inQuotes "a<=b") (inQuotes "a<=b") [] [' '] [' '] [] =
      "'a<=b' == 'a<=b'" := by decide +kernel
  have hverdict : Relation.unequal.verdict (.text "EDIT") (.text "a<b") = .ok true := by
    decide +kernel
  rw [htext, hverdict] at hshown
  rw [htext'] at hhidden
  exact ⟨hshown, hhidden⟩

/-- Two equal texts are not found equal: the sign in them is taken for the one between them. -/
theorem equal_texts_undefined :
    Scene.blank.Denotes (inQuotes "a<=b") (.text "a<=b") ∧
      Relation.equal.text (inQuotes "a<=b") (inQuotes "a<=b") [] [' '] [' '] [] =
        "'a<=b' == 'a<=b'" ∧
      Relation.equal.verdict (.text "a<=b") (.text "a<=b") = .ok true ∧
      Scene.blank.satisfies "'a<=b' == 'a<=b'" = .error (.undefinedName "'a") :=
  ⟨denotes_inQuotes Scene.blank (by decide +kernel), by decide +kernel, by decide +kernel,
    by decide +kernel⟩

end Replay
