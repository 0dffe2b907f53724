import Replay.Scene.Condition
import Replay.Proofs.Command.Names
import Replay.Proofs.Text.Occurrences
import Replay.Proofs.Number.Numeral

/-!
# Operands

How an operand of a condition is written, and what it is worth: a number, a truth value, a text in
quotes, the size of the selection, or a property of the scene by its name. However many blanks there
are around it, it is read as what it is worth.

A quote that is opened and not closed, or closed and not opened, makes an operand the name of
nothing.

* `Scene.Denotes` — what an operand is worth
* `Operand.of_denotes` — it is read as that
* `Operand.of_opened`, `Operand.of_closed` — half a text in quotes is not defined
-/

set_option autoImplicit false

namespace Replay

open Text Arguments

/-! ## Characters -/

/-- The characters that signs of relations are made of. -/
def Relation.marks : List Char := ['<', '>', '=', '!']

/-- Neither a blank nor part of a sign. -/
def Solid (c : Char) : Prop := isBlank c = false ∧ c ∉ Relation.marks

instance (c : Char) : Decidable (Solid c) := inferInstanceAs (Decidable (_ ∧ _))

theorem Numeral.not_isNumeralChar_of_isBlank {c : Char} (h : isBlank c = true) :
    isNumeralChar c = false := by
  have hpoints : ∀ n ∈ blankPoints, isNumeralChar (Char.ofNat n) = false := by decide +kernel
  rw [← Char.ofNat_toNat c]
  exact hpoints _ (mem_blankPoints h)

theorem Numeral.solid_of_isNumeralChar {c : Char} (h : isNumeralChar c = true) : Solid c := by
  refine ⟨?_, fun hmark => ?_⟩
  · cases hc : isBlank c with
    | false => rfl
    | true => rw [not_isNumeralChar_of_isBlank hc] at h; cases h
  · have hmarks : ∀ d ∈ Relation.marks, isNumeralChar d = false := forall_mem_of_all (by decide)
    rw [hmarks c hmark] at h
    cases h

theorem Arguments.solid_of_isNameChar {c : Char} (h : isNameChar c = true) : Solid c := by
  refine ⟨isBlank_of_isNameChar h, fun hmark => ?_⟩
  have hmarks : ∀ d ∈ Relation.marks, isNameChar d = false := forall_mem_of_all (by decide +kernel)
  rw [hmarks c hmark] at h
  cases h

theorem solid_of_quote : ∀ c ∈ quotes, Solid c := forall_mem_of_all (by decide)

/-- A quote stands in no number, also not in a word for one. -/
theorem Numeral.quote_foreign : ∀ c ∈ quotes, isNumeralChar c = false ∧
    ∀ word ∈ ["inf", "infinity", "nan"], c.toLower ∉ word.toList :=
  forall_mem_of_all (by decide)

/-! ## Literals -/

namespace Literal

variable {s : List Char}

/-- A number is no truth value. -/
theorem text_ne_truth (n : Numeral) : ∀ word ∈ ["True", "False"], n.text ≠ word.toList := by
  have hforeign : ∀ word ∈ ["True", "False"],
      ∃ c, c ∈ word.toList.head? ∧ Numeral.isNumeralChar c = false := by
    simp [Numeral.isNumeralChar]
  intro word hword heq
  obtain ⟨c, hhead, hc⟩ := hforeign word hword
  rw [n.isNumeralChar_of_mem_text c (heq ▸ List.mem_of_mem_head? hhead)] at hc
  cases hc

/-- A number that is read as a decimal is worth that: it is not zero if it is an integer. -/
theorem toBinary64_of_beyond {n : Numeral} (finite : n.value.isFinite = true)
    (beyond : ¬(n.isInteger = true ∧ Word.leastInt ≤ n.sign.apply (digitsValue n.whole) ∧
      n.sign.apply (digitsValue n.whole) ≤ Word.greatestInt)) :
    n.decimal.toBinary64 (n.sign = .minus) = n.value := by
  by_cases hinteger : n.isInteger = true
  · refine n.toBinary64_of_isInteger hinteger (fun hzero => beyond ⟨hinteger, ?_⟩) finite
    have hsigned : n.sign.apply (digitsValue n.whole) = 0 := by
      rw [hzero]
      cases n.sign <;> rfl
    rw [hsigned]
    decide
  · rw [Numeral.value, if_neg hinteger]

/-- A number is read as the double nearest it. -/
theorem value?_numeral (n : Numeral) (finite : n.value.isFinite = true) :
    ∃ json, value? (String.ofList n.text) = some json ∧
      Operand.ofJson? json = some (.number n.value) := by
  have htrim : trim n.text = n.text := (trimmed_of_solid fun c hc =>
    (Numeral.solid_of_isNumeralChar (n.isNumeralChar_of_mem_text c hc)).1).trim_eq
  have htrue := text_ne_truth n "True" (by decide)
  have hfalse := text_ne_truth n "False" (by decide)
  simp only [value?, String.toList_ofList, htrim, if_neg htrue, if_neg hfalse, n.integer?_text,
    n.float?_text]
  split
  · rename_i i hi
    split at hi
    · rename_i hrange
      cases hi
      exact ⟨_, rfl, by rw [Numeral.value, if_pos hrange.1]; rfl⟩
    · cases hi
  · rename_i hnone
    have hbeyond := fun hrange => Option.some_ne_none _ ((if_pos hrange).symm.trans hnone)
    exact ⟨_, by rw [toBinary64_of_beyond finite hbeyond, if_pos finite], rfl⟩

/-- A text with a quote is a literal only by a pair of quotes. -/
theorem value?_of_quote {quote : Char} (kind : quote ∈ quotes) (mem : quote ∈ trim s) :
    value? (String.ofList s) =
      (quoted? (trim s)).map fun inner => .text (String.ofList inner) := by
  obtain ⟨hforeign, hwordless⟩ := Numeral.quote_foreign quote kind
  have hword : ∀ word ∈ ["True", "False"], trim s ≠ word.toList := by
    intro word hword heq
    have hnone : ∀ q ∈ quotes, ∀ word ∈ ["True", "False"], q ∉ word.toList :=
      forall_mem_of_all (by decide)
    exact hnone quote kind word hword (heq ▸ mem)
  have htrue := hword "True" (by decide)
  have hfalse := hword "False" (by decide)
  simp only [value?, String.toList_ofList, if_neg htrue, if_neg hfalse,
    Numeral.integer?_of_mem mem hforeign, Numeral.float?_of_mem mem hforeign hwordless]

/-- What does not begin like a number or a text in quotes is no literal but a truth value. -/
theorem value?_of_head {c : Char} {rest : List Char} (head : trim s = c :: rest)
    (digit : c.isDigit = false) (foreign : c ∉ ['.', '+', '-', '"', '\''])
    (truthless : ∀ word ∈ ["True", "False"], trim s ≠ word.toList) :
    value? (String.ofList s) = none := by
  have htrue := truthless "True" (by decide)
  have hfalse := truthless "False" (by decide)
  rw [head] at htrue hfalse
  simp only [List.mem_cons, List.not_mem_nil, or_false, not_or] at foreign
  have hsignless : c ∉ ['+', '-'] := by simp [foreign]
  have hquoted : quoted? (c :: rest) = none := by simp [quoted?, foreign]
  simp only [value?, String.toList_ofList, head, if_neg htrue, if_neg hfalse,
    Numeral.integer?_of_head digit hsignless]
  split
  · rename_i x hx
    rw [Numeral.float?_of_head digit hsignless foreign.1 x hx]
    rfl
  · rw [hquoted]
    rfl

end Literal

/-! ## Keys -/

namespace Scene

/-- A text without a start that it may have. -/
def withoutStart (start s : List Char) : List Char := (afterStart? start s).getD s

theorem propertyKey_eq (s : List Char) : propertyKey (String.ofList s) =
    String.ofList (withoutStart "scene.".toList (withoutStart contextStart (trim s))) := by
  simp only [propertyKey, withoutStart, String.toList_ofList]

theorem withoutStart_append (start s : List Char) : withoutStart start (start ++ s) = s := by
  rw [withoutStart, afterStart?_append, Option.getD_some]

theorem withoutStart_of_not_mem {c : Char} {start s : List Char} (mem : c ∈ start) (free : c ∉ s) :
    withoutStart start s = s := by
  cases hafter : afterStart? start s with
  | none => rw [withoutStart, hafter, Option.getD_none]
  | some rest =>
    rw [of_afterStart?_eq_some hafter] at free
    exact absurd (List.mem_append_left rest mem) free

theorem mem_withoutStart {c : Char} {start s : List Char} (free : c ∉ start) (mem : c ∈ s) :
    c ∈ withoutStart start s := by
  cases hafter : afterStart? start s with
  | none => rwa [withoutStart, hafter, Option.getD_none]
  | some rest =>
    rw [of_afterStart?_eq_some hafter] at mem
    rw [withoutStart, hafter, Option.getD_some]
    exact (List.mem_append.mp mem).resolve_left free

/-- What may stand in front of the name of a property. -/
def path : List Char := "bpy.context.scene.".toList

/-- A name is the key of its property, with the path in front of it or without. -/
theorem propertyKey_name {name before : List Char} (named : isIdentifier name = true)
    (start : before = [] ∨ before = path) {s : List Char} (text : trim s = before ++ name) :
    propertyKey (String.ofList s) = String.ofList name := by
  have hpoint : '.' ∉ name := sign_not_mem named (by decide)
  rw [propertyKey_eq, text]
  rcases start with rfl | rfl
  · rw [List.nil_append, withoutStart_of_not_mem (c := '.') (by decide) hpoint,
      withoutStart_of_not_mem (c := '.') (by decide) hpoint]
  · have hpath : path ++ name = contextStart ++ ("scene.".toList ++ name) := rfl
    rw [hpath, withoutStart_append, withoutStart_append]

/-- A quote is never taken off with what stands in front of a key. -/
theorem quote_mem_propertyKey {quote : Char} (kind : quote ∈ quotes) {s : List Char}
    (mem : quote ∈ trim s) : quote ∈ (propertyKey (String.ofList s)).toList := by
  have hfree : ∀ q ∈ quotes, q ∉ contextStart ∧ q ∉ "scene.".toList :=
    forall_mem_of_all (by decide)
  obtain ⟨hcontext, hscene⟩ := hfree quote kind
  rw [propertyKey_eq, String.toList_ofList]
  exact mem_withoutStart hscene (mem_withoutStart hcontext mem)

/-! ## What operands are worth -/

/-- The words that are no names of properties. -/
def reserved : List String := ["True", "False", "selected_count"]

/-- **What an operand is worth in a scene**: a number the double nearest it, which has to be finite;
a text in quotes its content, in which the quote does not occur; a name the value of its property,
if that is a number, a text or a truth value. The path of the scene may stand in front of a name. -/
inductive Denotes (scene : Scene) : List Char → Operand → Prop
  | numeral (n : Numeral) (finite : n.value.isFinite = true) :
      Denotes scene n.text (.number n.value)
  | truth : Denotes scene "True".toList (.bool true)
  | falsehood : Denotes scene "False".toList (.bool false)
  | quoted {quote : Char} {content : List Char} (kind : quote ∈ quotes) (closed : quote ∉ content) :
      Denotes scene (quote :: content ++ [quote]) (.text (String.ofList content))
  | selectedCount :
      Denotes scene "selected_count".toList (.number (.ofInt scene.selected.length))
  | property {name : String} {before : List Char} {json : Json} {value : Operand}
      (named : isIdentifier name.toList = true) (free : name ∉ reserved)
      (start : before = [] ∨ before = path) (there : scene.properties.get? name = some json)
      (holds : Operand.ofJson? json = some value) :
      Denotes scene (before ++ name.toList) value

namespace Denotes

variable {scene : Scene} {s : List Char} {value : Operand}

/-- An operand is a text in quotes, or there are neither blanks nor parts of signs in it. -/
theorem quoted_or_solid (h : Denotes scene s value) :
    (∃ quote content, quote ∈ quotes ∧ quote ∉ content ∧ s = quote :: content ++ [quote]) ∨
      (s ≠ [] ∧ ∀ c ∈ s, Solid c) := by
  cases h with
  | numeral n finite =>
    right
    obtain ⟨c, rest, hbody, -⟩ := n.head_body
    exact ⟨by simp [Numeral.text, hbody], fun c hc =>
      Numeral.solid_of_isNumeralChar (n.isNumeralChar_of_mem_text c hc)⟩
  | truth => exact .inr ⟨by decide, forall_mem_of_all (by decide)⟩
  | falsehood => exact .inr ⟨by decide, forall_mem_of_all (by decide)⟩
  | quoted kind closed => exact .inl ⟨_, _, kind, closed, rfl⟩
  | selectedCount => exact .inr ⟨by decide, forall_mem_of_all (by decide)⟩
  | property named free start there holds =>
    right
    have hpath : ∀ c ∈ path, Solid c := forall_mem_of_all (by decide +kernel)
    refine ⟨fun hnil => ne_nil_of_isIdentifier named (List.append_eq_nil_iff.mp hnil).2,
      List.forall_mem_append.mpr ⟨?_, fun c hc =>
        solid_of_isNameChar (isNameChar_of_isIdentifier named c hc)⟩⟩
    rcases start with rfl | rfl
    · exact List.forall_mem_nil _
    · exact hpath

/-- At its ends, an operand has neither a blank nor part of a sign. -/
theorem ends (h : Denotes scene s value) : s ≠ [] ∧ (∀ c, s.head? = some c → Solid c) ∧
    ∀ c, s.getLast? = some c → Solid c := by
  obtain ⟨quote, content, hkind, -, rfl⟩ | ⟨hne, hsolid⟩ := h.quoted_or_solid
  · have hquote := solid_of_quote quote hkind
    refine ⟨by simp, ?_, ?_⟩
    · rintro _ ⟨⟩
      exact hquote
    · intro c hc
      rw [List.getLast?_concat] at hc
      cases hc
      exact hquote
  · exact ⟨hne, fun c hc => hsolid c (List.mem_of_mem_head? hc),
      fun c hc => hsolid c (List.mem_of_mem_getLast? hc)⟩

theorem trimmed (h : Denotes scene s value) : Trimmed s :=
  ⟨fun c hc => (h.ends.2.1 c hc).1, fun c hc => (h.ends.2.2 c hc).1⟩

/-- Part of a sign stands in an operand only between quotes. -/
theorem quoted_of_mark (h : Denotes scene s value) {c : Char} (mem : c ∈ s)
    (mark : c ∈ Relation.marks) :
    ∃ quote content, quote ∈ quotes ∧ quote ∉ content ∧ s = quote :: content ++ [quote] :=
  h.quoted_or_solid.resolve_right fun hsolid => (hsolid.2 c mem).2 mark

end Denotes

end Scene

/-! ## Reading -/

namespace Operand

open Scene

variable {scene : Scene} {s : List Char} {value : Operand}

/-- Blanks around an operand do not count. -/
theorem of_congr {t : List Char} (h : trim s = trim t) :
    Operand.of scene (String.ofList s) = Operand.of scene (String.ofList t) := by
  have hliteral : Literal.value? (String.ofList s) = Literal.value? (String.ofList t) := by
    simp only [Literal.value?, String.toList_ofList, h]
  rw [Operand.of, Operand.of, hliteral, propertyKey_eq, propertyKey_eq, h]

theorem of_literal {written : String} {json : Json} (literal : Literal.value? written = some json)
    (holds : ofJson? json = some value) : Operand.of scene written = .ok value := by
  rw [Operand.of, literal, Option.bind_some, holds]

/-- A name that is no literal is read as its property. -/
theorem of_name {written key : String} (literal : Literal.value? written = none)
    (spelling : propertyKey written = key) (other : key ≠ "selected_count") :
    Operand.of scene written =
      ((scene.properties.get? key).bind ofJson?).elim (.error (.undefinedName key)) .ok := by
  simp only [Operand.of, literal, Option.bind_none, spelling, if_neg other]
  cases (scene.properties.get? key).bind ofJson? <;> rfl

/-- A name does not begin like a number or a text in quotes, nor does the path of the scene. -/
theorem value?_name {name : String} {before : List Char} (named : isIdentifier name.toList = true)
    (truthless : name ∉ ["True", "False"]) (start : before = [] ∨ before = path) :
    Literal.value? (String.ofList (before ++ name.toList)) = none := by
  have hsigns : ∀ c ∈ ['.', '+', '-', '"', '\''], isNameChar c = false :=
    forall_mem_of_all (by decide +kernel)
  have htrimmed : Trimmed name.toList := trimmed_of_isIdentifier named
  rcases start with rfl | rfl
  · obtain ⟨c, rest, hname, hchar, hdigit⟩ := head_of_isIdentifier named
    have htrim : trim name.toList = name.toList := htrimmed.trim_eq
    refine Literal.value?_of_head (htrim.trans hname) hdigit (fun hsign => ?_) fun word hword => ?_
    · rw [hsigns c hsign] at hchar
      cases hchar
    · rw [List.nil_append, htrim]
      exact fun heq => truthless (String.toList_inj.mp heq ▸ hword)
  · have htrim : trim (path ++ name.toList) = path ++ name.toList := by
      have hpath : Trimmed path := trimmed_of_solid (forall_mem_of_all (by decide +kernel))
      simpa using (hpath.append htrimmed (by decide) (ne_nil_of_isIdentifier named) []).trim_eq
    refine Literal.value?_of_head (c := 'b') htrim (by decide) (by decide) fun word hword => ?_
    have hhead : ∀ word ∈ ["True", "False"], word.toList.head? ≠ some 'b' := by decide
    rw [htrim]
    exact fun heq => hhead word hword (heq ▸ rfl)

/-- **An operand is read as what it is worth**, with any blanks around it. -/
theorem of_denotes (h : Denotes scene s value) {before after : List Char} (blank : Blank before)
    (blank' : Blank after) :
    Operand.of scene (String.ofList (before ++ s ++ after)) = .ok value := by
  have htrim := h.trimmed.trim_eq
  rw [of_congr ((h.trimmed.trim_padded blank blank').trans htrim.symm)]
  cases h with
  | numeral n finite =>
    obtain ⟨json, hliteral, hjson⟩ := Literal.value?_numeral n finite
    exact of_literal hliteral hjson
  | truth => exact of_literal (rfl : Literal.value? (String.ofList "True".toList) = _) rfl
  | falsehood => exact of_literal (rfl : Literal.value? (String.ofList "False".toList) = _) rfl
  | @quoted quote content kind closed =>
    have hkind : quote = '"' ∨ quote = '\'' := by simpa [quotes] using kind
    have hliteral : Literal.value? (String.ofList (quote :: content ++ [quote])) =
        some (.text (String.ofList content)) := by
      rw [Literal.value?_of_quote kind (by rw [htrim]; simp), htrim]
      simp [quoted?, hkind]
    exact of_literal hliteral rfl
  | selectedCount =>
    have hliteral : Literal.value? (String.ofList "selected_count".toList) = none := by
      decide +kernel
    have hkey : propertyKey (String.ofList "selected_count".toList) = "selected_count" := by
      decide +kernel
    rw [Operand.of, hliteral, hkey]
    rfl
  | property named free start there holds =>
    simp only [reserved, List.mem_cons, List.not_mem_nil, or_false, not_or] at free
    have hliteral := value?_name named (by simp [free]) start
    rw [of_name hliteral (propertyKey_name named start htrim) (by simpa using free.2.2),
      String.ofList_toList, there, Option.bind_some, holds, Option.elim_some]

/-! ## Half a text in quotes -/

/-- Only a name that is not defined makes an operand fail. -/
theorem undefinedName_of_error {written : String} {e : SceneError}
    (h : Operand.of scene written = .error e) : ∃ key, e = .undefinedName key := by
  unfold Operand.of at h
  split at h
  · cases h
  · dsimp only at h
    split at h
    · cases h
    · split at h
      · cases h
      · cases h
        exact ⟨_, rfl⟩

/-- No key of a property has a quote in it. -/
def KeysUnquoted (scene : Scene) : Prop :=
  ∀ key, (scene.properties.get? key).isSome = true → ∀ quote ∈ quotes, quote ∉ key.toList

theorem keysUnquoted_of_entries
    (entries : ∀ entry ∈ scene.properties.entries,
      '"' ∉ entry.1.toList ∧ '\'' ∉ entry.1.toList) : KeysUnquoted scene := by
  intro key found quote kind
  obtain ⟨json, hget⟩ := Option.isSome_iff_exists.mp found
  obtain ⟨front, behind, hentries, -⟩ := List.lookup_eq_some_iff.mp hget
  have hentry := entries (key, json) (by simp [hentries])
  simp only [quotes, List.mem_cons, List.not_mem_nil, or_false] at kind
  rcases kind with rfl | rfl
  · exact hentry.1
  · exact hentry.2

section Stray

variable {quote : Char} (kind : quote ∈ quotes) (keys : KeysUnquoted scene)

include kind keys

/-- A quote that does not belong to a pair makes an operand the name of nothing. -/
theorem of_stray (mem : quote ∈ trim s) (stray : quoted? (trim s) = none) :
    ∃ key, Operand.of scene (String.ofList s) = .error (.undefinedName key) := by
  have hliteral : Literal.value? (String.ofList s) = none := by
    rw [Literal.value?_of_quote kind mem, stray, Option.map_none]
  have hquote := quote_mem_propertyKey kind mem
  refine ⟨propertyKey (String.ofList s), ?_⟩
  rw [of_name hliteral rfl ?_]
  · cases hget : scene.properties.get? (propertyKey (String.ofList s)) with
    | none => rfl
    | some json => exact absurd hquote (keys _ (by rw [hget]; rfl) quote kind)
  · intro hcount
    have hfree : ∀ q ∈ quotes, q ∉ "selected_count".toList := forall_mem_of_all (by decide)
    exact hfree quote kind (hcount ▸ hquote)

/-- A quote that is opened and not closed. -/
theorem of_opened (unclosed : quote ∉ s) :
    ∃ key, Operand.of scene (String.ofList (quote :: s)) = .error (.undefinedName key) := by
  obtain ⟨kept, htrim, hkept⟩ := trim_cons (solid_of_quote quote kind).1 s
  refine of_stray kind keys (by simp [htrim]) ?_
  rw [htrim, quoted?, if_neg]
  rintro ⟨-, hlast⟩
  exact unclosed (hkept.subset (List.mem_of_mem_getLast? hlast))

/-- A quote that is closed and not opened. -/
theorem of_closed (unopened : quote ∉ s) :
    ∃ key, Operand.of scene (String.ofList (s ++ [quote])) = .error (.undefinedName key) := by
  obtain ⟨kept, htrim, hkept⟩ := trim_concat (solid_of_quote quote kind).1 s
  refine of_stray kind keys (by simp [htrim]) ?_
  rw [htrim]
  cases kept with
  | nil => simp [quoted?]
  | cons c rest =>
    rw [List.cons_append, quoted?, if_neg]
    rintro ⟨-, hlast⟩
    obtain rfl : quote = c := by simpa using hlast
    exact unopened (hkept.subset List.mem_cons_self)

end Stray

end Operand

end Replay
