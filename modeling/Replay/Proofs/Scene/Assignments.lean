import Replay.Scene.Stage
import Replay.Proofs.Scene.Comparisons
import Replay.Proofs.Scene.Properties

/-!
# Assignments

An assignment and a condition name the same property by the same path. The assignment's path is cut
at its points and joined again, the condition's is read as it stands; both come to the same key,
since the path has no start that only one of them would take off.

* `Literal.Writes` — the literals that can be assigned and compared
* `Command.parse_assignment` — the text of an assignment is read as one
* `Stage.assigned_holds` — after an assignment, the property is what has been assigned
-/

set_option autoImplicit false

namespace Replay

open Text Arguments

/-! ## Literals -/

/-- **A literal and what it is worth**: an integer of 64 bits, a finite decimal, a truth value, or a
text in quotes without parts of signs in it. -/
inductive Literal.Writes : List Char → Operand → Prop
  | integer (n : Numeral) (whole : n.isInteger = true)
      (range : Word.leastInt ≤ n.sign.apply (digitsValue n.whole) ∧
        n.sign.apply (digitsValue n.whole) ≤ Word.greatestInt) :
      Writes n.text (.number n.value)
  | decimal (n : Numeral) (finite : n.value.isFinite = true) : Writes n.text (.number n.value)
  | truth : Writes "True".toList (.bool true)
  | falsehood : Writes "False".toList (.bool false)
  | quoted {quote : Char} {content : List Char} (kind : quote ∈ quotes)
      (unmarked : ∀ c ∈ content, c ∉ Relation.marks) :
      Writes (quote :: content ++ [quote]) (.text (String.ofList content))

/-- An integer of 64 bits has a finite double. -/
theorem Numeral.isFinite_of_word {n : Numeral} (whole : n.isInteger = true)
    (range : Word.leastInt ≤ n.sign.apply (digitsValue n.whole) ∧
      n.sign.apply (digitsValue n.whole) ≤ Word.greatestInt) : n.value.isFinite = true := by
  have hleast : -(twoTo 64 : Int) ≤ Word.leastInt := by decide +kernel
  have hgreatest : Word.greatestInt ≤ (twoTo 64 : Int) := by decide +kernel
  rw [Numeral.value, if_pos whole]
  refine Binary64.ofInt_isFinite ?_
  generalize n.sign.apply (digitsValue n.whole) = i at range
  generalize twoTo 64 = bound at hleast hgreatest ⊢
  omega

namespace Literal.Writes

variable {s : List Char} {value : Operand}

/-- There are no parts of signs in a literal, and its ends are no blanks. -/
theorem unmarked_and_trimmed (h : Writes s value) :
    (∀ c ∈ s, c ∉ Relation.marks) ∧ s ≠ [] ∧ Trimmed s := by
  have hword : ∀ {s : List Char}, (∀ c ∈ s, Solid c) → s ≠ [] →
      (∀ c ∈ s, c ∉ Relation.marks) ∧ s ≠ [] ∧ Trimmed s := fun solid some =>
    ⟨fun c hc => (solid c hc).2, some, trimmed_of_solid fun c hc => (solid c hc).1⟩
  have hnumeral : ∀ n : Numeral,
      (∀ c ∈ n.text, c ∉ Relation.marks) ∧ n.text ≠ [] ∧ Trimmed n.text := fun n => by
    obtain ⟨c, rest, hbody, -⟩ := n.head_body
    have hsolid : ∀ c ∈ n.text, Solid c := fun c hc =>
      Numeral.solid_of_isNumeralChar (n.isNumeralChar_of_mem_text c hc)
    exact hword hsolid (by simp [Numeral.text, hbody])
  cases h with
  | integer n whole range => exact hnumeral n
  | decimal n finite => exact hnumeral n
  | truth => exact hword (forall_mem_of_all (by decide)) (by decide)
  | falsehood => exact hword (forall_mem_of_all (by decide)) (by decide)
  | @quoted quote content kind unmarked =>
    have hquote := solid_of_quote quote kind
    refine ⟨?_, by simp, trimmed_of_ends hquote.1 hquote.1 content⟩
    intro c hc
    simp only [List.cons_append, List.mem_cons, List.mem_append, List.not_mem_nil, or_false] at hc
    rcases hc with rfl | hc | rfl
    · exact hquote.2
    · exact unmarked c hc
    · exact hquote.2

/-- A literal is read as what it is worth. -/
theorem value? (h : Writes s value) : ∃ json, Literal.value? (String.ofList s) = some json ∧
    Operand.ofJson? json = some value := by
  have htrim := h.unmarked_and_trimmed.2.2.trim_eq
  cases h with
  | integer n whole range => exact value?_numeral n (Numeral.isFinite_of_word whole range)
  | decimal n finite => exact value?_numeral n finite
  | truth => exact ⟨.bool true, rfl, rfl⟩
  | falsehood => exact ⟨.bool false, rfl, rfl⟩
  | @quoted quote content kind unmarked =>
    have hkind : quote = '"' ∨ quote = '\'' := by simpa [quotes] using kind
    refine ⟨.text (String.ofList content), ?_, rfl⟩
    rw [value?_of_quote kind (by rw [htrim]; simp), htrim]
    simp [quoted?, hkind]

/-- What a literal is worth is equal to itself. -/
theorem compare?_self (h : Writes s value) : value.compare? value = some .eq := by
  have hnumber : ∀ x : Binary64, x.isFinite = true → x.compare? x = some .eq := by
    intro x hx
    cases x with
    | nan => cases hx
    | infinite _ => cases hx
    | finite => exact congrArg some (compare_eq_iff_eq.mpr rfl)
  cases h with
  | integer n whole range => exact hnumber _ (Numeral.isFinite_of_word whole range)
  | decimal n finite => exact hnumber _ finite
  | truth => exact hnumber (.ofInt 1) (by decide +kernel)
  | falsehood => exact hnumber (.ofInt 0) (by decide +kernel)
  | quoted kind unmarked => exact congrArg some (compare_eq_iff_eq.mpr rfl)

end Literal.Writes

/-! ## Paths -/

/-- The text of a path, with a point between two steps. -/
def dotted (path : List String) : List Char := join ['.'] (path.map String.toList)

/-- A path of names, at least one of them. -/
structure Named (path : List String) : Prop where
  some : path ≠ []
  names : ∀ step ∈ path, isIdentifier step.toList = true

namespace Named

variable {path : List String}

theorem pieces (h : Named path) : ∀ piece ∈ path.map String.toList, isIdentifier piece = true := by
  intro piece hpiece
  obtain ⟨step, hstep, rfl⟩ := List.mem_map.mp hpiece
  exact h.names step hstep

theorem solid (h : Named path) : ∀ c ∈ dotted path, Solid c := by
  intro c hc
  rcases mem_join hc with rfl | ⟨piece, hpiece, hmem⟩
  · decide
  · exact solid_of_isNameChar (isNameChar_of_isIdentifier (h.pieces piece hpiece) c hmem)

theorem ne_nil (h : Named path) : dotted path ≠ [] := by
  obtain ⟨step, rest, rfl⟩ := List.exists_cons_of_ne_nil h.some
  have hstep := ne_nil_of_isIdentifier (h.names step List.mem_cons_self)
  cases rest with
  | nil => exact hstep
  | cons next rest =>
    simp only [dotted, List.map_cons, join]
    simp [hstep]

theorem trimmed (h : Named path) : Trimmed (dotted path) :=
  trimmed_of_solid fun c hc => (h.solid c hc).1

theorem context_solid (h : Named path) : ∀ c ∈ contextStart ++ dotted path, Solid c := by
  have hstart : ∀ c ∈ contextStart, Solid c := forall_mem_of_all (by decide)
  exact List.forall_mem_append.mpr ⟨hstart, h.solid⟩

theorem context_trimmed (h : Named path) : Trimmed (contextStart ++ dotted path) :=
  trimmed_of_solid fun c hc => (h.context_solid c hc).1

theorem context_ne_nil (h : Named path) : contextStart ++ dotted path ≠ [] :=
  List.append_ne_nil_of_right_ne_nil contextStart h.ne_nil

/-- The pieces of a text of names are these names, blanks behind the last one or not. -/
theorem map_trim_splitAll {pad : List Char} (blank : Blank pad) {pieces : List (List Char)}
    (some : pieces ≠ []) (names : ∀ piece ∈ pieces, isIdentifier piece = true) :
    (splitAll '.' (join ['.'] pieces ++ pad)).map trim = pieces := by
  have hpad : '.' ∉ pad := sign_not_mem_of_blank blank (by decide)
  induction pieces with
  | nil => exact absurd rfl some
  | cons piece pieces ih =>
    obtain ⟨hpiece, hpieces⟩ := List.forall_mem_cons.mp names
    have hfree : '.' ∉ piece := sign_not_mem hpiece (by decide)
    have htrimmed : Trimmed piece := trimmed_of_isIdentifier hpiece
    cases pieces with
    | nil =>
      have hnone : Blank [] := nofun
      rw [join, splitAll_of_free fun hc => (List.mem_append.mp hc).elim hfree hpad]
      exact congrArg (fun s => [s]) (htrimmed.trim_padded hnone blank)
    | cons next pieces =>
      have hjoin : join ['.'] (piece :: next :: pieces) ++ pad =
          piece ++ '.' :: (join ['.'] (next :: pieces) ++ pad) := by simp [join]
      rw [hjoin, splitAll_append, splitAll_of_free hfree, List.map_append,
        ih (List.cons_ne_nil _ _) hpieces, List.map_singleton, htrimmed.trim_eq]
      rfl

/-- **The steps of a path are found in its text**, blanks behind it or not. -/
theorem steps (h : Named path) {pad : List Char} (blank : Blank pad) :
    (splitAll '.' (dotted path ++ pad)).map (fun step => String.ofList (trim step)) = path := by
  have hsome : path.map String.toList ≠ [] := fun hnil => h.some (List.map_eq_nil_iff.mp hnil)
  have hpieces := map_trim_splitAll blank hsome h.pieces
  calc (splitAll '.' (dotted path ++ pad)).map (fun step => String.ofList (trim step))
      = ((splitAll '.' (dotted path ++ pad)).map trim).map String.ofList := by
        rw [List.map_map]
        rfl
    _ = (path.map String.toList).map String.ofList := by rw [dotted, hpieces]
    _ = path := by simp

/-- **A path means the same key in an assignment and in a condition**, if it has no start of its own
that is taken off. -/
theorem propertyKey_context (h : Named path) (start : ¬contextStart <+: dotted path) :
    Scene.propertyKey (String.ofList (contextStart ++ dotted path)) =
      Scene.propertyKey (String.ofList (dotted path)) := by
  have hwithout : Scene.withoutStart contextStart (dotted path) = dotted path := by
    rw [Scene.withoutStart, afterStart?_eq_none_iff.mpr start, Option.getD_none]
  rw [Scene.propertyKey_eq, Scene.propertyKey_eq, h.context_trimmed.trim_eq, h.trimmed.trim_eq,
    Scene.withoutStart_append, hwithout]

end Named

/-! ## The text of an assignment -/

namespace Command

/-- The text of an assignment, with anything around its parts. -/
def assignment (left right p₀ p₁ p₂ p₃ : List Char) : String :=
  String.ofList (p₀ ++ left ++ p₁ ++ '=' :: p₂ ++ right ++ p₃)

/-- An equals sign behind a text without parts of signs is the one of an assignment, unless another
one follows. -/
theorem cutAssignment?_append {a b : List Char} (unmarked : ∀ c ∈ a, c ∉ Relation.marks)
    (alone : b.head? ≠ some '=') :
    ∀ {before : Option Char}, (∀ c, before = some c → c ∉ Relation.marks) →
      cutAssignment? before (a ++ '=' :: b) = some (a, b) := by
  induction a with
  | nil =>
    intro before hbefore
    have hne : ∀ c ∈ Relation.marks, before ≠ some c := fun c hc heq => hbefore c heq hc
    simp only [Relation.marks, List.mem_cons, List.not_mem_nil, or_false, forall_eq_or_imp,
      forall_eq] at hne
    obtain ⟨hless, hgreater, hequal, hnot⟩ := hne
    exact if_pos ⟨rfl, hequal, hnot, hless, hgreater, alone⟩
  | cons c rest ih =>
    intro before _
    obtain ⟨hc, hrest⟩ := List.forall_mem_cons.mp unmarked
    have hequal : c ≠ '=' := by
      rintro rfl
      exact hc (by decide)
    have hcut : cutAssignment? (some c) (rest ++ '=' :: b) = some (rest, b) :=
      ih hrest fun d hd => Option.some.inj hd ▸ hc
    rw [List.cons_append, cutAssignment?, if_neg fun h => hequal h.1, hcut]
    rfl

/-- A path of the context is no path of an operator. -/
theorem afterStart?_operatorStart (rest : List Char) :
    afterStart? operatorStart (contextStart ++ rest) = none := by
  have hother : ¬operatorStart <+: contextStart := by decide
  refine afterStart?_eq_none_iff.mpr fun hstart => hother ?_
  exact List.prefix_of_prefix_length_le hstart (List.prefix_append contextStart rest) (by decide)

variable {path : List String} {literal : List Char} {value : Operand} {p₀ p₁ p₂ p₃ : List Char}

/-- **The text of an assignment is read as one**, with the steps of its path and the literal. -/
theorem parse_assignment (named : Named path) (writes : Literal.Writes literal value)
    (blank : Blank (p₀ ++ p₁ ++ p₂ ++ p₃)) :
    parse (assignment (contextStart ++ dotted path) literal p₀ p₁ p₂ p₃) =
      .assign path (String.ofList literal) := by
  simp only [Blank, List.forall_mem_append] at blank
  obtain ⟨⟨⟨hp₀, hp₁⟩, hp₂⟩, hp₃⟩ := blank
  obtain ⟨hunmarked, hne, htrimmed⟩ := writes.unmarked_and_trimmed
  have hblank : ∀ {pad : List Char}, Blank pad → ∀ c ∈ pad, c ∉ Relation.marks := by
    intro pad hpad c hc hmark
    have hmarks : ∀ d ∈ Relation.marks, isBlank d = false := forall_mem_of_all (by decide)
    have hblank := hpad c hc
    rw [hmarks c hmark] at hblank
    cases hblank
  have htext : trim (assignment (contextStart ++ dotted path) literal p₀ p₁ p₂ p₃).toList =
      contextStart ++ (dotted path ++ p₁ ++ '=' :: (p₂ ++ literal)) := by
    have hwhole := named.context_trimmed.append htrimmed named.context_ne_nil hne
      (p₁ ++ '=' :: p₂)
    have hparts : p₀ ++ (contextStart ++ dotted path) ++ p₁ ++ '=' :: p₂ ++ literal ++ p₃ =
        p₀ ++ (contextStart ++ dotted path ++ (p₁ ++ '=' :: p₂) ++ literal) ++ p₃ := by
      simp only [List.append_assoc, List.cons_append]
    rw [assignment, String.toList_ofList, hparts, hwhole.trim_padded hp₀ hp₃]
    simp only [List.append_assoc, List.cons_append]
  have hcall : Call.parse? (contextStart ++ (dotted path ++ p₁ ++ '=' :: (p₂ ++ literal))) =
      none := by
    rw [Call.parse?, afterStart?_operatorStart]
  have hleft : ∀ c ∈ dotted path ++ p₁, c ∉ Relation.marks :=
    List.forall_mem_append.mpr ⟨fun c hc => (named.solid c hc).2, hblank hp₁⟩
  have hright : ∀ c ∈ p₂ ++ literal, c ∉ Relation.marks :=
    List.forall_mem_append.mpr ⟨hblank hp₂, hunmarked⟩
  have hcut : cutAssignment? none (dotted path ++ p₁ ++ '=' :: (p₂ ++ literal)) =
      some (dotted path ++ p₁, p₂ ++ literal) :=
    cutAssignment?_append hleft
      (fun hhead => hright '=' (List.mem_of_mem_head? hhead) (by decide)) (by rintro _ ⟨⟩)
  simp only [parse, htext, hcall, afterStart?_append, Option.bind_some, hcut, named.steps hp₁,
    htrimmed.trim_behind hp₂]

end Command

/-! ## Conditions after an assignment -/

/-- What is free of parts of signs hides none. -/
theorem Relation.shown_of_unmarked (r : Relation) {left right : List Char}
    (unmarked : ∀ c ∈ left, c ∉ marks) (unmarked' : ∀ c ∈ right, c ∉ marks) :
    ¬r.HiddenBy left right := by
  have hnone : ∀ (o : Relation) {s : List Char}, (∀ c ∈ s, c ∉ marks) → ¬o.sign.toList <:+: s :=
    fun o s hs => not_infix_of_foreign o.sign_ne_nil
      fun c hc hsign => hs c hc (o.mem_marks_of_mem_sign c hsign)
  rintro (⟨o, -, hleft | hright⟩ | hleft)
  · exact hnone o unmarked hleft
  · exact hnone o unmarked' hright
  · exact hnone r unmarked hleft

section

variable {path : List String} {literal : List Char} {value : Operand} {json : Json}
  {p₀ p₁ p₂ p₃ : List Char}

/-- The path of a property is worth what is stored. -/
theorem Operand.of_path {scene : Scene} (named : Named path) (start : ¬contextStart <+: dotted path)
    (other : Scene.propertyKey (String.ofList (dotted path)) ≠ "selected_count")
    (there : scene.properties.get? (Scene.propertyKey (String.ofList (dotted path))) = some json)
    (holds : ofJson? json = some value) {pad : List Char} (blank : Blank pad) :
    Operand.of scene (String.ofList (contextStart ++ dotted path ++ pad)) = .ok value := by
  have htrimmed := named.context_trimmed
  have hnone : Blank [] := nofun
  have htrim : trim (contextStart ++ dotted path ++ pad) = trim (contextStart ++ dotted path) :=
    (htrimmed.trim_padded hnone blank).trans htrimmed.trim_eq.symm
  have hliteral : Literal.value? (String.ofList (contextStart ++ dotted path)) = none := by
    have hhead : ∀ word ∈ ["True", "False"], word.toList.head? ≠ some 'b' := by decide
    refine Literal.value?_of_head (c := 'b') htrimmed.trim_eq (by decide) (by decide) ?_
    intro word hword heq
    rw [htrimmed.trim_eq] at heq
    exact hhead word hword (heq ▸ rfl)
  rw [of_congr htrim, of_name hliteral (named.propertyKey_context start) other, there,
    Option.bind_some, holds, Option.elim_some]

/-- **A property is equal to the literal that it was set to.** -/
theorem Scene.satisfies_of_assigned {scene : Scene} (named : Named path)
    (start : ¬contextStart <+: dotted path)
    (other : propertyKey (String.ofList (dotted path)) ≠ "selected_count")
    (writes : Literal.Writes literal value)
    (literally : Literal.value? (String.ofList literal) = some json)
    (holds : Operand.ofJson? json = some value)
    (there : scene.properties.get? (propertyKey (String.ofList (dotted path))) = some json)
    (r : Relation) (blank : Blank (p₀ ++ p₁ ++ p₂ ++ p₃)) :
    scene.satisfies (r.text (contextStart ++ dotted path) literal p₀ p₁ p₂ p₃) =
      .ok (r.accepts .eq) := by
  simp only [Blank, List.forall_mem_append] at blank
  obtain ⟨⟨⟨hp₀, hp₁⟩, hp₂⟩, hp₃⟩ := blank
  obtain ⟨hunmarked, hne, htrimmed⟩ := writes.unmarked_and_trimmed
  have hpath := named.context_solid
  have htext : trim (r.text (contextStart ++ dotted path) literal p₀ p₁ p₂ p₃).toList =
      contextStart ++ dotted path ++ r.between p₁ p₂ ++ literal := by
    have hwhole := named.context_trimmed.append htrimmed named.context_ne_nil hne
      (r.between p₁ p₂)
    rw [← hwhole.trim_padded hp₀ hp₃, Relation.text, String.toList_ofList, Relation.between]
    simp only [List.append_assoc]
  have hcut := Relation.cutFirst?_of_shown hp₁ hp₂
    (fun c hc => hpath c (List.mem_of_mem_getLast? hc))
    (fun c hc => ⟨htrimmed.first c hc, hunmarked c (List.mem_of_mem_head? hc)⟩)
    (r.shown_of_unmarked (fun c hc => (hpath c hc).2) hunmarked)
  have hright : trim (p₂ ++ literal) = trim literal :=
    (htrimmed.trim_behind hp₂).trans htrimmed.trim_eq.symm
  have hsome : contextStart ++ dotted path ++ r.between p₁ p₂ ++ literal ≠ [] :=
    List.append_ne_nil_of_right_ne_nil _ hne
  rw [satisfies_of_cut htext hsome hcut,
    Operand.of_path named start other there holds hp₁, Operand.of_congr hright,
    Operand.of_literal literally holds]
  show r.verdict value value = _
  rw [← r.holds_eq_verdict, r.holds_eq, writes.compare?_self]
  rfl

/-- **After an assignment, the property is what has been assigned.** Whatever the stage, a command
that assigns a literal to a path succeeds; then the condition that the property is equal to the
literal holds and its opposite does not, and no property of another key has changed. The path must
not have a start of its own that a condition takes off, and must not mean the size of the
selection. -/
theorem Stage.assigned_holds (st : Stage) (named : Named path)
    (start : ¬contextStart <+: dotted path)
    (other : Scene.propertyKey (String.ofList (dotted path)) ≠ "selected_count")
    (writes : Literal.Writes literal value) (blank : Blank (p₀ ++ p₁ ++ p₂ ++ p₃)) (mode : CallMode)
    (surface : Surface) :
    ∃ st', host.invoke st (.ofText (Command.assignment (contextStart ++ dotted path) literal
        p₀ p₁ p₂ p₃) mode) surface = (.ok (), st') ∧
      host.evaluate st' (Relation.equal.text (contextStart ++ dotted path) literal p₀ p₁ p₂ p₃) =
        (.ok true, st') ∧
      host.evaluate st' (Relation.unequal.text (contextStart ++ dotted path) literal p₀ p₁ p₂ p₃) =
        (.ok false, st') ∧
      ∀ key, key ≠ Scene.propertyKey (String.ofList (dotted path)) →
        st'.scene.properties.get? key = st.scene.properties.get? key := by
  obtain ⟨json, hliteral, hjson⟩ := writes.value?
  have hcommand := Command.parse_assignment named writes blank
  generalize hi : Invocation.ofText (Command.assignment (contextStart ++ dotted path) literal
    p₀ p₁ p₂ p₃) mode = i
  have hperform : st.perform i.command surface =
      (.ok (), st.scene.setProperty (String.ofList (dotted path)) json) := by
    rw [← hi, Invocation.ofText, hcommand, perform, hliteral, dotted]
  have hthere : (st.scene.setProperty (String.ofList (dotted path)) json).properties.get?
      (Scene.propertyKey (String.ofList (dotted path))) = some json :=
    st.scene.property?_setProperty json rfl
  have hothers : ∀ key, key ≠ Scene.propertyKey (String.ofList (dotted path)) →
      (st.scene.setProperty (String.ofList (dotted path)) json).properties.get? key =
        st.scene.properties.get? key := fun key => st.scene.get?_setProperty_of_ne json
  generalize st.scene.setProperty (String.ofList (dotted path)) json = scene at *
  have hholds : ∀ r : Relation,
      scene.satisfies (r.text (contextStart ++ dotted path) literal p₀ p₁ p₂ p₃) =
        .ok (r.accepts .eq) := fun r =>
    scene.satisfies_of_assigned named start other writes hliteral hjson hthere r blank
  refine ⟨{ st with
    scene := scene
    journal := st.journal ++ [entryFor scene i surface] }, ?_, ?_, ?_, hothers⟩
  · show worded (st.invoke i surface) = _
    rw [invoke, hperform]
    rfl
  · show worded (scene.satisfies _, _) = _
    rw [hholds]
    rfl
  · show worded (scene.satisfies _, _) = _
    rw [hholds]
    rfl

end

theorem engine_assigned : ∃ st',
    Stage.host.invoke (.ofScene .blank)
        (.ofText "bpy.context.scene.render.engine = 'CYCLES'" .execute) .nowhere = (.ok (), st') ∧
      Stage.host.evaluate st' "bpy.context.scene.render.engine == 'CYCLES'" = (.ok true, st') ∧
      Stage.host.evaluate st' "bpy.context.scene.render.engine != 'CYCLES'" = (.ok false, st') ∧
      ∀ key, key ≠ "render.engine" → st'.scene.properties.get? key = none := by
  have hnamed : Named ["scene", "render", "engine"] := ⟨by decide, by decide +kernel⟩
  have hstart : ¬contextStart <+: dotted ["scene", "render", "engine"] := by decide +kernel
  have hkey : Scene.propertyKey (String.ofList (dotted ["scene", "render", "engine"])) =
      "render.engine" := by decide +kernel
  have hwrites : Literal.Writes (inQuotes "CYCLES") (.text (String.ofList "CYCLES".toList)) :=
    .quoted (by decide) (forall_mem_of_all (by decide))
  have hblank : Blank ([] ++ [' '] ++ [' '] ++ []) := by decide
  have htext : Command.assignment (contextStart ++ dotted ["scene", "render", "engine"])
      (inQuotes "CYCLES") [] [' '] [' '] [] = "bpy.context.scene.render.engine = 'CYCLES'" := by
    decide +kernel
  have hequal : Relation.equal.text (contextStart ++ dotted ["scene", "render", "engine"])
      (inQuotes "CYCLES") [] [' '] [' '] [] = "bpy.context.scene.render.engine == 'CYCLES'" := by
    decide +kernel
  have hunequal : Relation.unequal.text (contextStart ++ dotted ["scene", "render", "engine"])
      (inQuotes "CYCLES") [] [' '] [' '] [] = "bpy.context.scene.render.engine != 'CYCLES'" := by
    decide +kernel
  have hother : Scene.propertyKey (String.ofList (dotted ["scene", "render", "engine"])) ≠
      "selected_count" := by
    rw [hkey]
    decide
  have hassigned := Stage.assigned_holds (.ofScene .blank) hnamed hstart hother hwrites hblank
    .execute .nowhere
  rwa [htext, hequal, hunequal, hkey] at hassigned

end Replay
