import Replay.Proofs.Command.Contexts
import Replay.Proofs.Text.Bytes
import Replay.Proofs.Scene.Comparisons

/-!
# Reading texts by their bytes

Commands, argument lists, literals and conditions are read here as they lie in memory: offsets are
found by adding the lengths of pieces, by looking at single bytes and by leaving out a byte at each
end, and what stands between two offsets is cut out as a range of bytes. A range that is no part of
the text ends the reading. None ever is one, and what is read is the same as on characters.

* `Bytewise.parse`, `keywords`, `summary?`, `textArgument?`, `value?`, `satisfies` — the readings
* `Bytewise.splitPositional_eq`, `splitAssignment?_eq`, `insideQuotes?_eq`, `find?_eq` — what is cut
  at each kind of offset
* `Bytewise.slicing_never_fails` — every range that is cut out is part of its text
-/

set_option autoImplicit false

namespace Replay.Bytewise

open Text

/-! ## Argument lists -/

/-- The pieces of a text between commas. The piece that is being read begins at `start`, and what is
left of the text, at `offset`. -/
def piecesFrom (text : List Char) (start : Nat) :
    Nat → List Char → Except BadRange (List (List Char))
  | offset, [] => do
    let piece ← slice text start offset
    pure [piece]
  | offset, c :: rest =>
    if c = ',' then do
      let piece ← slice text start offset
      let pieces ← piecesFrom text (offset + c.utf8Size) (offset + c.utf8Size) rest
      pure (piece :: pieces)
    else piecesFrom text start (offset + c.utf8Size) rest

/-- The texts of the named arguments in an argument list. -/
def keywords (arguments : List Char) : Except BadRange (List (List Char)) := do
  let pieces ← piecesFrom arguments 0 0 arguments
  pure (Arguments.gather pieces).1

/-- Where the first of some pieces is that begins a named argument, counting a comma behind each
piece. -/
def namedOffset : List (List Char) → Nat
  | [] => 0
  | piece :: rest => if Arguments.beginsNamed piece then 0 else byteSize piece + 1 + namedOffset rest

/-- The text in front of the first named argument, and the text from there on. -/
def splitPositional (arguments : List Char) : Except BadRange (List Char × List Char) := do
  let pieces ← piecesFrom arguments 0 0 arguments
  let offset := min (namedOffset pieces) (byteSize arguments)
  let front ← slice arguments 0 offset
  let back ← slice arguments offset (byteSize arguments)
  pure (trimEnd (dropEndWhile (· == ',') (trim front)), back)

/-! ## Assignments -/

/-- Where the first equals sign is that is not part of a comparison; `before` is the byte in front of
the bytes. -/
def assignmentAt? (before : Option UInt8) : List UInt8 → Option Nat
  | [] => none
  | b :: rest =>
    if b = '='.toUInt8 ∧ before ≠ some '='.toUInt8 ∧ before ≠ some '!'.toUInt8 ∧
        before ≠ some '<'.toUInt8 ∧ before ≠ some '>'.toUInt8 ∧ rest.head? ≠ some '='.toUInt8 then
      some 0
    else (assignmentAt? (some b) rest).map (· + 1)

/-- Left and right side of the first equals sign that is not part of a comparison. -/
def splitAssignment? (text : List Char) : Except BadRange (Option (List Char × List Char)) :=
  match assignmentAt? none (bytes text) with
  | none => pure none
  | some i => do
    let left ← slice text 0 i
    let right ← slice text (i + 1) (byteSize text)
    pure (some (left, right))

/-! ## Quotes -/

/-- What stands between a pair of one of some quotes: all but the first and the last byte. -/
def insideQuotes? (text : List Char) : List Char → Except BadRange (Option (List Char))
  | [] => pure none
  | quote :: others =>
    if 2 ≤ byteSize text ∧ text.head? = some quote ∧ text.getLast? = some quote then do
      let inside ← slice text 1 (byteSize text - 1)
      pure (some inside)
    else insideQuotes? text others

/-- A trimmed text without the quotes around it, if it has any. -/
def unquote (text : List Char) : Except BadRange (List Char) := do
  let inside ← insideQuotes? (trim text) ['"', '\'']
  pure (inside.getD (trim text))

/-! ## Commands -/

/-- A call, read from a trimmed text. -/
def call? (text : List Char) : Except BadRange (Option Call) :=
  match afterStart? operatorStart text with
  | none => pure none
  | some rest =>
    match cut? '(' rest with
    | none => pure none
    | some (path, tail) =>
      match beforeEnd? [')'] (trimEnd tail), cutLast? '.' (trim path) with
      | some arguments, some (family, name) =>
        if family = [] ∨ name = [] then pure none
        else do
          let (positional, back) ← splitPositional arguments
          let named ← keywords back
          pure (some
            { family := String.ofList family
              name := String.ofList name
              positional := String.ofList positional
              named := named.filterMap Arguments.pair? })
      | _, _ => pure none

/-- What a command text says. -/
def parse (command : String) : Except BadRange Command := do
  let text := trim command.toList
  match ← call? text with
  | some c => pure (.call c)
  | none =>
    match afterStart? contextStart text with
    | none => pure (.expression (String.ofList text))
    | some rest =>
      match ← splitAssignment? rest with
      | some (left, right) =>
        pure (.assign ((splitAll '.' left).map fun step => String.ofList (trim step))
          (String.ofList (trim right)))
      | none => pure (.expression (String.ofList text))

/-- The value of an assignment as it is listed. -/
def summaryOfValue (value : List Char) : Except BadRange (List Char) :=
  match afterStart? dataStart value with
  | none => pure value
  | some _ => unquote (dropEndWhile (· == ']') (((splitAll '[' value).getLast?).getD value))

/-- A short name for a command. -/
def summary? (command : String) : Except BadRange (Option String) := do
  let text := trim command.toList
  match afterStart? operatorStart text with
  | some _ =>
    let c ← call? text
    pure (c.map Call.id)
  | none =>
    match afterStart? contextStart text with
    | none => pure none
    | some rest =>
      match ← splitAssignment? rest with
      | some (left, right) =>
        let value ← summaryOfValue (trim right)
        pure (some (String.ofList
          (((splitAll '.' (trim left)).getLast?).getD [] ++ " = ".toList ++ value)))
      | none =>
        let steps := splitAll '.' text
        pure (some (String.ofList (join ['.'] (steps.drop (steps.length - 2)))))

/-- The first argument of a name without the quotes around it. -/
def textArgument? (c : Call) (name : String) : Except BadRange (Option String) :=
  match c.argument? name with
  | none => pure none
  | some value => do
    let text ← unquote value.toList
    pure (some (String.ofList text))

/-! ## Conditions -/

/-- The value of a literal. -/
def value? (text : String) : Except BadRange (Option Json) :=
  let s := trim text.toList
  if s = "True".toList then pure (some (.bool true))
  else if s = "False".toList then pure (some (.bool false))
  else match integer? Word.leastInt Word.greatestInt s with
    | some i => pure (some (.int i))
    | none =>
      match float? s with
      | some x => pure (if x.isFinite then some (.float x) else none)
      | none => do
        let inside ← insideQuotes? s ['"', '\'']
        pure (inside.map fun inner => .text (String.ofList inner))

/-- The value of the operand written by a text. -/
def operand (scene : Scene) (written : String) : Except BadRange (Except SceneError Operand) := do
  let literal ← value? written
  match literal.bind Operand.ofJson? with
  | some operand => pure (.ok operand)
  | none =>
    let key := Scene.propertyKey written
    if key = "selected_count" then pure (.ok (.number (.ofInt scene.selected.length)))
    else match (scene.properties.get? key).bind Operand.ofJson? with
      | some operand => pure (.ok operand)
      | none => pure (.error (.undefinedName key))

/-- Where the first occurrence of a pattern begins. -/
def find? (pattern : List Char) : List Char → Option Nat
  | [] => if pattern = [] then some 0 else none
  | c :: rest =>
    if (afterStart? pattern (c :: rest)).isSome then some 0
    else (find? pattern rest).map (c.utf8Size + ·)

/-- Whether the first of some relations that occurs in a text holds between its two sides, or the
text as it is. -/
def firstHolds (scene : Scene) (text : List Char) :
    List Relation → Except BadRange (Except SceneError Bool)
  | [] => do
    let value ← operand scene (String.ofList text)
    pure (value.map Operand.truthy)
  | r :: others =>
    match find? r.sign.toList text with
    | none => firstHolds scene text others
    | some i => do
      let left ← slice text 0 i
      match ← operand scene (String.ofList left) with
      | .error e => pure (.error e)
      | .ok a => do
        let right ← slice text (i + byteSize r.sign.toList) (byteSize text)
        match ← operand scene (String.ofList right) with
        | .error e => pure (.error e)
        | .ok b => pure (r.holds a b)

/-- Whether a condition holds. -/
def satisfies (scene : Scene) (condition : String) : Except BadRange (Except SceneError Bool) :=
  let s := trim condition.toList
  if s = [] then pure (.error .emptyCondition) else firstHolds scene s Relation.all

/-! ## What is cut out -/

variable {text : List Char}

/-- The pieces between commas are cut out. -/
theorem piecesFrom_eq (before current rest : List Char) (free : ',' ∉ current) :
    piecesFrom (before ++ current ++ rest) (byteSize before) (byteSize (before ++ current)) rest =
      .ok (splitAll ',' (current ++ rest)) := by
  induction rest generalizing before current with
  | nil =>
    have hpiece := slice_append before current []
    rw [piecesFrom, hpiece, List.append_nil, splitAll_of_free free]
    rfl
  | cons c rest ih =>
    have hsize : byteSize (before ++ current ++ [c]) = byteSize (before ++ current) + c.utf8Size := by
      rw [byteSize_append, byteSize_cons, byteSize_nil, Nat.add_zero]
    rw [piecesFrom]
    split
    · rename_i hcomma
      have hrest := ih (before ++ current ++ [c]) [] List.not_mem_nil
      rw [List.append_nil, hsize, List.append_assoc, List.singleton_append] at hrest
      rw [slice_append, hrest, hcomma, splitAll_append, splitAll_of_free free]
      rfl
    · rename_i hother
      have hfree : ',' ∉ current ++ [c] := by simpa [free] using Ne.symm hother
      have hrest := ih before (current ++ [c]) hfree
      rw [← List.append_assoc, hsize, List.append_assoc (before ++ current),
        List.append_assoc current, List.singleton_append] at hrest
      exact hrest

theorem pieces_eq (text : List Char) : piecesFrom text 0 0 text = .ok (splitAll ',' text) :=
  piecesFrom_eq [] [] text List.not_mem_nil

theorem keywords_eq (arguments : List Char) :
    keywords arguments = .ok (Arguments.keywords arguments) := by
  rw [keywords, pieces_eq]
  rfl

/-! ### In front of the named arguments -/

section Positional

variable {loose : List (List Char)} {named : List Char} {more : List (List Char)}

/-- Pieces with a comma behind each of them, in front of other ones. -/
theorem join_behind (loose : List (List Char)) (piece : List Char) (more : List (List Char)) :
    join [','] (loose ++ piece :: more) = loose.flatMap (· ++ [',']) ++ join [','] (piece :: more) := by
  induction loose with
  | nil => rfl
  | cons first loose ih =>
    obtain ⟨next, others, hrest⟩ := List.exists_cons_of_ne_nil
      (show loose ++ piece :: more ≠ [] by simp)
    rw [List.cons_append, List.flatMap_cons, List.append_assoc, ← ih, hrest]
    simp [join]

theorem namedOffset_loose (none : ∀ p ∈ loose, Arguments.beginsNamed p = false)
    (rest : List (List Char)) :
    namedOffset (loose ++ rest) = byteSize (loose.flatMap (· ++ [','])) + namedOffset rest := by
  induction loose with
  | nil => simp
  | cons piece loose ih =>
    obtain ⟨hpiece, hloose⟩ := List.forall_mem_cons.mp none
    have hcomma : byteSize [','] = 1 := rfl
    rw [List.cons_append, namedOffset, hpiece, ih hloose, List.flatMap_cons, byteSize_append,
      byteSize_append, hcomma]
    simp [Nat.add_assoc]

/-- The pieces in front of the first one that begins a named argument. -/
theorem loose_or_named (pieces : List (List Char)) :
    (∀ p ∈ pieces, Arguments.beginsNamed p = false) ∨ ∃ loose named more,
      pieces = loose ++ named :: more ∧ (∀ p ∈ loose, Arguments.beginsNamed p = false) ∧
        Arguments.beginsNamed named = true := by
  induction pieces with
  | nil => exact .inl (List.forall_mem_nil _)
  | cons piece pieces ih =>
    cases hpiece : Arguments.beginsNamed piece with
    | true => exact .inr ⟨[], piece, pieces, rfl, List.forall_mem_nil _, hpiece⟩
    | false =>
      rcases ih with hnone | ⟨loose, named, more, rfl, hloose, hnamed⟩
      · exact .inl (List.forall_mem_cons.mpr ⟨hpiece, hnone⟩)
      · exact .inr ⟨piece :: loose, named, more, rfl, List.forall_mem_cons.mpr ⟨hpiece, hloose⟩,
          hnamed⟩

/-- If no piece begins a named argument, the end of the text is passed by the comma that the last
piece does not have behind it. -/
theorem byteSize_lt_namedOffset {pieces : List (List Char)} (some : pieces ≠ [])
    (none : ∀ p ∈ pieces, Arguments.beginsNamed p = false) :
    byteSize (join [','] pieces) < namedOffset pieces := by
  obtain ⟨front, last, rfl⟩ : ∃ front last, pieces = front ++ [last] :=
    ⟨_, _, (List.dropLast_append_getLast some).symm⟩
  have hoffset := namedOffset_loose none []
  rw [List.append_nil] at hoffset
  have hcomma : byteSize [','] = 1 := rfl
  rw [hoffset, join_behind, List.flatMap_append, List.flatMap_singleton, byteSize_append,
    byteSize_append, byteSize_append, hcomma, namedOffset]
  simp [join]

/-- Without named arguments, all of the text is in front of them. -/
theorem splitPositional_of_loose {arguments : List Char}
    (none : ∀ p ∈ splitAll ',' arguments, Arguments.beginsNamed p = false) :
    splitPositional arguments = .ok (Arguments.positional arguments, []) ∧
      Arguments.keywords [] = Arguments.keywords arguments := by
  have hall : (splitAll ',' arguments).takeWhile (fun p => !Arguments.beginsNamed p) =
      splitAll ',' arguments := List.takeWhile_eq_self_iff.mpr fun p hp => by simp [none p hp]
  have hjoin := join_splitAll ',' arguments
  have hoffset := byteSize_lt_namedOffset (splitAll_ne_nil ',' arguments) none
  rw [hjoin] at hoffset
  have hwhole := slice_front arguments []
  have hnothing := slice_back arguments []
  rw [List.append_nil] at hwhole hnothing
  constructor
  · rw [splitPositional, pieces_eq, Arguments.positional_eq, Arguments.front]
    simp only [bind, Except.bind, pure, Except.pure, Nat.min_eq_right hoffset.le, hwhole, hnothing,
      hall, Nat.lt_irrefl, if_false, hjoin]
  · have hgather := Arguments.gather_loose none []
    rw [List.append_nil] at hgather
    rw [Arguments.keywords, Arguments.keywords, hgather]
    rfl

/-- The text is cut in front of the first piece that begins a named argument. -/
theorem splitPositional_of_named {arguments : List Char}
    (pieces : splitAll ',' arguments = loose ++ named :: more)
    (none : ∀ p ∈ loose, Arguments.beginsNamed p = false)
    (begins : Arguments.beginsNamed named = true) :
    splitPositional arguments = .ok (Arguments.positional arguments, join [','] (named :: more)) ∧
      Arguments.keywords (join [','] (named :: more)) = Arguments.keywords arguments := by
  have hjoin := join_splitAll ',' arguments
  rw [pieces, join_behind] at hjoin
  have hoffset : namedOffset (loose ++ named :: more) =
      byteSize (loose.flatMap (· ++ [','])) := by
    rw [namedOffset_loose none, namedOffset, if_pos begins, Nat.add_zero]
  have hle : byteSize (loose.flatMap (· ++ [','])) ≤ byteSize arguments := by
    rw [← hjoin, byteSize_append]
    exact Nat.le_add_right _ _
  have hleading : (loose ++ named :: more).takeWhile (fun p => !Arguments.beginsNamed p) =
      loose := by
    rw [List.takeWhile_append_of_pos fun p hp => by simp [none p hp],
      List.takeWhile_cons_of_neg (by simp [begins]), List.append_nil]
  have hshort : loose.length < (loose ++ named :: more).length := by simp
  have hfront := slice_front (loose.flatMap (· ++ [','])) (join [','] (named :: more))
  have hback := slice_back (loose.flatMap (· ++ [','])) (join [','] (named :: more))
  rw [hjoin] at hfront hback
  constructor
  · have hbehind := join_behind loose [] []
    rw [splitPositional, pieces_eq, Arguments.positional_eq, Arguments.front, pieces]
    simp only [bind, Except.bind, pure, Except.pure, hoffset, Nat.min_eq_left hle, hfront, hback,
      hleading, hshort, if_true, hbehind]
    simp [join]
  · have hfree : ∀ p ∈ named :: more, ',' ∉ p := fun p hp =>
      free_of_mem_splitAll p (pieces ▸ List.mem_append_right _ hp)
    rw [Arguments.keywords, Arguments.keywords, pieces, Arguments.gather_loose none,
      splitAll_join (List.cons_ne_nil _ _) hfree]

/-- **Adding the lengths of the pieces leads to where the named arguments begin.** -/
theorem splitPositional_eq (arguments : List Char) : ∃ back,
    splitPositional arguments = .ok (Arguments.positional arguments, back) ∧
      Arguments.keywords back = Arguments.keywords arguments := by
  rcases loose_or_named (splitAll ',' arguments) with
    hnone | ⟨loose, named, more, hpieces, hnone, hbegins⟩
  · exact ⟨_, splitPositional_of_loose hnone⟩
  · exact ⟨_, splitPositional_of_named hpieces hnone hbegins⟩

end Positional

/-! ### Around the equals sign -/

/-- The byte in front of some bytes and the character in front of a text are the same mark of a
comparison, or both are none. -/
def Agrees (b : Option UInt8) (c : Option Char) : Prop :=
  ∀ mark ∈ Relation.marks, b = some mark.toUInt8 ↔ c = some mark

theorem ascii_of_mark : ∀ mark ∈ Relation.marks, mark.toNat < 128 :=
  forall_mem_of_all (by decide)

theorem agrees_none : Agrees none none := fun _ _ => by simp

/-- The last byte of a character is a mark if the character is. -/
theorem agrees_last (c : Char) (b : Option UInt8) :
    Agrees ((String.utf8EncodeChar c).getLast?.or b) (some c) := by
  intro mark hmark
  have hascii := ascii_of_mark mark hmark
  have hsome : (String.utf8EncodeChar c) ≠ [] := String.utf8EncodeChar_ne_nil
  rw [List.getLast?_eq_some_getLast hsome, Option.some_or, Option.some_inj, Option.some_inj]
  constructor
  · intro h
    exact eq_of_toUInt8_mem hascii (h ▸ List.getLast_mem hsome)
  · rintro rfl
    simp [utf8EncodeChar_ascii hascii]

/-- Bytes that are no equals signs are passed over. -/
theorem assignmentAt?_append {front : List UInt8} (back : List UInt8)
    (other : ∀ b ∈ front, b ≠ '='.toUInt8) (before : Option UInt8) :
    assignmentAt? before (front ++ back) =
      (assignmentAt? (front.getLast?.or before) back).map (front.length + ·) := by
  induction front generalizing before with
  | nil => simp
  | cons b front ih =>
    obtain ⟨hb, hfront⟩ := List.forall_mem_cons.mp other
    have hlast : front.getLast?.or (some b) = (some (front.getLast?.getD b)).or before := by
      cases front.getLast? <;> rfl
    rw [List.cons_append, assignmentAt?, if_neg fun h => hb h.1, ih hfront, Option.map_map,
      List.getLast?_cons, List.length_cons, hlast]
    refine Option.map_congr fun i _ => ?_
    simp only [Function.comp_apply]
    omega

theorem head?_bytes {mark : Char} (hmark : mark ∈ Relation.marks) (text : List Char) :
    (bytes text).head? = some mark.toUInt8 ↔ text.head? = some mark := by
  have hascii := ascii_of_mark mark hmark
  cases text with
  | nil => simp
  | cons c rest =>
    have hsome : String.utf8EncodeChar c ≠ [] := String.utf8EncodeChar_ne_nil
    rw [bytes_cons, List.head?_append_of_ne_nil _ hsome, List.head?_cons, Option.some_inj]
    constructor
    · intro h
      exact eq_of_toUInt8_mem hascii (List.mem_of_head? h)
    · rintro rfl
      rw [utf8EncodeChar_ascii hascii, List.head?_cons]

/-- **The equals sign of an assignment is found among the bytes** where it is among the characters.
-/
theorem assignmentAt?_bytes {b : Option UInt8} {c : Option Char} (agrees : Agrees b c)
    (text : List Char) :
    assignmentAt? b (bytes text) = (cutAssignment? c text).map fun sides => byteSize sides.1 := by
  induction text generalizing b c with
  | nil => rfl
  | cons d rest ih =>
    by_cases hequals : d = '='
    · subst hequals
      have hbyte : String.utf8EncodeChar '=' = ['='.toUInt8] := utf8EncodeChar_ascii (by decide)
      have hrest := ih (agrees_last '=' none)
      rw [hbyte] at hrest
      rw [bytes_cons, hbyte, List.singleton_append, assignmentAt?, cutAssignment?]
      simp only [ne_eq, agrees '=' (by decide), agrees '!' (by decide), agrees '<' (by decide),
        agrees '>' (by decide), @head?_bytes '=' (by decide), true_and]
      split
      · rfl
      · simp only [List.getLast?_singleton, Option.some_or] at hrest
        rw [hrest, Option.map_map, Option.map_map]
        refine Option.map_congr fun sides _ => ?_
        have hsize : ('=' : Char).utf8Size = 1 := rfl
        simp only [Function.comp_apply, byteSize_cons, hsize]
        omega
    · have hother : ∀ e ∈ String.utf8EncodeChar d, e ≠ '='.toUInt8 := fun e he h =>
        hequals (eq_of_toUInt8_mem (by decide) (h ▸ he))
      rw [bytes_cons, assignmentAt?_append _ hother, ih (agrees_last d b), cutAssignment?,
        if_neg fun h => hequals h.1, Option.map_map, Option.map_map]
      refine Option.map_congr fun sides _ => ?_
      simp only [Function.comp_apply, byteSize_cons, String.length_utf8EncodeChar]

theorem of_cutAssignment?_eq_some {before : Option Char} {text left right : List Char}
    (h : cutAssignment? before text = some (left, right)) : text = left ++ '=' :: right := by
  induction text generalizing before left with
  | nil => cases h
  | cons c rest ih =>
    rw [cutAssignment?] at h
    split at h
    · rename_i hequals
      cases h
      rw [hequals.1]
      rfl
    · obtain ⟨⟨left, right⟩, hrest, hsides⟩ := Option.map_eq_some_iff.mp h
      cases hsides
      rw [ih hrest]
      rfl

/-- A text is cut in front of its equals sign and behind it. -/
theorem splitAssignment?_eq (text : List Char) :
    splitAssignment? text = .ok (cutAssignment? none text) := by
  rw [splitAssignment?, assignmentAt?_bytes agrees_none]
  cases hcut : cutAssignment? none text with
  | none => rfl
  | some sides =>
    obtain ⟨left, right⟩ := sides
    have htext := of_cutAssignment?_eq_some hcut
    have hequals : byteSize (left ++ ['=']) = byteSize left + 1 := byteSize_append left ['=']
    have hleft := slice_front left ('=' :: right)
    have hright := slice_back (left ++ ['=']) right
    rw [List.append_assoc, List.singleton_append, hequals] at hright
    rw [← htext] at hleft hright
    simp only [Option.map_some, bind, Except.bind, pure, Except.pure, hleft, hright]

/-! ### Between quotes -/

theorem quoted?_eq_some_iff {text inner : List Char} :
    quoted? text = some inner ↔
      text = '"' :: (inner ++ ['"']) ∨ text = '\'' :: (inner ++ ['\'']) := by
  cases text with
  | nil => simp [quoted?]
  | cons q rest =>
    rw [quoted?]
    constructor
    · intro h
      split at h
      · rename_i hquote
        cases h
        have hrest := List.dropLast_append_getLast? q hquote.2
        rcases hquote.1 with rfl | rfl
        · exact .inl (by rw [hrest])
        · exact .inr (by rw [hrest])
      · cases h
    · rintro (h | h) <;> obtain ⟨rfl, rfl⟩ := List.cons.inj h <;> simp

/-- Between a quote of one byte and another one stands all but the first and the last byte. -/
theorem insideQuotes?_quoted {quote : Char} (ascii : quote.toNat < 128)
    (inner others : List Char) :
    insideQuotes? (quote :: (inner ++ [quote])) (quote :: others) = .ok (some inner) := by
  have hone := utf8Size_ascii ascii
  have hquote : byteSize [quote] = 1 := by rw [byteSize_cons, hone, byteSize_nil]
  have hsize : byteSize (quote :: (inner ++ [quote])) - 1 = byteSize ([quote] ++ inner) := by
    rw [byteSize_cons, byteSize_append, byteSize_append, hone, hquote]
    omega
  have hslice := slice_append [quote] inner [quote]
  rw [hquote, ← hsize, List.append_assoc, List.singleton_append] at hslice
  have hwide : 2 ≤ byteSize (quote :: (inner ++ [quote])) := by
    rw [byteSize_cons, byteSize_append, hone, hquote]
    omega
  have hlast : (quote :: (inner ++ [quote])).getLast? = some quote := by
    rw [← List.cons_append, List.getLast?_concat]
  rw [insideQuotes?, if_pos ⟨hwide, rfl, hlast⟩, hslice]
  rfl

/-- A quote alone, and a text that does not end with the quote that it begins with, are passed over.
-/
theorem insideQuotes?_other {quote : Char} (ascii : quote.toNat < 128) {text : List Char}
    (h : ∀ inner, text ≠ quote :: (inner ++ [quote])) (others : List Char) :
    insideQuotes? text (quote :: others) = insideQuotes? text others := by
  rw [insideQuotes?, if_neg ?_]
  rintro ⟨hsize, hhead, hlast⟩
  obtain ⟨rest, rfl⟩ := List.head?_eq_some_iff.mp hhead
  cases rest with
  | nil =>
    rw [byteSize_cons, utf8Size_ascii ascii, byteSize_nil] at hsize
    omega
  | cons c rest =>
    rw [List.getLast?_cons_cons] at hlast
    obtain ⟨inner, hinner⟩ := List.getLast?_eq_some_iff.mp hlast
    exact h inner (by rw [hinner])

theorem insideQuotes?_eq (text : List Char) :
    insideQuotes? text ['"', '\''] = .ok (quoted? text) := by
  cases hquoted : quoted? text with
  | some inner =>
    rcases quoted?_eq_some_iff.mp hquoted with rfl | rfl
    · exact insideQuotes?_quoted (by decide) inner _
    · rw [insideQuotes?_other (by decide) (by simp)]
      exact insideQuotes?_quoted (by decide) inner _
  | none =>
    have hnone (inner : List Char) : ¬(text = '"' :: (inner ++ ['"']) ∨
        text = '\'' :: (inner ++ ['\''])) := fun h => by
      rw [quoted?_eq_some_iff.mpr h] at hquoted
      cases hquoted
    rw [insideQuotes?_other (by decide) fun inner h => hnone inner (.inl h),
      insideQuotes?_other (by decide) fun inner h => hnone inner (.inr h)]
    rfl

theorem unquote_eq (text : List Char) : unquote text = .ok (Text.unquote text) := by
  rw [unquote, insideQuotes?_eq]
  rfl

/-! ### Around a relation -/

/-- The first occurrence of a pattern begins behind what is in front of it. -/
theorem find?_eq (pattern text : List Char) :
    find? pattern text = (cutAt? pattern text).map fun sides => byteSize sides.1 := by
  induction text with
  | nil =>
    rw [find?, cutAt?]
    split <;> rfl
  | cons c rest ih =>
    rw [find?, cutAt?, ih]
    cases afterStart? pattern (c :: rest) with
    | some after => rfl
    | none =>
      simp only [Option.isSome_none, Bool.false_eq_true, if_false, Option.map_map]
      rfl

/-! ### Whole readings -/

theorem call?_eq (text : List Char) : call? text = .ok (Call.parse? text) := by
  rw [call?, Call.parse?]
  cases afterStart? operatorStart text with
  | none => rfl
  | some rest =>
    dsimp only
    cases cut? '(' rest with
    | none => rfl
    | some sides =>
      obtain ⟨path, tail⟩ := sides
      dsimp only
      cases beforeEnd? [')'] (trimEnd tail) with
      | none => rfl
      | some arguments =>
        cases cutLast? '.' (trim path) with
        | none => rfl
        | some parts =>
          obtain ⟨back, hsplit, hback⟩ := splitPositional_eq arguments
          dsimp only
          split
          · rfl
          · rw [hsplit]
            simp only [bind, Except.bind, keywords_eq, hback, pure, Except.pure]

theorem parse_eq (command : String) : parse command = .ok (Command.parse command) := by
  rw [parse, Command.parse]
  simp only [bind, Except.bind, call?_eq]
  cases Call.parse? (trim command.toList) with
  | some c => rfl
  | none =>
    cases afterStart? contextStart (trim command.toList) with
    | none => rfl
    | some rest =>
      simp only [splitAssignment?_eq, Option.bind_some]
      cases cutAssignment? none rest <;> rfl

theorem summaryOfValue_eq (value : List Char) :
    summaryOfValue value = .ok (Command.summaryOfValue value) := by
  rw [summaryOfValue, Command.summaryOfValue]
  cases afterStart? dataStart value with
  | none => rfl
  | some rest => exact unquote_eq _

theorem summary?_eq (command : String) : summary? command = .ok (Command.summary? command) := by
  rw [summary?, Command.summary?]
  simp only [bind, Except.bind, call?_eq]
  cases afterStart? operatorStart (trim command.toList) with
  | some rest => rfl
  | none =>
    cases afterStart? contextStart (trim command.toList) with
    | none => rfl
    | some rest =>
      simp only [splitAssignment?_eq]
      cases cutAssignment? none rest with
      | none => rfl
      | some sides => simp only [summaryOfValue_eq]; rfl

theorem textArgument?_eq (c : Call) (name : String) :
    textArgument? c name = .ok (c.textArgument? name) := by
  rw [textArgument?, Call.textArgument?]
  cases c.argument? name with
  | none => rfl
  | some value =>
    simp only [unquote_eq]
    rfl

theorem value?_eq (text : String) : value? text = .ok (Literal.value? text) := by
  rw [value?, Literal.value?]
  split
  · rfl
  · split
    · rfl
    · cases integer? Word.leastInt Word.greatestInt (trim text.toList) with
      | some i => rfl
      | none =>
        cases float? (trim text.toList) with
        | some x => rfl
        | none =>
          simp only [insideQuotes?_eq]
          rfl

theorem operand_eq (scene : Scene) (written : String) :
    operand scene written = .ok (Operand.of scene written) := by
  rw [operand, Operand.of]
  simp only [bind, Except.bind, value?_eq]
  cases (Literal.value? written).bind Operand.ofJson? with
  | some value => rfl
  | none =>
    dsimp only
    split
    · rfl
    · cases (scene.properties.get? (Scene.propertyKey written)).bind Operand.ofJson? <;> rfl

/-- The text is cut in front of the first relation that occurs in it and behind it. -/
theorem firstHolds_eq (scene : Scene) (text : List Char) (rs : List Relation) :
    firstHolds scene text rs = .ok (match Relation.cutFirst? text rs with
      | some (r, left, right) =>
        match Operand.of scene (String.ofList left) with
        | .error e => .error e
        | .ok a =>
          match Operand.of scene (String.ofList right) with
          | .error e => .error e
          | .ok b => r.holds a b
      | none => (Operand.of scene (String.ofList text)).map Operand.truthy) := by
  induction rs with
  | nil =>
    rw [firstHolds, operand_eq]
    rfl
  | cons r others ih =>
    rw [firstHolds, find?_eq, Relation.cutFirst?]
    cases hcut : cutAt? r.sign.toList text with
    | none => exact ih
    | some sides =>
      obtain ⟨left, right⟩ := sides
      obtain ⟨htext, -⟩ := of_cutAt?_eq_some r.sign_ne_nil hcut
      have hleft := slice_front left (r.sign.toList ++ right)
      have hright := slice_back (left ++ r.sign.toList) right
      rw [← List.append_assoc, ← htext] at hleft
      rw [← htext, byteSize_append] at hright
      simp only [Option.map_some, bind, Except.bind, hleft, operand_eq]
      cases Operand.of scene (String.ofList left) with
      | error e => rfl
      | ok a =>
        simp only [hright]
        cases Operand.of scene (String.ofList right) <;> rfl

theorem satisfies_eq (scene : Scene) (condition : String) :
    satisfies scene condition = .ok (scene.satisfies condition) := by
  unfold satisfies Scene.satisfies
  dsimp only
  split
  · rfl
  · exact firstHolds_eq scene _ Relation.all

/-- **No range of bytes that is cut out of a text fails to be part of it.** What ends a reading are
the ranges that end before they start, or behind the text, or inside of a character; whatever text is
given as a command, an argument list, a literal or a condition, and whatever the scene is, reading it
by its bytes comes to its end, and to what the text says. -/
theorem slicing_never_fails :
    (∀ text start stop, (∃ piece, slice text start stop = .ok piece) ↔ InRange text start stop) ∧
    (∀ text start stop piece, slice text start stop = .ok piece →
      bytes piece = ((bytes text).drop start).take (stop - start)) ∧
    (∀ command, parse command = .ok (Command.parse command)) ∧
    (∀ arguments, keywords arguments = .ok (Arguments.keywords arguments)) ∧
    (∀ command, summary? command = .ok (Command.summary? command)) ∧
    (∀ c name, textArgument? c name = .ok (c.textArgument? name)) ∧
    (∀ text, value? text = .ok (Literal.value? text)) ∧
    ∀ scene condition, satisfies scene condition = .ok (scene.satisfies condition) := by
  refine ⟨fun text start stop => ?_, fun _ _ _ _ => bytes_of_slice, parse_eq, keywords_eq,
    summary?_eq, textArgument?_eq, value?_eq, satisfies_eq⟩
  rw [slice]
  split <;> simp_all

/-- An assignment in which the characters around the equals sign take two bytes each. -/
theorem accented_sliced :
    slice "é=ü".toList 0 2 = .ok ['é'] ∧ bytes ['é'] = [0xC3, 0xA9] ∧
      (¬∃ piece, slice "é=ü".toList 0 1 = .ok piece) ∧
      parse "bpy.context.é=ü" = .ok (.assign ["é"] "ü") := by
  obtain ⟨hrange, hbytes, hparse, -⟩ := slicing_never_fails
  have hslice : slice "é=ü".toList 0 2 = .ok ['é'] := by decide +kernel
  refine ⟨hslice, hbytes _ 0 2 _ hslice, fun h => ?_, ?_⟩
  · exact absurd ((hrange _ 0 1).mp h) (by decide +kernel)
  · rw [hparse]
    decide +kernel

end Replay.Bytewise
