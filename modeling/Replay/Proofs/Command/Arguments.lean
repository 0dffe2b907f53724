import Replay.Proofs.Command.Names

/-!
# Arguments that survive

The arguments of a call are cut at every comma and put together again by what looks like the
beginning of a named argument; brackets and quotes are not looked at. So a value comes through
unless one of its commas has something behind it that looks like a name with an equals sign. In a
value of the scripting language that can only be inside a string.

* `Arguments.Splits` — there is a comma in a text, with a name and an equals sign behind it
* `Arguments.Writes` — values as they are written, and the strings in them
* `Arguments.Writes.splits_iff` — a value splits if a string in it does
* `Arguments.Tidy` — named arguments that are cut into key and value just where they were put together
* `Keyword`, `Call.keywordText` — calls with named arguments
* `Command.arguments_survive_iff` — they come through just if no string in them splits
-/

set_option autoImplicit false

namespace Replay

open Text

namespace Arguments

/-! ## What splits -/

/-- **A text splits**: behind one of its commas there is a name, and behind the name an equals
sign. -/
def Splits (s : List Char) : Prop :=
  ∃ before name behind, s = before ++ ',' :: (name ++ '=' :: behind) ∧
    isIdentifier (trim name) = true

/-- A named argument begins with a name and an equals sign. -/
theorem beginsNamed_iff {s : List Char} : beginsNamed s = true ↔
    ∃ name behind, s = name ++ '=' :: behind ∧ isIdentifier (trim name) = true := by
  constructor
  · intro h
    unfold beginsNamed at h
    split at h
    · rename_i name behind hcut
      exact ⟨name, behind, (of_cut?_eq_some hcut).1, h⟩
    · cases h
  · rintro ⟨name, behind, rfl, hname⟩
    have hfree : '=' ∉ name := sign_not_mem_of_trim hname (by decide)
    simp only [beginsNamed, cut?_append hfree, hname]

/-- Only the first piece of a text matters to whether it begins a named argument. -/
theorem beginsNamed_piece {s piece : List Char} {pieces : List (List Char)}
    (h : splitAll ',' s = piece :: pieces) : beginsNamed piece = beginsNamed s := by
  rw [Bool.eq_iff_iff, beginsNamed_iff, beginsNamed_iff]
  constructor
  · rintro ⟨name, behind, rfl, hname⟩
    obtain ⟨more, rfl⟩ := splitAll_prefix h
    exact ⟨name, behind ++ more, by simp, hname⟩
  · rintro ⟨name, behind, rfl, hname⟩
    have hfree : ',' ∉ name ++ ['='] := by
      have hcomma : ',' ∉ name := sign_not_mem_of_trim hname (by decide)
      simp [hcomma]
    obtain ⟨piece', pieces', hbehind⟩ :=
      List.exists_cons_of_ne_nil (splitAll_ne_nil ',' behind)
    have hsplit := splitAll_prepend hfree hbehind
    rw [List.append_assoc, List.singleton_append, h] at hsplit
    obtain ⟨rfl, -⟩ := List.cons.inj hsplit
    exact ⟨name, piece', by simp, hname⟩

/-- What splits a text stands behind its first comma or further behind. -/
theorem splits_append_iff {a b : List Char} (free : ',' ∉ a) :
    Splits (a ++ ',' :: b) ↔ beginsNamed b = true ∨ Splits b := by
  rw [beginsNamed_iff]
  constructor
  · rintro ⟨before, name, behind, heq, hname⟩
    obtain ⟨between, rfl, hrest⟩ | ⟨between, rfl, hrest⟩ := List.append_eq_append_iff.mp heq
    · cases between with
      | nil => exact .inl ⟨name, behind, (List.cons.inj hrest).2, hname⟩
      | cons c between =>
        exact .inr ⟨between, name, behind, (List.cons.inj hrest).2, hname⟩
    · cases between with
      | nil => exact .inl ⟨name, behind, (List.cons.inj hrest).2.symm, hname⟩
      | cons c between =>
        obtain rfl := (List.cons.inj hrest).1
        simp at free
  · rintro (⟨name, behind, rfl, hname⟩ | ⟨before, name, behind, rfl, hname⟩)
    · exact ⟨a, name, behind, rfl, hname⟩
    · exact ⟨a ++ ',' :: before, name, behind, by simp, hname⟩

theorem not_splits_nil : ¬Splits [] := by
  rintro ⟨before, name, behind, heq, -⟩
  simp at heq

theorem splits_comma_iff {s : List Char} : Splits (',' :: s) ↔ beginsNamed s = true ∨ Splits s :=
  splits_append_iff List.not_mem_nil

theorem splits_cons_iff {c : Char} (hc : c ≠ ',') {s : List Char} : Splits (c :: s) ↔ Splits s := by
  constructor
  · rintro ⟨before, name, behind, heq, hname⟩
    cases before with
    | nil => exact absurd (List.cons.inj heq).1 hc
    | cons d before => exact ⟨before, name, behind, (List.cons.inj heq).2, hname⟩
  · rintro ⟨before, name, behind, rfl, hname⟩
    exact ⟨c :: before, name, behind, rfl, hname⟩

section Quotes

variable {quote : Char} {a b : List Char}

theorem ne_comma_of_quote (hquote : quote ∈ quotes) : quote ≠ ',' := by
  rintro rfl
  simp [quotes] at hquote

/-- What begins a named argument does so in front of the first quote. -/
theorem beginsNamed_append_quote (hquote : quote ∈ quotes) :
    beginsNamed (a ++ quote :: b) = beginsNamed a := by
  rw [Bool.eq_iff_iff, beginsNamed_iff, beginsNamed_iff]
  have hequals : quote ≠ '=' := by
    rintro rfl
    simp [quotes] at hquote
  constructor
  · rintro ⟨name, behind, heq, hname⟩
    have hfree : quote ∉ name := sign_not_mem_of_trim hname (mem_signs_of_quote hquote)
    obtain ⟨between, rfl, hrest⟩ | ⟨between, rfl, hrest⟩ := List.append_eq_append_iff.mp heq
    · cases between with
      | nil => exact absurd (List.cons.inj hrest).1 hequals
      | cons c between =>
        obtain rfl := (List.cons.inj hrest).1
        simp at hfree
    · cases between with
      | nil => exact absurd (List.cons.inj hrest).1.symm hequals
      | cons c between =>
        obtain rfl := (List.cons.inj hrest).1
        exact ⟨name, between, rfl, hname⟩
  · rintro ⟨name, behind, rfl, hname⟩
    exact ⟨name, behind ++ quote :: b, by simp, hname⟩

/-- A quote splits nothing, and nothing that has a quote in it splits. -/
theorem splits_append_quote_iff (hquote : quote ∈ quotes) :
    Splits (a ++ quote :: b) ↔ Splits a ∨ Splits b := by
  induction a with
  | nil => simp [splits_cons_iff (ne_comma_of_quote hquote), not_splits_nil]
  | cons c a ih =>
    by_cases hc : c = ','
    · rw [hc, List.cons_append, splits_comma_iff, splits_comma_iff,
        beginsNamed_append_quote hquote, ih, or_assoc]
    · rw [List.cons_append, splits_cons_iff hc, splits_cons_iff hc, ih]

end Quotes

/-- A text splits if one of its pieces but the first begins a named argument. -/
theorem splits_iff_pieces : ∀ {pieces : List (List Char)} {piece s : List Char},
    splitAll ',' s = piece :: pieces →
      (Splits s ↔ ∃ later ∈ pieces, beginsNamed later = true)
  | [], piece, s, h => by
    have hfree : ',' ∉ s := by
      rw [← join_splitAll ',' s, h]
      exact splitAll_free h
    simp only [List.not_mem_nil, false_and, exists_false, iff_false]
    rintro ⟨before, name, behind, rfl, -⟩
    simp at hfree
  | next :: pieces, piece, s, h => by
    obtain ⟨rest, rfl, hrest⟩ := of_splitAll_cons_cons h
    rw [splits_append_iff (splitAll_free h), splits_iff_pieces hrest, ← beginsNamed_piece hrest]
    simp

theorem splits_iff_tail (s : List Char) :
    Splits s ↔ ∃ later ∈ (splitAll ',' s).tail, beginsNamed later = true := by
  obtain ⟨piece, pieces, hpieces⟩ := List.exists_cons_of_ne_nil (splitAll_ne_nil ',' s)
  rw [hpieces]
  exact splits_iff_pieces hpieces

instance (s : List Char) : Decidable (Splits s) := decidable_of_iff _ (splits_iff_tail s).symm

/-! ## Values -/

/-- What a text is: a value, or what stands between the brackets of a list or tuple. -/
inductive Form
  | value
  | items

/-- The characters of numbers, in any notation, and of the words for truth values. -/
def isWordChar (c : Char) : Bool := c.isAlphanum || c == '_' || c == '.' || c == '+' || c == '-'

/-- **Values as they are written**, and the contents of the strings in them: numbers and truth
values, strings in quotes of either kind, and lists and tuples of values, with blanks where they may
stand. -/
inductive Writes : Form → List Char → List (List Char) → Prop
  | word {text} (chars : ∀ c ∈ text, isWordChar c = true) (some : text ≠ []) :
      Writes .value text []
  | string {quote content} (quotes : quote ∈ quotes) (closed : quote ∉ content)
      (plain : '\\' ∉ content) : Writes .value (quote :: content ++ [quote]) [content]
  | sequence {opening closing text strings}
      (brackets : (opening, closing) ∈ [('(', ')'), ('[', ']')])
      (items : Writes .items text strings) :
      Writes .value (opening :: text ++ [closing]) strings
  | noItem {pad} (blank : Blank pad) : Writes .items pad []
  | lastItem {pad text pad' strings} (blank : Blank pad) (blank' : Blank pad')
      (value : Writes .value text strings) : Writes .items (pad ++ text ++ pad') strings
  | item {pad text pad' strings rest others} (blank : Blank pad) (blank' : Blank pad')
      (value : Writes .value text strings) (items : Writes .items rest others) :
      Writes .items (pad ++ text ++ pad' ++ ',' :: rest) (strings ++ others)

/-- A text that is put together from strings in quotes, whose contents are listed, and from signs
that are neither quotes nor equals signs. -/
inductive Scans : List Char → List (List Char) → Prop
  | nil : Scans [] []
  | sign {c text strings} (noQuote : c ∉ quotes) (noEquals : c ≠ '=') (rest : Scans text strings) :
      Scans (c :: text) strings
  | string {quote content text strings} (quotes : quote ∈ quotes) (rest : Scans text strings) :
      Scans (quote :: content ++ quote :: text) (content :: strings)

namespace Scans

theorem plain {text : List Char} (noQuotes : ∀ c ∈ text, c ∉ quotes) (noEquals : '=' ∉ text) :
    Scans text [] := by
  induction text with
  | nil => exact .nil
  | cons c text ih =>
    obtain ⟨hc, htext⟩ := List.forall_mem_cons.mp noQuotes
    obtain ⟨hequals, hrest⟩ := List.ne_and_not_mem_of_not_mem_cons noEquals
    exact .sign hc hequals.symm (ih htext hrest)

theorem append {a b : List Char} {strings others : List (List Char)} (h : Scans a strings)
    (h' : Scans b others) : Scans (a ++ b) (strings ++ others) := by
  induction h with
  | nil => exact h'
  | sign hc hequals _ ih => exact .sign hc hequals ih
  | string quotes _ ih => simpa using Scans.string quotes ih

/-- A name with an equals sign behind it does not stand at the beginning. -/
theorem not_beginsNamed {s : List Char} {strings : List (List Char)} (h : Scans s strings) :
    beginsNamed s = false := by
  rw [Bool.eq_false_iff]
  intro hbegins
  obtain ⟨name, behind, rfl, hname⟩ := beginsNamed_iff.mp hbegins
  have hquotes : ∀ c ∈ quotes, c ∉ name :=
    fun c hc => sign_not_mem_of_trim hname (mem_signs_of_quote hc)
  clear hbegins hname
  generalize hs : name ++ '=' :: behind = s at h
  induction h generalizing name with
  | nil => simp at hs
  | sign _ noEquals _ ih =>
    cases name with
    | nil => exact noEquals (List.cons.inj hs).1.symm
    | cons d name =>
      obtain ⟨-, rfl⟩ := List.cons.inj hs
      exact ih name (fun c hc hmem => hquotes c hc (List.mem_cons_of_mem _ hmem)) rfl
  | string hquote _ _ =>
    cases name with
    | nil =>
      obtain ⟨rfl, -⟩ := List.cons.inj hs
      simp [quotes] at hquote
    | cons d name =>
      obtain ⟨rfl, -⟩ := List.cons.inj hs
      exact hquotes _ hquote List.mem_cons_self

/-- **A text that is put together from signs and strings splits just if one of the strings does.**
-/
theorem splits_iff {s : List Char} {strings : List (List Char)} (h : Scans s strings) :
    Splits s ↔ ∃ content ∈ strings, Splits content := by
  induction h with
  | nil => simp [not_splits_nil]
  | @sign c text _ _ _ rest ih =>
    by_cases hc : c = ','
    · rw [hc, splits_comma_iff, rest.not_beginsNamed, ih]
      simp
    · rw [splits_cons_iff hc, ih]
  | string quotes _ ih =>
    have hcomma : _ ≠ ',' := ne_comma_of_quote quotes
    rw [List.cons_append, splits_cons_iff hcomma, splits_append_quote_iff quotes, ih]
    simp

end Scans

/-! ### Values split where their strings do -/

theorem Scans.blank {pad : List Char} (blank : Blank pad) : Scans pad [] := by
  exact .plain (fun c hc hquote => sign_not_mem_of_blank blank (mem_signs_of_quote hquote) hc)
    (sign_not_mem_of_blank blank (by decide))

theorem Scans.word {text : List Char} (chars : ∀ c ∈ text, isWordChar c = true) :
    Scans text [] := by
  have hsigns : ∀ c ∈ '=' :: quotes, isWordChar c = false := forall_mem_of_all (by decide)
  have hfree : ∀ c ∈ '=' :: quotes, c ∉ text := by
    intro c hc hmem
    have hword := chars c hmem
    rw [hsigns c hc] at hword
    cases hword
  exact .plain (fun c hc hquote => hfree c (List.mem_cons_of_mem _ hquote) hc)
    (hfree _ List.mem_cons_self)

namespace Writes

variable {form : Form} {text : List Char} {strings : List (List Char)}

theorem scans (h : Writes form text strings) : Scans text strings := by
  induction h with
  | word chars _ => exact .word chars
  | string quotes _ _ => exact .string quotes .nil
  | sequence brackets _ ih =>
    simp only [List.mem_cons, Prod.mk.injEq, List.not_mem_nil, or_false] at brackets
    obtain ⟨rfl, rfl⟩ | ⟨rfl, rfl⟩ := brackets
    · have hclosing : Scans [')'] [] := .plain (forall_mem_of_all (by decide)) (by decide)
      simpa using Scans.sign (by decide) (by decide) (ih.append hclosing)
    · have hclosing : Scans [']'] [] := .plain (forall_mem_of_all (by decide)) (by decide)
      simpa using Scans.sign (by decide) (by decide) (ih.append hclosing)
  | noItem blank => exact .blank blank
  | lastItem blank blank' _ ih =>
    simpa using ((Scans.blank blank).append ih).append (Scans.blank blank')
  | item blank blank' _ _ ih ih' =>
    have hitem := ((Scans.blank blank).append ih).append (Scans.blank blank')
    have hrest := Scans.sign (c := ',') (by decide) (by decide) ih'
    simpa using hitem.append hrest

/-- **A value splits just if a string in it does.** -/
theorem splits_iff (h : Writes form text strings) :
    Splits text ↔ ∃ content ∈ strings, Splits content := h.scans.splits_iff

/-- A value has no blanks at its ends, and it is not empty. -/
theorem solid (h : Writes .value text strings) : Trimmed text ∧ text ≠ [] := by
  cases h with
  | word chars some =>
    have hpoints : ∀ n ∈ blankPoints, isWordChar (Char.ofNat n) = false := by decide
    refine ⟨trimmed_of_solid fun c hc => Bool.eq_false_iff.mpr fun hblank => ?_, some⟩
    have hword := hpoints _ (mem_blankPoints hblank)
    rw [Char.ofNat_toNat, chars c hc] at hword
    cases hword
  | string quotes _ _ =>
    have hquote := (not_isNameChar_of_sign _ (mem_signs_of_quote quotes)).2
    exact ⟨trimmed_of_ends hquote hquote _, by simp⟩
  | sequence brackets _ =>
    simp only [List.mem_cons, Prod.mk.injEq, List.not_mem_nil, or_false] at brackets
    obtain ⟨rfl, rfl⟩ | ⟨rfl, rfl⟩ := brackets
    · exact ⟨trimmed_of_ends (by decide) (by decide) _, by simp⟩
    · exact ⟨trimmed_of_ends (by decide) (by decide) _, by simp⟩

end Writes

/-! ## Named arguments -/

/-- Pieces in front of which no named argument begins belong to the one before. -/
theorem gather_loose {loose : List (List Char)} (none : ∀ p ∈ loose, beginsNamed p = false)
    (rest : List (List Char)) :
    gather (loose ++ rest) = ((gather rest).1, loose ++ (gather rest).2) := by
  induction loose with
  | nil => rfl
  | cons piece loose ih =>
    obtain ⟨hpiece, hloose⟩ := List.forall_mem_cons.mp none
    simp [gather, ih hloose, hpiece]

/-- As many named arguments are gathered as pieces begin one. -/
theorem length_gather (pieces : List (List Char)) :
    (gather pieces).1.length = pieces.countP beginsNamed := by
  induction pieces with
  | nil => rfl
  | cons piece rest ih =>
    rw [List.countP_cons, ← ih]
    cases hbegins : beginsNamed piece <;> simp [gather, hbegins]

/-- An argument is found by its key if no other has that. -/
theorem lookup_of_mem {as : List (String × String)} (distinct : (as.map Prod.fst).Nodup)
    {a : String × String} (ha : a ∈ as) : as.lookup a.1 = some a.2 := by
  obtain ⟨before, after, rfl⟩ := List.append_of_mem ha
  refine List.lookup_eq_some_iff.mpr ⟨before, after, rfl, fun b hb => ?_⟩
  rw [List.map_append, List.nodup_append] at distinct
  have hne := distinct.2.2 b.1 (List.mem_map_of_mem hb) a.1 (by simp)
  simpa using hne.symm

/-- What is found is there. -/
theorem mem_of_lookup {as : List (String × String)} {key value : String}
    (found : as.lookup key = some value) : (key, value) ∈ as := by
  obtain ⟨before, after, rfl, -⟩ := List.lookup_eq_some_iff.mp found
  simp

/-- Every named argument that is gathered has an equals sign. -/
theorem equals_mem_gather {pieces : List (List Char)} :
    ∀ argument ∈ (gather pieces).1, '=' ∈ argument := by
  induction pieces with
  | nil => nofun
  | cons piece rest ih =>
    rw [gather]
    dsimp only
    split
    · rename_i hbegins
      refine List.forall_mem_cons.mpr ⟨mem_trim ?_ (by decide), ih⟩
      obtain ⟨name, behind, rfl, -⟩ := beginsNamed_iff.mp hbegins
      cases (gather rest).2 <;> simp [join]
    · exact ih

/-! ### Their texts -/

/-- The text of a named argument, key and value with an equals sign between them. -/
def text (a : String × String) : List Char := a.1.toList ++ '=' :: a.2.toList

/-- A named argument as it is read: its key is a name, and its value has no blanks at its ends. -/
structure Tidy (a : String × String) : Prop where
  named : isIdentifier a.1.toList = true
  trimmed : Trimmed a.2.toList

namespace Tidy

variable {a : String × String}

theorem text_trimmed (h : Tidy a) : Trimmed (text a) := by
  have hkey := trimmed_of_isIdentifier h.named
  have hsome := ne_nil_of_isIdentifier h.named
  by_cases hvalue : a.2.toList = []
  · have hequals : Trimmed ['='] := trimmed_of_solid (List.forall_mem_singleton.mpr rfl)
    simpa [text, hvalue] using hkey.append hequals hsome (by simp) []
  · simpa [text] using hkey.append h.trimmed hsome hvalue ['=']

/-- An argument is cut into its key and its value. -/
theorem pair?_text (h : Tidy a) : pair? (text a) = some a := by
  have hfree : '=' ∉ a.1.toList := sign_not_mem h.named (by decide)
  rw [pair?, text, cut?_append hfree, Option.map_some, (trimmed_of_isIdentifier h.named).trim_eq,
    h.trimmed.trim_eq, String.ofList_toList, String.ofList_toList]

/-- The pieces of an argument with blanks in front of it: the first one begins it, and the others
are those of its value. -/
theorem splitAll_text (h : Tidy a) (pad : List Char) (blank : Blank pad) :
    ∃ piece pieces, splitAll ',' (pad ++ text a) = piece :: pieces ∧ beginsNamed piece = true ∧
      ((∃ later ∈ pieces, beginsNamed later = true) ↔ Splits a.2.toList) := by
  have hcomma : ',' ∉ pad ++ (a.1.toList ++ ['=']) := by
    have hpad : ',' ∉ pad := sign_not_mem_of_blank blank (by decide)
    have hkey : ',' ∉ a.1.toList := sign_not_mem h.named (by decide)
    simp [hpad, hkey]
  obtain ⟨piece, pieces, hvalue⟩ :=
    List.exists_cons_of_ne_nil (splitAll_ne_nil ',' a.2.toList)
  have hsplit := splitAll_prepend hcomma hvalue
  refine ⟨_, pieces, by simpa [text] using hsplit, ?_, (splits_iff_pieces hvalue).symm⟩
  refine beginsNamed_iff.mpr ⟨pad ++ a.1.toList, piece, by simp, ?_⟩
  rw [(trimmed_of_isIdentifier h.named).trim_behind blank]
  exact h.named

/-- An argument that does not split is gathered as it is, whatever arguments follow it. -/
theorem gather_text (h : Tidy a) (pad : List Char) (blank : Blank pad)
    (whole : ¬Splits a.2.toList) {rest : List (List Char)} (complete : (gather rest).2 = []) :
    gather (splitAll ',' (pad ++ text a) ++ rest) = (text a :: (gather rest).1, []) := by
  obtain ⟨piece, pieces, hsplit, hbegins, hlater⟩ := h.splitAll_text pad blank
  have hnone : ∀ later ∈ pieces, beginsNamed later = false := fun later hmem =>
    Bool.eq_false_iff.mpr fun hnamed => whole (hlater.mp ⟨later, hmem, hnamed⟩)
  have hjoin : join [','] (piece :: pieces) = pad ++ text a := by rw [← hsplit, join_splitAll]
  have htrim := h.text_trimmed.trim_behind blank
  rw [hsplit, List.cons_append, gather, gather_loose hnone, complete]
  simp only [hbegins, if_true, List.append_nil, hjoin, htrim]

/-- The pieces of an argument that begin a named one are one more than those that split its value.
-/
theorem countP_text (h : Tidy a) (pad : List Char) (blank : Blank pad) :
    ∃ extra, (splitAll ',' (pad ++ text a)).countP beginsNamed = extra + 1 ∧
      (extra = 0 ↔ ¬Splits a.2.toList) := by
  obtain ⟨piece, pieces, hsplit, hbegins, hlater⟩ := h.splitAll_text pad blank
  refine ⟨pieces.countP beginsNamed, by rw [hsplit, List.countP_cons_of_pos hbegins], ?_⟩
  rw [← hlater, List.countP_eq_zero]
  simp

end Tidy

/-! ### Lists of them -/

/-- The pieces of some texts, with a comma and a blank between them. -/
theorem splitAll_texts (pad t : List Char) (ts : List (List Char)) :
    splitAll ',' (pad ++ join [',', ' '] (t :: ts)) =
      splitAll ',' (pad ++ t) ++ ts.flatMap fun t => splitAll ',' ([' '] ++ t) := by
  induction ts generalizing pad t with
  | nil => simp [join]
  | cons t' ts ih =>
    have hjoin : pad ++ join [',', ' '] (t :: t' :: ts) =
        (pad ++ t) ++ ',' :: ([' '] ++ join [',', ' '] (t' :: ts)) := by simp [join]
    rw [hjoin, splitAll_append, ih, List.flatMap_cons]

section Lists

variable {as : List (String × String)} (tidy : ∀ a ∈ as, Tidy a)
include tidy

/-- Arguments that do not split are gathered as they are. -/
theorem gather_texts (whole : ∀ a ∈ as, ¬Splits a.2.toList) :
    gather ((as.map text).flatMap fun t => splitAll ',' ([' '] ++ t)) = (as.map text, []) := by
  induction as with
  | nil => rfl
  | cons a as ih =>
    obtain ⟨hhere, htidy⟩ := List.forall_mem_cons.mp tidy
    obtain ⟨ha, has⟩ := List.forall_mem_cons.mp whole
    have hrest := ih htidy has
    rw [List.map_cons, List.flatMap_cons,
      hhere.gather_text [' '] (by decide) ha (by rw [hrest]), hrest]

theorem countP_texts :
    ∃ extra, ((as.map text).flatMap fun t => splitAll ',' ([' '] ++ t)).countP beginsNamed =
      extra + as.length ∧ (extra = 0 ↔ ∀ a ∈ as, ¬Splits a.2.toList) := by
  induction as with
  | nil => exact ⟨0, rfl, by simp⟩
  | cons a as ih =>
    obtain ⟨hhere, htidy⟩ := List.forall_mem_cons.mp tidy
    obtain ⟨extra, hcount, hextra⟩ := ih htidy
    obtain ⟨extra', hcount', hextra'⟩ := hhere.countP_text [' '] (by decide)
    refine ⟨extra' + extra, ?_, ?_⟩
    · rw [List.map_cons, List.flatMap_cons, List.countP_append, hcount, hcount', List.length_cons]
      omega
    · rw [List.forall_mem_cons, ← hextra, ← hextra']
      omega

end Lists

end Arguments

/-- A named argument with a value as it is written. -/
structure Keyword where
  key : String
  value : String
  /-- The contents of the strings in the value. -/
  strings : List (List Char)
  named : Arguments.isIdentifier key.toList = true
  written : Arguments.Writes .value value.toList strings

namespace Keyword

open Arguments

variable (k : Keyword)

/-- Key and value. -/
def pair : String × String := (k.key, k.value)

/-- The text of an argument, key and value with an equals sign between them. -/
def text : List Char := k.key.toList ++ '=' :: k.value.toList

/-- The value is a string with some content. -/
def Quotes (content : List Char) : Prop :=
  ∃ quote ∈ quotes, quote ∉ content ∧ k.value.toList = quote :: content ++ [quote]

theorem tidy : Tidy k.pair := ⟨k.named, k.written.solid.1⟩

/-- An argument is cut into its key and its value. -/
theorem pair?_text : pair? k.text = some k.pair := k.tidy.pair?_text

end Keyword

namespace Keyword

open Arguments

/-- The text between the brackets of a call with some arguments. -/
def list (ks : List Keyword) : List Char := join [',', ' '] (ks.map text)

theorem splitAll_list (k : Keyword) (ks : List Keyword) :
    splitAll ',' (list (k :: ks)) = splitAll ',' ([] ++ k.text) ++
      ((ks.map pair).map Arguments.text).flatMap fun t => splitAll ',' ([' '] ++ t) := by
  have htexts : ks.map text = (ks.map pair).map Arguments.text := by rw [List.map_map]; rfl
  rw [← List.nil_append (list _), list, List.map_cons, splitAll_texts, htexts]

theorem tidy_pairs (ks : List Keyword) : ∀ a ∈ ks.map pair, Tidy a := by
  intro a ha
  obtain ⟨k, -, rfl⟩ := List.mem_map.mp ha
  exact k.tidy

/-- **Arguments that do not split are found as they are.** -/
theorem keywords_list {ks : List Keyword} (whole : ∀ k ∈ ks, ¬Splits k.value.toList) :
    keywords (list ks) = ks.map text := by
  cases ks with
  | nil => rfl
  | cons k ks =>
    obtain ⟨hk, hks⟩ := List.forall_mem_cons.mp whole
    have hrest := gather_texts (tidy_pairs ks) (List.forall_mem_map.mpr hks)
    have hgather := k.tidy.gather_text [] nofun hk (by rw [hrest])
    rw [keywords, splitAll_list]
    refine (congrArg Prod.fst hgather).trans ?_
    rw [hrest, List.map_map]
    rfl

/-- There are more of them than there should be if one of them splits. -/
theorem length_keywords_list (ks : List Keyword) :
    ∃ extra, (keywords (list ks)).length = extra + ks.length ∧
      (extra = 0 ↔ ∀ k ∈ ks, ¬Splits k.value.toList) := by
  cases ks with
  | nil => exact ⟨0, rfl, by simp⟩
  | cons k ks =>
    obtain ⟨extra, hcount, hextra⟩ := countP_texts (tidy_pairs ks)
    obtain ⟨extra', hcount', hextra'⟩ := k.tidy.countP_text [] nofun
    rw [List.length_map] at hcount
    have hhere : (splitAll ',' ([] ++ k.text)).countP beginsNamed = extra' + 1 := hcount'
    have hwhole : extra = 0 ↔ ∀ k ∈ ks, ¬Splits k.value.toList := hextra.trans List.forall_mem_map
    have hwhole' : extra' = 0 ↔ ¬Splits k.value.toList := hextra'
    refine ⟨extra' + extra, ?_, ?_⟩
    · rw [keywords, length_gather, splitAll_list, List.countP_append, hcount, hhere,
        List.length_cons]
      omega
    · rw [List.forall_mem_cons, ← hwhole, ← hwhole']
      omega

/-- There is nothing in front of the first one. -/
theorem positional_list (ks : List Keyword) : positional (list ks) = [] := by
  cases ks with
  | nil => rfl
  | cons k ks =>
    obtain ⟨piece, pieces, hpieces, hbegins, -⟩ := k.tidy.splitAll_text [] nofun
    have hfirst : splitAll ',' ([] ++ k.text) = piece :: pieces := hpieces
    rw [positional, splitAll_list, hfirst, List.cons_append]
    simp only [List.takeWhile_cons, hbegins]
    rfl

end Keyword

/-! ## Calls with named arguments -/

namespace Call

open Arguments

/-- The text of a call with named arguments only. -/
def keywordText (family name : String) (named : List (String × String)) : String :=
  "bpy.ops." ++ family ++ "." ++ name ++ "(" ++
    String.ofList (join [',', ' '] (named.map fun a => a.1.toList ++ '=' :: a.2.toList)) ++ ")"

/-- **The parts of a call** whose path and arguments are known. Blanks may stand around the path. -/
theorem parse?_of_path {path family name : List Char} (trimmed : trim path = family ++ '.' :: name)
    (bracket : '(' ∉ path) (dot : '.' ∉ name) (hfamily : family ≠ []) (hname : name ≠ [])
    (arguments : List Char) :
    parse? (operatorStart ++ (path ++ '(' :: (arguments ++ [')']))) =
      some {
        family := String.ofList family
        name := String.ofList name
        positional := String.ofList (Arguments.positional arguments)
        named := (keywords arguments).filterMap pair? } := by
  have hend : trimEnd (arguments ++ [')']) = arguments ++ [')'] :=
    trimEnd_append_cons (by decide) arguments []
  have hbefore : beforeEnd? [')'] (arguments ++ [')']) = some arguments := by
    simp [beforeEnd?, afterStart?]
  rw [parse?, afterStart?_append]
  simp only [cut?_append bracket, trimmed, hend, hbefore, cutLast?_append dot]
  simp [hfamily, hname]

/-- Blanks around the path of an operator do not count. -/
theorem parse?_padded {family name p q : List Char} (hfamily : isIdentifier family = true)
    (hname : isIdentifier name = true) (blank : Blank p) (blank' : Blank q)
    (arguments : List Char) :
    parse? (operatorStart ++ (p ++ (family ++ '.' :: name) ++ q ++ '(' :: (arguments ++ [')']))) =
      some {
        family := String.ofList family
        name := String.ofList name
        positional := String.ofList (Arguments.positional arguments)
        named := (keywords arguments).filterMap pair? } := by
  have hsign : '(' ∈ signs := by decide
  have hbracket : '(' ∉ p ++ (family ++ '.' :: name) ++ q := by
    simp [sign_not_mem_of_blank blank hsign, sign_not_mem_of_blank blank' hsign,
      sign_not_mem hfamily hsign, sign_not_mem hname hsign]
  have htrimmed : Trimmed (family ++ '.' :: name) := by
    simpa using (trimmed_of_isIdentifier hfamily).append (trimmed_of_isIdentifier hname)
      (ne_nil_of_isIdentifier hfamily) (ne_nil_of_isIdentifier hname) ['.']
  exact parse?_of_path (htrimmed.trim_padded blank blank') hbracket
    (sign_not_mem hname (by decide)) (ne_nil_of_isIdentifier hfamily)
    (ne_nil_of_isIdentifier hname) arguments

theorem parse?_text {family name : List Char} (hfamily : isIdentifier family = true)
    (hname : isIdentifier name = true) (arguments : List Char) :
    parse? (operatorStart ++ (family ++ '.' :: name ++ '(' :: (arguments ++ [')']))) =
      some {
        family := String.ofList family
        name := String.ofList name
        positional := String.ofList (Arguments.positional arguments)
        named := (keywords arguments).filterMap pair? } := by
  have hnone : Blank [] := nofun
  simpa using parse?_padded hfamily hname hnone hnone arguments

/-- No blanks stand around the text of a call. -/
theorem trim_text (path arguments : List Char) :
    trim (operatorStart ++ (path ++ '(' :: (arguments ++ [')']))) =
      operatorStart ++ (path ++ '(' :: (arguments ++ [')'])) := by
  have htrimmed := trimmed_of_ends (c := 'b') (d := ')') (by decide) (by decide)
    ("py.ops.".toList ++ (path ++ '(' :: arguments))
  have heq : 'b' :: ("py.ops.".toList ++ (path ++ '(' :: arguments)) ++ [')'] =
      operatorStart ++ (path ++ '(' :: (arguments ++ [')'])) := by
    show operatorStart ++ _ ++ _ = _
    simp only [List.append_assoc, List.cons_append]
  rw [← heq, htrimmed.trim_eq]

end Call

namespace Command

open Arguments

/-- The call that a text with named arguments is read as. -/
theorem parse_keywordText {family name : String} (hfamily : isIdentifier family.toList = true)
    (hname : isIdentifier name.toList = true) (ks : List Keyword) :
    parse (Call.keywordText family name (ks.map Keyword.pair)) =
      .call ⟨family, name, "", (keywords (Keyword.list ks)).filterMap pair?⟩ := by
  have htext : (Call.keywordText family name (ks.map Keyword.pair)).toList = operatorStart ++
      (family.toList ++ '.' :: name.toList ++ '(' :: (Keyword.list ks ++ [')'])) := by
    rw [Call.keywordText, List.map_map]
    simp only [String.toList_append, String.toList_ofList, List.append_assoc]
    rfl
  have htrim := Call.trim_text (family.toList ++ '.' :: name.toList) (Keyword.list ks)
  unfold parse
  simp only [htext, htrim, Call.parse?_text hfamily hname, Keyword.positional_list]
  simp

end Command

namespace Keyword

open Arguments

/-- Without its quotes, a string is its content. -/
theorem unquote_value {k : Keyword} {content : List Char} (h : k.Quotes content) :
    unquote k.value.toList = content := by
  obtain ⟨quote, hquote, -, hvalue⟩ := h
  have htrim := k.written.solid.1.trim_eq
  have hkind : quote = '"' ∨ quote = '\'' := by simpa [quotes] using hquote
  have hquoted : quoted? (quote :: content ++ [quote]) = some content := by
    simp [quoted?, hkind]
  rw [unquote, htrim, hvalue, hquoted]
  rfl

/-- An argument of a list with different keys is found by its own. -/
theorem lookup_pair {ks : List Keyword} (distinct : (ks.map key).Nodup) {k : Keyword}
    (hk : k ∈ ks) : (ks.map pair).lookup k.key = some k.value := by
  have hkeys : ((ks.map pair).map Prod.fst).Nodup := by rwa [List.map_map]
  exact lookup_of_mem hkeys (List.mem_map_of_mem hk)

end Keyword

namespace Command

open Arguments

/-- **Named arguments survive just if no string in them splits.** Whatever the operator and however
many arguments with different keys, the text of the call is read as a call of that operator without
positional arguments. It has the arguments that were written, each with its value as it stands and
in their order, if and only if no string in the values has a comma with a name and an equals sign
behind it. An argument whose value is a string is then found by its key, with the content of the
string. -/
theorem arguments_survive_iff (family name : String) (hfamily : isIdentifier family.toList = true)
    (hname : isIdentifier name.toList = true) (ks : List Keyword)
    (distinct : (ks.map Keyword.key).Nodup) :
    ∃ named, parse (Call.keywordText family name (ks.map Keyword.pair)) =
        .call ⟨family, name, "", named⟩ ∧
      (named = ks.map Keyword.pair ↔ ∀ k ∈ ks, ∀ content ∈ k.strings, ¬Splits content) ∧
      (named = ks.map Keyword.pair → ∀ k ∈ ks, ∀ content, k.Quotes content →
        Call.textArgument? ⟨family, name, "", named⟩ k.key = some (String.ofList content)) := by
  refine ⟨_, parse_keywordText hfamily hname ks, ?_, ?_⟩
  · have hsplits : (∀ k ∈ ks, ∀ content ∈ k.strings, ¬Splits content) ↔
        ∀ k ∈ ks, ¬Splits k.value.toList := by
      refine forall₂_congr fun k _ => ?_
      rw [k.written.splits_iff]
      simp
    rw [hsplits]
    constructor
    · intro heq
      obtain ⟨extra, hlength, hextra⟩ := Keyword.length_keywords_list ks
      have hall : ((keywords (Keyword.list ks)).filterMap pair?).length =
          (keywords (Keyword.list ks)).length := by
        refine List.filterMap_length_eq_length.mpr fun argument hargument => ?_
        rw [pair?, Option.isSome_map]
        exact cut?_isSome (equals_mem_gather argument hargument)
      rw [heq, List.length_map] at hall
      exact hextra.mp (by omega)
    · intro whole
      rw [Keyword.keywords_list whole, List.filterMap_map]
      have hpairs : pair? ∘ Keyword.text = some ∘ Keyword.pair := funext Keyword.pair?_text
      rw [hpairs, List.filterMap_eq_map]
  · intro heq k hk content hcontent
    rw [heq, Call.textArgument?, Call.argument?, Keyword.lookup_pair distinct hk, Option.map_some,
      Keyword.unquote_value hcontent]

end Command

/-! ## A name that comes through, and one that does not -/

namespace Keyword

open Arguments

/-- An argument whose value is a string in single quotes. -/
def ofString (key content : String) (named : isIdentifier key.toList = true)
    (closed : '\'' ∉ content.toList) (plain : '\\' ∉ content.toList) : Keyword where
  key := key
  value := String.ofList ('\'' :: content.toList ++ ['\''])
  strings := [content.toList]
  named := named
  written := by
    rw [String.toList_ofList]
    exact .string (by decide) closed plain

/-- A name with a comma in it. -/
def commaName : Keyword := .ofString "name" "a, b" (by decide +kernel) (by decide) (by decide)

/-- A name with a comma in it, and with an equals sign further on. -/
def equalsName : Keyword := .ofString "name" "a,b=c" (by decide +kernel) (by decide) (by decide)

/-- A pair of numbers. -/
def numbers : Keyword where
  key := "location"
  value := "(1, -0.5)"
  strings := []
  named := by decide +kernel
  written := by
    have hfirst : Writes .value ['1'] [] := .word (forall_mem_of_all (by decide)) (by decide)
    have hsecond : Writes .value "-0.5".toList [] :=
      .word (forall_mem_of_all (by decide)) (by decide)
    have hrest : Writes .items ([' '] ++ "-0.5".toList ++ []) [] :=
      .lastItem (by decide) (by decide) hsecond
    have hitems : Writes .items ([] ++ ['1'] ++ [] ++ ',' :: ([' '] ++ "-0.5".toList ++ [])) [] :=
      .item (by decide) (by decide) hfirst hrest
    exact .sequence (by decide) hitems

end Keyword

theorem commaName_survives :
    ∃ named, Command.parse "bpy.ops.object.add(name='a, b', location=(1, -0.5))" =
        .call ⟨"object", "add", "", named⟩ ∧
      named = [("name", "'a, b'"), ("location", "(1, -0.5)")] ∧
      Call.textArgument? ⟨"object", "add", "", named⟩ "name" = some "a, b" := by
  obtain ⟨named, hparse, hiff, hstring⟩ := Command.arguments_survive_iff "object" "add"
    (by decide +kernel) (by decide +kernel) [.commaName, .numbers] (by decide +kernel)
  have hwhole : ∀ k ∈ [Keyword.commaName, .numbers], ∀ content ∈ k.strings,
      ¬Arguments.Splits content := by
    decide +kernel
  have hnamed := hiff.mpr hwhole
  have hcontent := hstring hnamed .commaName (by simp) "a, b".toList
    ⟨'\'', by decide, by decide, rfl⟩
  exact ⟨named, hparse, hnamed, hcontent⟩

/-- The name is cut at its comma, and the rest of it becomes an argument of its own. The text that is
handed on has a blank in the name. -/
theorem equalsName_lost :
    Call.keywordText "object" "add" [Keyword.equalsName.pair] =
        "bpy.ops.object.add(name='a,b=c')" ∧
      Command.parse "bpy.ops.object.add(name='a,b=c')" =
        .call ⟨"object", "add", "", [("name", "'a"), ("b", "c'")]⟩ ∧
      Call.textArgument? ⟨"object", "add", "", [("name", "'a"), ("b", "c'")]⟩ "name" =
        some "'a" ∧
      Call.render ⟨"object", "add", "", [("name", "'a"), ("b", "c'")]⟩ "EXEC_DEFAULT" =
        "bpy.ops.object.add(\"EXEC_DEFAULT\", name='a, b=c')" := by
  decide +kernel

end Replay
