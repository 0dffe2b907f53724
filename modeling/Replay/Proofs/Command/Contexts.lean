import Replay.Library.Basic
import Replay.Proofs.Command.Arguments

/-!
# Calls with a context

A command that is run names its execution context: the text of the call is written anew, with the
context in front of the arguments, and whoever runs it reads that text again. Reading trims the
pieces of an argument list and puts those together that no name begins, so what has been read is
written as pieces that are read alike, whatever the text looked like in the first place.

* `Arguments.Loose` — texts no piece of which begins a named argument
* `Call.Legible` — calls as they are read
* `Call.legible_of_parse?` — every call that is read is one
* `Command.parse_render` — a context in front of the arguments leaves the call as it was
-/

set_option autoImplicit false

namespace Replay

open Text

namespace Arguments

/-! ## Loose texts -/

variable {s t pad : List Char}

/-- A text splits if a part of it does. -/
theorem Splits.of_isInfix (h : Splits s) (part : s <:+: t) : Splits t := by
  obtain ⟨before, name, behind, rfl, hname⟩ := h
  obtain ⟨front, back, rfl⟩ := part
  exact ⟨front ++ before, name, behind ++ back, by simp, hname⟩

theorem beginsNamed_of_isPrefix (h : beginsNamed s = true) (part : s <+: t) :
    beginsNamed t = true := by
  obtain ⟨name, behind, rfl, hname⟩ := beginsNamed_iff.mp h
  obtain ⟨back, rfl⟩ := part
  exact beginsNamed_iff.mpr ⟨name, behind ++ back, by simp, hname⟩

/-- Blanks in front of a text do not count. -/
theorem beginsNamed_padded (blank : Blank pad) : beginsNamed (pad ++ s) = beginsNamed s := by
  rw [beginsNamed, beginsNamed, cut?_behind (sign_not_mem_of_blank blank (by decide))]
  cases cut? '=' s with
  | none => rfl
  | some parts => simp only [Option.map_some, trim_behind_blank blank]

/-- **No piece of the text begins a named argument.** -/
def Loose (s : List Char) : Prop := ∀ piece ∈ splitAll ',' s, beginsNamed piece = false

theorem loose_iff : Loose s ↔ beginsNamed s = false ∧ ¬Splits s := by
  obtain ⟨piece, pieces, hpieces⟩ := List.exists_cons_of_ne_nil (splitAll_ne_nil ',' s)
  rw [Loose, hpieces, List.forall_mem_cons, beginsNamed_piece hpieces, splits_iff_pieces hpieces]
  simp

namespace Loose

theorem of_isPrefix (h : Loose t) (part : s <+: t) : Loose s := by
  obtain ⟨hbegins, hsplits⟩ := loose_iff.mp h
  refine loose_iff.mpr ⟨Bool.eq_false_iff.mpr fun hs => ?_, fun hs => ?_⟩
  · rw [beginsNamed_of_isPrefix hs part] at hbegins
    cases hbegins
  · exact hsplits (hs.of_isInfix part.isInfix)

theorem of_padded (blank : Blank pad) (h : Loose (pad ++ s)) : Loose s := by
  obtain ⟨hbegins, hsplits⟩ := loose_iff.mp h
  rw [beginsNamed_padded blank] at hbegins
  exact loose_iff.mpr ⟨hbegins, fun hs => hsplits (hs.of_isInfix (List.suffix_append _ _).isInfix)⟩

/-- A text that is put together from loose pieces. -/
theorem of_pieces {pieces : List (List Char)} (some : pieces ≠ [])
    (free : ∀ piece ∈ pieces, ',' ∉ piece) (none : ∀ piece ∈ pieces, beginsNamed piece = false) :
    Loose (join [','] pieces) := by
  rw [Loose, splitAll_join some free]
  exact none

end Loose

/-! ## What is read of an argument list -/

/-- The text in front of the first named argument. -/
def front (arguments : List Char) : List Char :=
  let pieces := splitAll ',' arguments
  let leading := pieces.takeWhile fun piece => !beginsNamed piece
  join [','] (if leading.length < pieces.length then leading ++ [[]] else leading)

theorem positional_eq (arguments : List Char) :
    positional arguments = trimEnd (dropEndWhile (· == ',') (trim (front arguments))) := rfl

theorem loose_front (arguments : List Char) : Loose (front arguments) := by
  unfold front
  dsimp only
  have hsome := splitAll_ne_nil ',' arguments
  have hfree := @free_of_mem_splitAll ',' arguments
  generalize splitAll ',' arguments = pieces at hsome hfree
  have hleading : ∀ piece ∈ pieces.takeWhile fun piece => !beginsNamed piece,
      ',' ∉ piece ∧ beginsNamed piece = false := fun piece hpiece =>
    ⟨hfree piece ((List.takeWhile_prefix _).subset hpiece), by
      simpa using List.mem_takeWhile_imp hpiece⟩
  generalize (pieces.takeWhile fun piece => !beginsNamed piece) = leading at hleading
  split
  -- The comma in front of the first named argument leaves an empty piece behind it.
  · have hnil : ',' ∉ [] ∧ beginsNamed [] = false := ⟨List.not_mem_nil, rfl⟩
    have hall := List.forall_mem_append.mpr ⟨hleading, List.forall_mem_singleton.mpr hnil⟩
    exact .of_pieces (by simp) (fun piece h => (hall piece h).1) fun piece h => (hall piece h).2
  · rename_i hlength
    have hleading' : leading ≠ [] := by
      rintro rfl
      have hpos := List.length_pos_iff.mpr hsome
      simp only [List.length_nil] at hlength
      omega
    exact .of_pieces hleading' (fun piece h => (hleading piece h).1)
      fun piece h => (hleading piece h).2

/-- **The positional arguments that are read** have no blanks around them, and begin no named one. -/
theorem positional_legible (arguments : List Char) :
    Trimmed (positional arguments) ∧ Loose (positional arguments) := by
  rw [positional_eq]
  have hloose := loose_front arguments
  generalize front arguments = text at hloose
  have hkept : dropEndWhile (· == ',') (trim text) <+: trim text := dropEndWhile_isPrefix _ _
  constructor
  · refine trimmed_trimEnd fun c hc => (trimmed_trim text).first c ?_
    obtain ⟨more, hmore⟩ := hkept
    rw [← hmore, List.head?_append, hc, Option.some_or]
  · have hblank : Blank (text.takeWhile isBlank) := fun c hc => List.mem_takeWhile_imp hc
    have hstart : Loose (trimStart text) := by
      refine Loose.of_padded hblank ?_
      rwa [trimStart, List.takeWhile_append_dropWhile]
    have hpart : trimEnd (dropEndWhile (· == ',') (trim text)) <+: trimStart text :=
      (trimEnd_isPrefix _).trans (hkept.trans (trimEnd_isPrefix (trimStart text)))
    exact hstart.of_isPrefix hpart

/-- The pieces before the first named argument begin none. -/
theorem loose_of_gather {pieces : List (List Char)} :
    ∀ piece ∈ (gather pieces).2, piece ∈ pieces ∧ beginsNamed piece = false := by
  induction pieces with
  | nil => exact List.forall_mem_nil _
  | cons first rest ih =>
    have hrest : ∀ piece ∈ (gather rest).2, piece ∈ first :: rest ∧ beginsNamed piece = false :=
      fun piece hpiece => ⟨List.mem_cons_of_mem _ (ih piece hpiece).1, (ih piece hpiece).2⟩
    cases hbegins : beginsNamed first with
    | true => simp [gather, hbegins]
    | false => simpa [gather, hbegins] using hrest

/-- A text that begins a named argument and does not split is read as that argument. -/
theorem pair?_trim (begins : beginsNamed s = true) (whole : ¬Splits s) :
    ∃ a, pair? (trim s) = some a ∧ Tidy a ∧ ¬Splits a.2.toList := by
  obtain ⟨name, behind, rfl, hname⟩ := beginsNamed_iff.mp begins
  -- Trimming stops at the equals sign: it takes the start off the name and the end off the value.
  have hfree : '=' ∉ trimStart name := fun hmem =>
    sign_not_mem_of_trim hname (by decide) ((trimStart_suffix name).subset hmem)
  have hkey : trim (trimStart name) = trim name := by
    rw [trim, trimStart_trimStart, trim]
  refine ⟨(String.ofList (trim name), String.ofList (trim (trimEnd behind))), ?_, ⟨?_, ?_⟩, ?_⟩
  · rw [trim_append_cons (by decide), pair?, cut?_append hfree, Option.map_some, hkey]
  · rwa [String.toList_ofList]
  · rw [String.toList_ofList]
    exact trimmed_trim _
  · rw [String.toList_ofList]
    have hpart : trim (trimEnd behind) <:+: name ++ '=' :: behind := by
      refine ((trim_isInfix _).trans (trimEnd_isPrefix behind).isInfix).trans ?_
      exact ((List.suffix_cons '=' behind).trans (List.suffix_append name _)).isInfix
    exact fun hsplits => whole (hsplits.of_isInfix hpart)

/-- **Named arguments that are read** are tidy, and do not split. -/
theorem tidy_of_gather {pieces : List (List Char)} (free : ∀ piece ∈ pieces, ',' ∉ piece) :
    ∀ a ∈ (gather pieces).1.filterMap pair?, Tidy a ∧ ¬Splits a.2.toList := by
  induction pieces with
  | nil => exact List.forall_mem_nil _
  | cons first rest ih =>
    obtain ⟨hfirst, hrest⟩ := List.forall_mem_cons.mp free
    cases hbegins : beginsNamed first with
    | false => simpa [gather, hbegins] using ih hrest
    | true =>
      -- The pieces of this argument are its first one and those that no other name begins.
      have hloose := @loose_of_gather rest
      have hsplit : splitAll ',' (join [','] (first :: (gather rest).2)) =
          first :: (gather rest).2 :=
        splitAll_join (List.cons_ne_nil _ _)
          (List.forall_mem_cons.mpr ⟨hfirst, fun p hp => hrest p (hloose p hp).1⟩)
      have hwhole : ¬Splits (join [','] (first :: (gather rest).2)) := by
        rw [splits_iff_pieces hsplit]
        rintro ⟨later, hlater, hnamed⟩
        rw [(hloose later hlater).2] at hnamed
        cases hnamed
      obtain ⟨a, hpair, htidy, hvalue⟩ :=
        pair?_trim ((beginsNamed_piece hsplit).symm.trans hbegins) hwhole
      have hgather : (gather (first :: rest)).1.filterMap pair? =
          a :: (gather rest).1.filterMap pair? := by
        simp [gather, hbegins, hpair]
      rw [hgather]
      exact List.forall_mem_cons.mpr ⟨⟨htidy, hvalue⟩, ih hrest⟩

/-! ## What is read of it again -/

section Behind

variable {lead : List Char} {as : List (String × String)} (loose : Loose lead)
  (tidy : ∀ a ∈ as, Tidy a)
include loose tidy

/-- Named arguments are found behind a text that begins none. -/
theorem keywords_behind (whole : ∀ a ∈ as, ¬Splits a.2.toList) :
    keywords (join [',', ' '] (lead :: as.map text)) = as.map text := by
  have hsplit := splitAll_texts [] lead (as.map text)
  rw [List.nil_append] at hsplit
  rw [keywords, hsplit, List.nil_append, gather_loose loose, gather_texts tidy whole]

/-- The text is all that stands in front of the first named argument. -/
theorem front_behind : front (join [',', ' '] (lead :: as.map text)) = lead ∨
    front (join [',', ' '] (lead :: as.map text)) = lead ++ [','] := by
  have hsplit := splitAll_texts [] lead (as.map text)
  rw [List.nil_append] at hsplit
  have hlead : ∀ piece ∈ splitAll ',' lead, (!beginsNamed piece) = true := fun piece hpiece => by
    simp [loose piece hpiece]
  unfold front
  rw [hsplit, List.nil_append]
  cases as with
  | nil =>
    left
    have hall : (splitAll ',' lead).takeWhile (fun piece => !beginsNamed piece) =
        splitAll ',' lead := List.takeWhile_eq_self_iff.mpr hlead
    simp [hall, join_splitAll]
  | cons a as =>
    right
    obtain ⟨piece, pieces, hpieces, hbegins, -⟩ :=
      (tidy a List.mem_cons_self).splitAll_text [' '] (by decide)
    have hnext : (splitAll ',' lead ++ ((a :: as).map text).flatMap fun t =>
        splitAll ',' ([' '] ++ t)).takeWhile (fun piece => !beginsNamed piece) =
          splitAll ',' lead := by
      rw [List.takeWhile_append_of_pos hlead, List.map_cons, List.flatMap_cons, hpieces,
        List.cons_append, List.takeWhile_cons_of_neg (by simp [hbegins]), List.append_nil]
    have hjoin : join [','] (splitAll ',' lead ++ [[]]) = lead ++ [','] := by
      have hcomma : splitAll ',' (lead ++ [',']) = splitAll ',' lead ++ [[]] :=
        splitAll_append lead []
      rw [← hcomma, join_splitAll]
    dsimp only
    rw [hnext, if_pos]
    · exact hjoin
    · rw [List.map_cons, List.flatMap_cons, hpieces]
      simp

theorem positional_behind (trimmed : Trimmed lead) :
    positional (join [',', ' '] (lead :: as.map text)) =
      trimEnd (dropEndWhile (· == ',') lead) := by
  rw [positional_eq]
  rcases front_behind loose tidy with hfront | hfront
  · rw [hfront, trimmed.trim_eq]
  · have htrim : trim (lead ++ [',']) = lead ++ [','] := by
      rw [trim_append_cons (by decide), trimStart_of_first trimmed.first]
      rfl
    rw [hfront, htrim]
    simp [dropEndWhile]

end Behind

end Arguments

/-! ## Calls -/

open Arguments

/-- **A call as it is read**: its parts can be told apart when it is written again. -/
structure Call.Legible (c : Call) : Prop where
  trimmed : Trimmed (c.family.toList ++ '.' :: c.name.toList)
  bracket : '(' ∉ c.family.toList ++ '.' :: c.name.toList
  dot : '.' ∉ c.name.toList
  family : c.family.toList ≠ []
  name : c.name.toList ≠ []
  positional : Trimmed c.positional.toList ∧ Loose c.positional.toList
  named : ∀ a ∈ c.named, Tidy a ∧ ¬Splits a.2.toList

namespace Call

/-- **Every call that is read is legible**, whatever the text. -/
theorem legible_of_parse? {text : List Char} {c : Call} (h : parse? text = some c) : c.Legible := by
  unfold parse? at h
  split at h
  · cases h
  · rename_i rest _
    split at h
    · cases h
    · rename_i path tail hpath
      split at h
      · rename_i arguments family name _ hlast
        split at h
        · cases h
        · rename_i hsome
          cases h
          obtain ⟨hfamily, hname⟩ := not_or.mp hsome
          obtain ⟨heq, hdot⟩ := of_cutLast?_eq_some hlast
          have hbracket : '(' ∉ trim path := fun hmem =>
            (of_cut?_eq_some hpath).2 ((trim_isInfix path).subset hmem)
          have htrimmed := trimmed_trim path
          rw [heq] at hbracket htrimmed
          constructor <;> simp only [String.toList_ofList]
          case trimmed => exact htrimmed
          case bracket => exact hbracket
          case dot => exact hdot
          case family => exact hfamily
          case name => exact hname
          case positional => exact positional_legible arguments
          case named => exact tidy_of_gather free_of_mem_splitAll
      · cases h

/-- What a context is written with in front of the named arguments: itself in quotes, and the
positional arguments behind it, if there are any. -/
def leading (c : Call) (context : String) : List Char :=
  '"' :: context.toList ++ '"' ::
    if c.positional = "" then [] else ',' :: ' ' :: c.positional.toList

variable {c : Call} {context : String}

theorem ofList_leading (c : Call) (context : String) :
    String.ofList (c.leading context) = "\"" ++ context ++ "\"" ++
      if c.positional = "" then "" else ", " ++ c.positional := by
  rw [← String.toList_inj, String.toList_ofList, leading]
  split <;> simp

theorem render_toList (c : Call) (context : String) : (c.render context).toList =
    operatorStart ++ (c.family.toList ++ '.' :: c.name.toList ++
      '(' :: (join [',', ' '] (c.leading context :: c.named.map text) ++ [')'])) := by
  have hnamed : (c.named.map fun a => a.1 ++ "=" ++ a.2).map String.toList = c.named.map text := by
    rw [List.map_map]
    refine List.map_congr_left fun a _ => ?_
    simp [text]
  have hjoin : join [',', ' ']
      (((if c.positional = "" then ["\"" ++ context ++ "\""]
        else ["\"" ++ context ++ "\"", c.positional]) ++
          c.named.map fun a => a.1 ++ "=" ++ a.2).map String.toList) =
      join [',', ' '] (c.leading context :: c.named.map text) := by
    rw [List.map_append, hnamed, leading]
    by_cases hpositional : c.positional = ""
    · simp [hpositional]
    · cases c.named <;> simp [hpositional, join]
  unfold render
  dsimp only
  rw [hjoin]
  simp [id]

theorem Legible.loose_leading (h : c.Legible) (whole : ¬Splits context.toList) :
    Loose (c.leading context) := by
  -- Nothing that begins or splits reaches over a quote, so the context and what is behind it can be
  -- looked at one by one.
  have hquote : '"' ∈ quotes := by decide
  refine loose_iff.mpr ⟨?_, ?_⟩
  · rw [leading, List.cons_append, ← List.nil_append ('"' :: _), beginsNamed_append_quote hquote]
    rfl
  · rw [leading, List.cons_append, splits_cons_iff (by decide), splits_append_quote_iff hquote]
    rintro (hsplits | hsplits)
    · exact whole hsplits
    · split at hsplits
      · exact not_splits_nil hsplits
      · obtain ⟨hbegins, hpositional⟩ := loose_iff.mp h.positional.2
        have hpad : beginsNamed ([' '] ++ c.positional.toList) = false := by
          rwa [beginsNamed_padded (by decide)]
        rw [splits_comma_iff, splits_cons_iff (by decide)] at hsplits
        rcases hsplits with hnamed | hsplits
        · rw [← List.singleton_append, hpad] at hnamed
          cases hnamed
        · exact hpositional hsplits

theorem Legible.trimmed_leading (h : c.Legible) : Trimmed (c.leading context) := by
  have hquote : Trimmed ['"'] := trimmed_of_solid (List.forall_mem_singleton.mpr rfl)
  unfold leading
  split
  · exact trimmed_of_ends (by decide) (by decide) context.toList
  · rename_i hsome
    have hpositional : c.positional.toList ≠ [] := by simpa using hsome
    have hends := hquote.append h.positional.1 (by simp) hpositional
      (context.toList ++ ['"', ',', ' '])
    simpa using hends

theorem getLast?_leading (last : (c.leading context).getLast? = some ',') :
    c.positional.toList.getLast? = some ',' := by
  unfold leading at last
  split at last
  · simp [List.getLast?_cons] at last
  · rename_i hsome
    have hpositional : c.positional.toList ≠ [] := by simpa using hsome
    have hsplit : '"' :: context.toList ++ '"' :: ',' :: ' ' :: c.positional.toList =
      ('"' :: context.toList ++ ['"', ',', ' ']) ++ c.positional.toList := by simp
    rwa [hsplit, List.getLast?_append_of_ne_nil _ hpositional] at last

/-- **What is read of a legible call that is written with a context.** -/
theorem Legible.parse?_render (h : c.Legible) (whole : ¬Splits context.toList) :
    parse? (c.render context).toList = some { c with
      positional := String.ofList (trimEnd (dropEndWhile (· == ',') (c.leading context))) } := by
  have htidy : ∀ a ∈ c.named, Tidy a := fun a ha => (h.named a ha).1
  have hwhole : ∀ a ∈ c.named, ¬Splits a.2.toList := fun a ha => (h.named a ha).2
  have hloose := h.loose_leading whole
  have hpairs : (c.named.map text).filterMap pair? = c.named := by
    rw [List.filterMap_map]
    refine (List.filterMap_congr fun a ha => ?_).trans (List.filterMap_some)
    exact (htidy a ha).pair?_text
  rw [render_toList, parse?_of_path h.trimmed.trim_eq h.bracket h.dot h.family h.name,
    keywords_behind hloose htidy hwhole, positional_behind hloose htidy h.trimmed_leading, hpairs,
    String.ofList_toList, String.ofList_toList]

end Call

namespace Command

/-- Every call that is read from a text is legible. -/
theorem legible_of_parse {text : String} {c : Call} (h : parse text = .call c) : c.Legible := by
  unfold parse at h
  dsimp only at h
  split at h
  · rename_i c' hparse
    obtain rfl : c' = c := by injection h
    exact Call.legible_of_parse? hparse
  · split at h <;> cases h

/-- **A context in front of the arguments leaves a call as it was.** Whatever text a call was read
from, and whichever of the two contexts it is written with, what is read again is a call of the same
operator with the same named arguments, in their order. In front of them stands the context in
quotes, and behind a comma and a blank the positional arguments, if there were any: only commas at
their end are lost, with the blanks in front of these. -/
theorem parse_render {text : String} {c : Call} (reads : parse text = .call c) (mode : CallMode) :
    ∃ positional cut : String,
      parse (c.render mode.context) = .call { c with positional := positional } ∧
      "\"" ++ mode.context ++ "\"" ++ (if c.positional = "" then "" else ", " ++ c.positional) =
        positional ++ cut ∧
      (∀ ch ∈ cut.toList, ch = ',' ∨ Text.isBlank ch = true) ∧
      (cut ≠ "" → c.positional.toList.getLast? = some ',') := by
  have hlegible := legible_of_parse reads
  have hwhole : ¬Splits mode.context.toList := by cases mode <;> decide +kernel
  have htrim : trim (c.render mode.context).toList = (c.render mode.context).toList := by
    rw [Call.render_toList, Call.trim_text]
  obtain ⟨cut, hcut, hlost, hlast⟩ :=
    (@Call.Legible.trimmed_leading c mode.context hlegible).dropEndWhile_cut (· == ',')
  refine ⟨String.ofList (trimEnd (dropEndWhile (· == ',') (c.leading mode.context))),
    String.ofList cut, ?_, ?_, ?_, ?_⟩
  · unfold parse
    dsimp only
    rw [htrim, hlegible.parse?_render hwhole]
  · rw [← Call.ofList_leading, ← String.ofList_append, ← hcut]
  · simpa using hlost
  · intro hsome
    obtain ⟨ch, hch, hcomma⟩ := hlast (by simpa using hsome)
    obtain rfl : ch = ',' := by simpa using hcomma
    exact Call.getLast?_leading hch

/-- A call with stray commas, an empty value, a key that comes twice, and a string that has been taken
for two arguments. -/
def strayCall : Call :=
  ⟨"mesh", " add", "1, (2, 3),", [("name", "'a"), ("b", "c'"), ("name", ""), ("size", "(1, 2),")]⟩

/-- Only the last comma of its positional arguments is lost. -/
theorem strayCall_kept :
    parse " bpy.ops.mesh. add (1, (2, 3), ,, name='a,b=c', name=, size = (1, 2),) " =
      .call strayCall ∧
    ∃ positional cut : String,
      parse (strayCall.render "EXEC_DEFAULT") =
        .call { strayCall with positional := positional } ∧
      "\"EXEC_DEFAULT\", 1, (2, 3)," = positional ++ cut ∧
      positional = "\"EXEC_DEFAULT\", 1, (2, 3)" := by
  have hreads : parse " bpy.ops.mesh. add (1, (2, 3), ,, name='a,b=c', name=, size = (1, 2),) " =
      .call strayCall := by
    decide +kernel
  have hagain : parse (strayCall.render "EXEC_DEFAULT") =
      .call { strayCall with positional := "\"EXEC_DEFAULT\", 1, (2, 3)" } := by
    decide +kernel
  obtain ⟨positional, cut, hparse, hwritten, -⟩ := parse_render hreads .execute
  have hleading : "\"EXEC_DEFAULT\", 1, (2, 3)," = positional ++ cut := hwritten
  refine ⟨hreads, positional, cut, hparse, hleading, ?_⟩
  have hcall := hparse.symm.trans hagain
  injection hcall with hcall
  exact congrArg Call.positional hcall

end Command

end Replay
