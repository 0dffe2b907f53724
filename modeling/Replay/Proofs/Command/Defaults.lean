import Replay.Instruction
import Replay.Playback.Effect
import Replay.Proofs.Command.Contexts
import Replay.Proofs.Command.Exactness

/-!
# Calls that leave the defaults

A property of an operator is left at its default if the call does not mention it, or gives it the
default as its value. So there are many ways to call the operator that plays the local action with
both properties at their defaults: each of them can be missing, an empty string has two kinds of
quotes, and order, blanks and positional arguments are free. All of that can be read. But the guard
against actions that play themselves compares texts: it knows one spelling of each default, and asks
for both.

* `Call.Spells` — the texts of a call with some named arguments, wherever there are blanks in them
* `Call.Spells.parse` — they are read as that call
* `Call.LeavesDefaults`, `WritesDefaults` — the calls in question, and the spelling of them that
  the guard knows
* `Host.playsItself_iff` — the guard holds back these, and no other command
-/

set_option autoImplicit false

namespace Replay

open Text

namespace Arguments

/-! ## Blanks in argument lists -/

/-- A named argument that is one piece between commas: its key is a name, and its value has neither
commas nor blanks at its ends, and is not empty. -/
structure Compact (a : String × String) : Prop extends Tidy a where
  some : a.2.toList ≠ []
  free : ',' ∉ a.2.toList

/-- A named argument with blanks on both sides of its key and of its value. -/
inductive Pads (a : String × String) : List Char → Prop
  | around {p q r t} (key : Blank p ∧ Blank q) (value : Blank r ∧ Blank t) :
      Pads a (p ++ (a.1.toList ++ (q ++ '=' :: (r ++ a.2.toList))) ++ t)

namespace Pads

variable {a : String × String} {piece : List Char}

theorem free (h : Pads a piece) (compact : Compact a) : ',' ∉ piece := by
  obtain ⟨⟨hp, hq⟩, ⟨hr, ht⟩⟩ := h
  have hblank : ∀ {pad : List Char}, Blank pad → ',' ∉ pad :=
    fun blank => sign_not_mem_of_blank blank (by decide)
  have hkey : ',' ∉ a.1.toList := sign_not_mem compact.named (by decide)
  simp [hblank hp, hblank hq, hblank hr, hblank ht, hkey, compact.free]

theorem begins (h : Pads a piece) (compact : Compact a) : beginsNamed piece = true := by
  obtain @⟨p, q, r, t, ⟨hp, hq⟩, -⟩ := h
  refine beginsNamed_iff.mpr ⟨p ++ a.1.toList ++ q, r ++ a.2.toList ++ t, by simp, ?_⟩
  rw [(trimmed_of_isIdentifier compact.named).trim_padded hp hq]
  exact compact.named

/-- The blanks are not read. -/
theorem pair?_trim (h : Pads a piece) (compact : Compact a) : pair? (trim piece) = some a := by
  obtain @⟨p, q, r, t, ⟨hp, hq⟩, ⟨hr, ht⟩⟩ := h
  have hkey := trimmed_of_isIdentifier compact.named
  have hends : Trimmed (a.1.toList ++ (q ++ '=' :: (r ++ a.2.toList))) := by
    simpa using hkey.append compact.trimmed (ne_nil_of_isIdentifier compact.named) compact.some
      (q ++ '=' :: r)
  have hfree : '=' ∉ a.1.toList ++ q := by
    simp [sign_not_mem compact.named (c := '=') (by decide),
      sign_not_mem_of_blank hq (c := '=') (by decide)]
  have hnone : Blank [] := nofun
  have hname : trim (a.1.toList ++ q) = a.1.toList := by simpa using hkey.trim_padded hnone hq
  rw [hends.trim_padded hp ht, ← List.append_assoc, pair?, cut?_append hfree, Option.map_some,
    hname, compact.trimmed.trim_behind hr, String.ofList_toList, String.ofList_toList]

end Pads

/-- An argument list: pieces that begin no named argument, then the named arguments, with commas
between them. -/
inductive Lists (named : List (String × String)) : List Char → Prop
  | behind {front items} (some : front ++ items ≠ [])
      (loose : ∀ piece ∈ front, ',' ∉ piece ∧ beginsNamed piece = false)
      (padded : List.Forall₂ Pads named items) : Lists named (join [','] (front ++ items))

section Lists

variable {named : List (String × String)} (compact : ∀ a ∈ named, Compact a)
include compact

theorem free_of_padded {items : List (List Char)} (padded : List.Forall₂ Pads named items) :
    ∀ piece ∈ items, ',' ∉ piece := by
  induction padded with
  | nil => exact List.forall_mem_nil _
  | cons first _ ih =>
    obtain ⟨ha, hrest⟩ := List.forall_mem_cons.mp compact
    exact List.forall_mem_cons.mpr ⟨first.free ha, ih hrest⟩

/-- Padded pieces are gathered one by one. -/
theorem gather_padded {items : List (List Char)} (padded : List.Forall₂ Pads named items) :
    (gather items).2 = [] ∧ (gather items).1.filterMap pair? = named := by
  induction padded with
  | nil => exact ⟨rfl, rfl⟩
  | cons first _ ih =>
    obtain ⟨ha, hrest⟩ := List.forall_mem_cons.mp compact
    obtain ⟨hloose, hnamed⟩ := ih hrest
    simp [gather, first.begins ha, hloose, join, first.pair?_trim ha, hnamed]

/-- **The named arguments of a list are read as they are**, with any blanks around them and any
pieces in front of them. -/
theorem Lists.pairs {arguments : List Char} (h : Lists named arguments) :
    (keywords arguments).filterMap pair? = named := by
  obtain ⟨some, loose, padded⟩ := h
  have hfree := List.forall_mem_append.mpr
    ⟨fun piece hpiece => (loose piece hpiece).1, free_of_padded compact padded⟩
  rw [keywords, splitAll_join some hfree, gather_loose fun piece hpiece => (loose piece hpiece).2]
  exact (gather_padded compact padded).2

end Lists

end Arguments

/-! ## Blanks in calls -/

namespace Call

open Arguments

/-- A text that spells a call with these named arguments: blanks may stand around it, around the path
of the operator, and in the list of arguments. -/
inductive Spells (family name : String) (named : List (String × String)) (text : String) : Prop
  | blanks {before p q after arguments}
      (eq : text.toList = before ++ (operatorStart ++
        (p ++ (family.toList ++ '.' :: name.toList) ++ q ++ '(' :: (arguments ++ [')']))) ++ after)
      (around : Blank before ∧ Blank after) (path : Blank p ∧ Blank q)
      (lists : Lists named arguments)

end Call

namespace Directive

/-- A text that begins differently is no directive. -/
theorem payload?_eq_none {text : String} (h : text.toList.head? ≠ some 'a') :
    payload? text = none := by
  unfold payload?
  split
  · rename_i word payload hcut
    have htext := (of_cut?_eq_some hcut).1
    split
    · rename_i hword
      rw [htext, hword] at h
      exact absurd rfl h
    · rfl
  · rfl

end Directive

namespace Call.Spells

open Arguments

variable {family name : String} {named : List (String × String)} {text : String}

/-- **Whatever blanks there are, the call is read.** -/
theorem parse (h : Spells family name named text) (hfamily : isIdentifier family.toList = true)
    (hname : isIdentifier name.toList = true) (compact : ∀ a ∈ named, Compact a) :
    ∃ positional, Command.parse text = .call ⟨family, name, positional, named⟩ := by
  obtain @⟨before, p, q, after, arguments, htext, ⟨hbefore, hafter⟩, ⟨hp, hq⟩, hlists⟩ := h
  have hcall := parse?_padded hfamily hname hp hq arguments
  have hcore := trimmed_trim (operatorStart ++
    (p ++ (family.toList ++ '.' :: name.toList) ++ q ++ '(' :: (arguments ++ [')'])))
  rw [trim_text] at hcore
  refine ⟨String.ofList (Arguments.positional arguments), ?_⟩
  unfold Command.parse
  simp only [htext, hcore.trim_padded hbefore hafter, hcall, hlists.pairs compact,
    String.ofList_toList]

theorem payload?_eq_none (h : Spells family name named text) : Directive.payload? text = none := by
  obtain @⟨before, p, q, after, arguments, htext, ⟨hbefore, -⟩, -, -⟩ := h
  refine Directive.payload?_eq_none ?_
  rw [htext]
  cases before with
  | nil =>
    have hstart : operatorStart.head? = some 'b' := by decide
    simp [List.head?_append, hstart]
  | cons c before =>
    intro hhead
    obtain rfl : c = 'a' := by simpa using hhead
    exact absurd (hbefore 'a' List.mem_cons_self) (by decide)

end Call.Spells

/-! ## Defaults -/

/-- The named arguments that say what holds without them of a call that plays the local action: an
empty text, in quotes of either kind, and the number minus one. -/
def defaultSpellings : List (String × String) := [("id", "\"\""), ("id", "''"), ("index", "-1")]

/-- **Named arguments that leave both properties at their defaults**: each is missing or spells its
default out. -/
structure AtDefaults (named : List (String × String)) : Prop where
  each : ∀ a ∈ named, a ∈ defaultSpellings
  once : (named.map Prod.fst).Nodup

/-- **The arguments that the guard knows**: both defaults are there, and the quotes are double. -/
def WritesDefaults (named : List (String × String)) : Prop :=
  ("id", "\"\"") ∈ named ∧ ("index", "-1") ∈ named

/-- A call that plays the local action and leaves its properties at their defaults. -/
structure Call.LeavesDefaults (c : Call) : Prop where
  operator : c.id = "ar.local_play"
  named : AtDefaults c.named

namespace AtDefaults

variable {named : List (String × String)}

theorem compact (h : AtDefaults named) : ∀ a ∈ named, Arguments.Compact a := by
  intro a ha
  have hdefault := h.each a ha
  simp only [defaultSpellings, List.mem_cons, List.not_mem_nil, or_false] at hdefault
  rcases hdefault with rfl | rfl | rfl
  all_goals
    exact ⟨⟨by decide +kernel, trimmed_of_solid (forall_mem_of_all (by decide))⟩, by decide,
      by decide⟩

/-- There are no others if both are there. -/
theorem perm (h : AtDefaults named) (writes : WritesDefaults named) :
    named.Perm [("id", "\"\""), ("index", "-1")] := by
  have hpairs : named.Nodup := List.Nodup.of_map Prod.fst h.once
  refine (List.perm_ext_iff_of_nodup hpairs (by decide)).mpr fun a => ?_
  simp only [List.mem_cons, List.not_mem_nil, or_false]
  constructor
  · intro ha
    have hdefault := h.each a ha
    simp only [defaultSpellings, List.mem_cons, List.not_mem_nil, or_false] at hdefault
    rcases hdefault with rfl | rfl | rfl
    · exact .inl rfl
    · have hsingle : named.lookup "id" = some "''" := Arguments.lookup_of_mem h.once ha
      have hdouble : named.lookup "id" = some "\"\"" := Arguments.lookup_of_mem h.once writes.1
      exact absurd (hsingle.symm.trans hdouble) (by decide)
    · exact .inr rfl
  · rintro (rfl | rfl)
    · exact writes.1
    · exact writes.2

/-- Both defaults leave nothing open. -/
theorem of_perm (perm : named.Perm [("id", "\"\""), ("index", "-1")]) :
    AtDefaults named ∧ WritesDefaults named := by
  have hspelled : ∀ a ∈ [("id", "\"\""), ("index", "-1")], a ∈ defaultSpellings := by decide
  refine ⟨⟨fun a ha => hspelled a (perm.mem_iff.mp ha), ?_⟩, perm.mem_iff.mpr (by decide),
    perm.mem_iff.mpr (by decide)⟩
  exact (perm.map Prod.fst).nodup_iff.mpr (by decide)

end AtDefaults

/-- **The guard holds back the calls that leave the defaults and write both of them out**, the id in
double quotes, and no other command. -/
theorem Host.playsItself_iff {command : Command} : Host.playsItself command = true ↔
    ∃ c, command = .call c ∧ c.LeavesDefaults ∧ WritesDefaults c.named := by
  cases command with
  | assign path value => simp [playsItself]
  | expression text => simp [playsItself]
  | call c =>
    have hkeys : ([("id", "\"\""), ("index", "-1")].map Prod.fst).Nodup := by decide
    simp only [playsItself, Bool.and_eq_true, beq_iff_eq, Command.call.injEq]
    constructor
    · rintro ⟨hid, hexact⟩
      obtain ⟨hnamed, hwrites⟩ := AtDefaults.of_perm (Call.perm_of_hasExactly hkeys hexact)
      exact ⟨c, rfl, ⟨hid, hnamed⟩, hwrites⟩
    · rintro ⟨_, rfl, ⟨hid, hnamed⟩, hwrites⟩
      exact ⟨hid, Call.hasExactly_of_perm hkeys (hnamed.perm hwrites)⟩

end Replay
