import Replay.Number.Literal

/-!
# Options

A command line is read from left to right by a table of options. A long option is written `--name`,
its value behind an equals sign or in the next word; a short one is written `-n`, its value right
behind it, behind an equals sign, or in the next word. Short options without values may be joined. A
word that could be an option is never taken as a value.

Reading stops at the first fault, at a request for help, and at the name of a command, to which all
that follows belongs. A value in a word of its own is looked at only when the next option is met or
the words have come to an end; in front of a command that is after the command has been read.

* `OptionTable.scan` — what the words up to there say
* `Reading.given` — the options, once the last value has been looked at
-/

set_option autoImplicit false

namespace Replay

/-- What an option takes. -/
inductive OptionValue
  | nothing
  /-- A path, which is not empty. -/
  | path
  | text
  /-- A natural number of 64 bits. -/
  | count
deriving DecidableEq, Repr

namespace OptionValue

/-- Whether a text is a value of the kind. -/
def accepts : OptionValue → String → Bool
  | nothing, _ => false
  | path, s => s ≠ ""
  | text, _ => true
  | count, s => (naturalUpTo? Word.greatest s.toList).isSome

end OptionValue

/-- An option of a command. -/
structure OptionRule where
  name : String
  short : Option Char
  value : OptionValue
  required : Bool
deriving DecidableEq, Repr

/-- Why a command line is not understood. -/
inductive UsageFault
  | unknownWord (word : String)
  | missingValue (option : String)
  | invalidValue (option value : String)
  | needlessValue (option : String)
  | repeated (option : String)
  | missingOption (option : String)
  | missingCommand
deriving DecidableEq, Repr

namespace UsageFault

/-- The wording of a fault. -/
def message : UsageFault → String
  | unknownWord word => "unexpected word '" ++ word ++ "'"
  | missingValue option => "the option '--" ++ option ++ "' needs a value"
  | invalidValue option value => "'" ++ value ++ "' is no value for '--" ++ option ++ "'"
  | needlessValue option => "the option '--" ++ option ++ "' takes no value"
  | repeated option => "the option '--" ++ option ++ "' is given twice"
  | missingOption option => "the option '--" ++ option ++ "' is missing"
  | missingCommand => "a command is missing"

end UsageFault

/-- The options given so far, with their values. -/
abbrev Given := List (String × String)

namespace Given

/-- The options with one more, which may not have been given before and needs a value of its
kind. -/
def add (g : Given) (rule : OptionRule) (value : String) : Except UsageFault Given :=
  if rule.value ≠ .nothing ∧ !rule.value.accepts value then
    .error (.invalidValue rule.name value)
  else if (g.lookup rule.name).isSome then .error (.repeated rule.name)
  else .ok (g ++ [(rule.name, value)])

/-- Whether an option without a value has been given. -/
def has (g : Given) (name : String) : Bool := (g.lookup name).isSome

/-- The number that an option has been given. -/
def count? (g : Given) (name : String) : Option Nat :=
  (g.lookup name).bind fun s => naturalUpTo? Word.greatest s.toList

end Given

/-- What has been read of a command line. -/
structure Reading where
  /-- The options whose values have been looked at. -/
  settled : Given
  /-- The last option, if its value is a word of its own that has not been looked at yet. -/
  last : Option (OptionRule × String)
deriving DecidableEq, Repr

namespace Reading

/-- Nothing yet. -/
def nothing : Reading := ⟨[], none⟩

/-- The options given, all values looked at. -/
def given (r : Reading) : Except UsageFault Given :=
  match r.last with
  | some (rule, value) => r.settled.add rule value
  | none => .ok r.settled

end Reading

/-- Where the reading of a command line stops. -/
inductive ScanEnd
  /-- Behind the last word. -/
  | all
  | help
  | version
  /-- At the name of a command, with the words behind it. -/
  | command (name : String) (rest : List String)
deriving DecidableEq, Repr

/-- The options and commands that words are read by. -/
structure OptionTable where
  options : List OptionRule
  commands : List String
  /-- Whether the version may be asked for. -/
  versioned : Bool
deriving DecidableEq, Repr

namespace OptionTable

/-- What one word says. -/
inductive Meaning
  /-- Options without values, and perhaps one with its value. -/
  | given (g : Given)
  /-- The same, and an option whose value is the next word. -/
  | wanting (g : Given) (rule : OptionRule)
  | help
  | version
deriving DecidableEq, Repr

/-- The meaning of a long option, from what stands behind the hyphens. -/
def long (t : OptionTable) (g : Given) (body : List Char) : Except UsageFault Meaning :=
  let name := String.ofList (body.takeWhile (· != '='))
  let value := (body.dropWhile (· != '=')).tail
  let attached := body.contains '='
  match t.options.find? fun rule => rule.name == name with
  | some rule =>
    if rule.value = .nothing then
      if attached then .error (.needlessValue name) else (g.add rule "").map .given
    else if attached then (g.add rule (String.ofList value)).map .given
    else .ok (.wanting g rule)
  | none =>
    if name = "help" then (if attached then .error (.needlessValue name) else .ok .help)
    else if name = "version" ∧ t.versioned then
      (if attached then .error (.needlessValue name) else .ok .version)
    else .error (.unknownWord ("--" ++ name))

/-- The meaning of short options joined in one word, from what stands behind the hyphen. -/
def short (t : OptionTable) (g : Given) : List Char → Except UsageFault Meaning
  | [] => .ok (.given g)
  | c :: rest =>
    match t.options.find? fun rule => rule.short == some c with
    | some rule =>
      if rule.value = .nothing then
        match g.add rule "" with
        | .error fault => .error fault
        | .ok g => short t g rest
      else
        match rest with
        | [] => .ok (.wanting g rule)
        | '=' :: value => (g.add rule (String.ofList value)).map .given
        | value => (g.add rule (String.ofList value)).map .given
    | none =>
      if c = 'h' then .ok .help
      else if c = 'V' ∧ t.versioned then .ok .version
      else .error (.unknownWord (String.ofList ['-', c]))

/-- Whether a word could be an option. -/
def couldBeOption (word : String) : Bool :=
  match word.toList with
  | '-' :: _ :: _ => true
  | _ => false

/-- Reads words up to the end, a command or a request for help. -/
def scan (t : OptionTable) : Reading → List String → Except UsageFault (Reading × ScanEnd)
  | r, [] => .ok (r, .all)
  | r, word :: rest =>
    let read (meaning : Given → Except UsageFault Meaning) : Except UsageFault (Option Meaning) :=
      match r.given with
      | .ok g => (meaning g).map some
      | .error fault => .error fault
    let meaning : Except UsageFault (Option Meaning) :=
      match word.toList with
      | ['-', '-'] => .ok none
      | '-' :: '-' :: body => read fun g => t.long g body
      | '-' :: c :: body => read fun g => t.short g (c :: body)
      | _ => .ok none
    match meaning with
    | .error fault => .error fault
    | .ok (some .help) => .ok (r, .help)
    | .ok (some .version) => .ok (r, .version)
    | .ok (some (.given g)) => scan t ⟨g, none⟩ rest
    | .ok (some (.wanting g rule)) =>
      match rest with
      | [] => .error (.missingValue rule.name)
      | value :: rest =>
        if couldBeOption value then .error (.missingValue rule.name)
        else scan t ⟨g, some (rule, value)⟩ rest
    | .ok none =>
      if word = "--" then
        match rest with
        | [] => .ok (r, .all)
        | next :: _ => .error (.unknownWord next)
      else if t.commands.contains word then .ok (r, .command word rest)
      else .error (.unknownWord word)

/-- The first required option that has not been given. -/
def missing? (t : OptionTable) (g : Given) : Option String :=
  (t.options.find? fun rule => rule.required && !g.has rule.name).map OptionRule.name

end OptionTable

end Replay
