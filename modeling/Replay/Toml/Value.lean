import Replay.Calendar
import Replay.Json.Reader

/-!
# TOML values

The values of a TOML document are read into the value type of JSON: tables become objects and arrays
become lists. A date or a time becomes an object without members: nothing that is read from a
document here is one, and as a table it has nothing to say.

Every function takes something from the front of a text, and gives it with the rest; or it fails.
-/

set_option autoImplicit false

namespace Replay.Toml

/-! ## Blanks, comments and line ends -/

/-- The blanks inside a line. -/
def isSpace (c : Char) : Bool := c == ' ' || c == '\t'

/-- Drops blanks. -/
def skipSpaces (s : List Char) : List Char := s.dropWhile isSpace

/-- Whether a character may stand in a comment or in a string: no control character but a tab. -/
def isPrintable (c : Char) : Bool := c == '\t' || (decide (0x20 ≤ c.toNat) && c.toNat != 0x7F)

/-- Drops a comment, if there is one. -/
def skipComment : List Char → List Char
  | '#' :: rest => rest.dropWhile isPrintable
  | s => s

/-- What follows a line end. -/
def lineEnd? : List Char → Option (List Char)
  | '\n' :: rest => some rest
  | '\r' :: '\n' :: rest => some rest
  | _ => none

/-- Drops blanks, comments and line ends, with a budget for the lines. -/
def skipLines : Nat → List Char → List Char
  | 0, s => s
  | budget + 1, s =>
    let s := skipComment (skipSpaces s)
    match lineEnd? s with
    | some rest => skipLines budget rest
    | none => s

/-! ## Strings -/

/-- The value of hexadecimal digits. -/
def hexNumber? (s : List Char) : Option Nat :=
  s.foldl (fun n c => n.bind fun n => (Json.hexValue? c).map fun d => 16 * n + d) (some 0)

/-- The character of an escape with a number of hexadecimal digits. -/
def codeEscape (count : Nat) (s : List Char) : Option (Char × List Char) :=
  let digits := s.take count
  if digits.length < count then none
  else match hexNumber? digits with
    | some n => if n.isValidChar then some (Char.ofNat n, s.drop count) else none
    | none => none

/-- The character of an escape whose backslash has been taken. -/
def escape : List Char → Option (Char × List Char)
  | 'b' :: rest => some ('\x08', rest)
  | 't' :: rest => some ('\t', rest)
  | 'n' :: rest => some ('\n', rest)
  | 'f' :: rest => some ('\x0c', rest)
  | 'r' :: rest => some ('\r', rest)
  | '"' :: rest => some ('"', rest)
  | '\\' :: rest => some ('\\', rest)
  | 'u' :: rest => codeEscape 4 rest
  | 'U' :: rest => codeEscape 8 rest
  | _ => none

/-- The rest of a string in double quotes on one line. -/
def basicString : Nat → List Char → Option (List Char × List Char)
  | 0, _ => none
  | _ + 1, [] => none
  | budget + 1, c :: rest =>
    if c = '"' then some ([], rest)
    else if c = '\\' then do
      let (d, rest) ← escape rest
      let (cs, rest) ← basicString budget rest
      some (d :: cs, rest)
    else if isPrintable c then do
      let (cs, rest) ← basicString budget rest
      some (c :: cs, rest)
    else none

/-- The rest of a string in single quotes on one line. -/
def literalString (s : List Char) : Option (List Char × List Char) :=
  match s.dropWhile fun c => isPrintable c && c != '\'' with
  | '\'' :: rest => some (s.takeWhile fun c => isPrintable c && c != '\'', rest)
  | _ => none

/-- Drops the line end right behind an opening triple quote. -/
def dropFirstLineEnd (s : List Char) : List Char := (lineEnd? s).getD s

/-- Drops blanks and line ends, with a budget for the lines. -/
def skipBlankLines : Nat → List Char → List Char
  | 0, s => s
  | budget + 1, s =>
    let s := skipSpaces s
    match lineEnd? s with
    | some rest => skipBlankLines budget rest
    | none => s

/-- What follows a backslash at the end of a line: the next character that is neither a blank nor
part of a line end. -/
def continuedLine? (s : List Char) : Option (List Char) :=
  (lineEnd? (skipSpaces s)).map fun rest => skipBlankLines (rest.length + 1) rest

/-- Up to five quotes that end a string over several lines: those beyond three belong to it. -/
def closingQuotes? (q : Char) (s : List Char) : Option (List Char × List Char) :=
  let run := (s.takeWhile (· == q)).length
  if run < 3 then none
  else
    let own := min (run - 3) 2
    some (List.replicate own q, s.drop (own + 3))

/-- The rest of a string in triple double quotes. -/
def multilineBasic : Nat → List Char → Option (List Char × List Char)
  | 0, _ => none
  | _ + 1, [] => none
  | budget + 1, c :: rest =>
    match closingQuotes? '"' (c :: rest) with
    | some closed => some closed
    | none =>
      if c = '\\' then
        match continuedLine? rest with
        | some rest => multilineBasic budget rest
        | none => do
          let (d, rest) ← escape rest
          let (cs, rest) ← multilineBasic budget rest
          some (d :: cs, rest)
      else match lineEnd? (c :: rest) with
        | some rest => do
          let (cs, rest) ← multilineBasic budget rest
          some ('\n' :: cs, rest)
        | none =>
          if isPrintable c then do
            let (cs, rest) ← multilineBasic budget rest
            some (c :: cs, rest)
          else none

/-- The rest of a string in triple single quotes. -/
def multilineLiteral : Nat → List Char → Option (List Char × List Char)
  | 0, _ => none
  | _ + 1, [] => none
  | budget + 1, c :: rest =>
    match closingQuotes? '\'' (c :: rest) with
    | some closed => some closed
    | none =>
      match lineEnd? (c :: rest) with
      | some rest => do
        let (cs, rest) ← multilineLiteral budget rest
        some ('\n' :: cs, rest)
      | none =>
        if isPrintable c then do
          let (cs, rest) ← multilineLiteral budget rest
          some (c :: cs, rest)
        else none

/-- A string of any kind. -/
def string : List Char → Option (List Char × List Char)
  | '"' :: '"' :: '"' :: rest => multilineBasic (rest.length + 1) (dropFirstLineEnd rest)
  | '\'' :: '\'' :: '\'' :: rest => multilineLiteral (rest.length + 1) (dropFirstLineEnd rest)
  | '"' :: rest => basicString (rest.length + 1) rest
  | '\'' :: rest => literalString rest
  | _ => none

/-! ## Keys -/

/-- Whether a character may stand in a key without quotes. -/
def isBare (c : Char) : Bool := c.isAlphanum || c == '_' || c == '-'

/-- One part of a key. -/
def simpleKey (s : List Char) : Option (String × List Char) :=
  match s with
  | '"' :: rest => (basicString (rest.length + 1) rest).map fun t => (String.ofList t.1, t.2)
  | '\'' :: rest => (literalString rest).map fun t => (String.ofList t.1, t.2)
  | _ =>
    let bare := s.takeWhile isBare
    if bare = [] then none else some (String.ofList bare, s.dropWhile isBare)

/-- The parts of a key, with points between them; at most as many as the number says. -/
def keyParts : Nat → List Char → Option (List String × List Char)
  | 0, _ => none
  | most + 1, s => do
    let (part, rest) ← simpleKey (skipSpaces s)
    match skipSpaces rest with
    | '.' :: more => do
      let (parts, rest) ← keyParts most more
      some (part :: parts, rest)
    | rest => some ([part], rest)

/-- How deep tables and arrays may lie inside each other, the document itself not counted. -/
def depthLimit : Nat := 79

/-- A key: a path of parts, not deeper than tables may lie. -/
def key (s : List Char) : Option (List String × List Char) := keyParts depthLimit s

/-! ## Numbers, dates and times -/

/-- Digits with single underscores between them. -/
def digitRun (isDigit : Char → Bool) : List Char → Option (List Char × List Char)
  | [] => none
  | c :: rest =>
    if !isDigit c then none
    else match rest with
      | '_' :: more => (digitRun isDigit more).map fun t => (c :: t.1, t.2)
      | more =>
        match digitRun isDigit more with
        | some (cs, rest) => some (c :: cs, rest)
        | none => some ([c], more)

/-- Digits in a base, with the letters for those above nine. -/
def isDigitOf (base : Nat) (c : Char) : Bool :=
  (Json.hexValue? c).any fun d => decide (d < base)

/-- The value of digits in a base. -/
def valueIn (base : Nat) (digits : List Char) : Nat :=
  digits.foldl (fun n c => base * n + (Json.hexValue? c).getD 0) 0

/-- The digits of a decimal number, without a nought in front of others. -/
def wholePart (s : List Char) : Option (List Char × List Char) :=
  match s with
  | '0' :: rest => some (['0'], rest)
  | _ => digitRun Char.isDigit s

/-- An integer, as far as 64 bits with a sign hold it. -/
def signedInteger (negative : Bool) (n : Nat) (rest : List Char) : Option (Json × List Char) :=
  let i : Int := if negative then -(n : Int) else (n : Int)
  if Word.leastInt ≤ i ∧ i ≤ Word.greatestInt then some (.int i, rest) else none

/-- An integer. -/
def integer (s : List Char) : Option (Json × List Char) :=
  let based (base : Nat) (digits : List Char) : Option (Json × List Char) := do
    let (ds, rest) ← digitRun (isDigitOf base) digits
    signedInteger false (valueIn base ds) rest
  match s with
  | '0' :: 'x' :: digits => based 16 digits
  | '0' :: 'o' :: digits => based 8 digits
  | '0' :: 'b' :: digits => based 2 digits
  | _ => do
    let (negative, digits) := takeSign s
    let (ds, rest) ← wholePart digits
    signedInteger negative (digitsValue ds) rest

/-- The exponent of a decimal. -/
def exponent (s : List Char) : Option (Int × List Char) :=
  match s with
  | e :: rest =>
    if e = 'e' ∨ e = 'E' then do
      let (negative, digits) := takeSign rest
      let (ds, rest) ← digitRun Char.isDigit digits
      let n := digitsValue ds
      some (if negative then -(n : Int) else (n : Int), rest)
    else none
  | [] => none

/-- A decimal with a point or an exponent; it may not be infinite. -/
def decimal (s : List Char) : Option (Json × List Char) := do
  let (negative, digits) := takeSign s
  let (whole, rest) ← wholePart digits
  let (coefficient, places, e, rest) ← (match rest with
    | '.' :: more => do
      let (fraction, rest) ← digitRun Char.isDigit more
      match exponent rest with
      | some (e, rest) => some (digitsValue (whole ++ fraction), fraction.length, e, rest)
      | none => some (digitsValue (whole ++ fraction), fraction.length, 0, rest)
    | more => (exponent more).map fun t => (digitsValue whole, 0, t.1, t.2))
  let x := Decimal.toBinary64 negative ⟨coefficient, e - (places : Int)⟩
  if x = .infinite false then none else some (.float x, rest)

/-- An infinity or "not a number". -/
def specialFloat (s : List Char) : Option (Json × List Char) :=
  let (negative, name) := takeSign s
  match name with
  | 'i' :: 'n' :: 'f' :: rest => some (.float (.infinite negative), rest)
  | 'n' :: 'a' :: 'n' :: rest => some (.float .nan, rest)
  | _ => none

/-- Two digits with a value between two bounds. -/
def twoDigits (low high : Nat) (s : List Char) : Option (Nat × List Char) :=
  match s with
  | a :: b :: rest =>
    let n := digitsValue [a, b]
    if a.isDigit ∧ b.isDigit ∧ low ≤ n ∧ n ≤ high then some (n, rest) else none
  | _ => none

/-- What follows a character. -/
def after (c : Char) : List Char → Option (List Char)
  | d :: rest => if d = c then some rest else none
  | [] => none

/-- A date. -/
def date (s : List Char) : Option (List Char) := do
  let year := s.take 4
  if year.length = 4 ∧ year.all Char.isDigit then
    let rest ← after '-' (s.drop 4)
    let (month, rest) ← twoDigits 1 12 rest
    let rest ← after '-' rest
    let (_, rest) ← twoDigits 1 (CalendarTime.daysIn (digitsValue year) month) rest
    some rest
  else none

/-- A time of day. -/
def timeOfDay (s : List Char) : Option (List Char) := do
  let (_, rest) ← twoDigits 0 23 s
  let rest ← after ':' rest
  let (_, rest) ← twoDigits 0 59 rest
  let rest ← after ':' rest
  let (_, rest) ← twoDigits 0 60 rest
  match rest with
  | '.' :: c :: more => if c.isDigit then some (more.dropWhile Char.isDigit) else none
  | '.' :: [] => none
  | rest => some rest

/-- The offset of a time from universal time. -/
def offset : List Char → Option (List Char)
  | 'Z' :: rest => some rest
  | 'z' :: rest => some rest
  | sign :: rest =>
    if sign = '+' ∨ sign = '-' then do
      let (_, rest) ← twoDigits 0 23 rest
      let rest ← after ':' rest
      let (_, rest) ← twoDigits 0 59 rest
      some rest
    else none
  | [] => none

/-- A date, a time, or both. -/
def moment (s : List Char) : Option (Json × List Char) :=
  match date s with
  | some rest =>
    let timed := match rest with
      | d :: more => if d = 'T' ∨ d = 't' ∨ d = ' ' then timeOfDay more else none
      | [] => none
    match timed with
    | some rest => some (.object [], (offset rest).getD rest)
    | none => some (.object [], rest)
  | none => (timeOfDay s).map fun rest => (.object [], rest)

/-- A number, a date or a time. -/
def numberOrMoment (s : List Char) : Option (Json × List Char) :=
  (moment s).or ((decimal s).or ((specialFloat s).or (integer s)))

end Replay.Toml
