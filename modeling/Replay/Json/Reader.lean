import Replay.Json.Basic
import Replay.Number.Literal

/-!
# Reading JSON

A document is one value with blanks around it. A fault is told apart by where it lies: the text
`ended` too early, or it is `malformed`. The first fault from the left is the one reported.

Two ways of reading share one grammar. A *strict* reader refuses what denotes nothing (half a
surrogate pair, a number beyond every double) and lists and objects nested 128 deep. A *lenient*
reader keeps it as `Json.unreadable` and has no limit on nesting; it serves records whose unknown
members are skipped unread.

Numbers without a point and an exponent are integers if 64 bits hold them, except `-0`. All others
are doubles: the digits go into a 64-bit coefficient as far as it holds them, and the coefficient is
scaled by a power of ten in one rounded step, or in steps of `10^308` if the power is smaller.
-/

set_option autoImplicit false

namespace Replay.Json

/-- Why a text is not a JSON document. -/
inductive Fault
  | ended
  | malformed
deriving DecidableEq, Repr

/-- What is read from the front of a text, and the rest. -/
abbrev Scan (α : Type) := Except Fault (α × List Char)

/-- The blanks of JSON. -/
def isSpace (c : Char) : Bool := c == ' ' || c == '\t' || c == '\n' || c == '\r'

/-- Drops blanks. -/
def skipSpaces (s : List Char) : List Char := s.dropWhile isSpace

/-- The rest of a word, and the value that the word stands for. -/
def word (value : Json) : List Char → List Char → Scan Json
  | [], s => .ok (value, s)
  | _ :: _, [] => .error .ended
  | w :: ws, c :: s => if w = c then word value ws s else .error .malformed

/-! ## Numbers -/

/-- Takes digits into a coefficient for as long as 64 bits hold it: the coefficient, how many digits
were taken, and the rest. -/
def takeDigits (coefficient : Nat) : List Char → Nat × Nat × List Char
  | [] => (coefficient, 0, [])
  | c :: rest =>
    let next := 10 * coefficient + digitValue c
    if c.isDigit ∧ next ≤ Word.greatest then
      let (n, taken, more) := takeDigits next rest
      (n, taken + 1, more)
    else (coefficient, 0, c :: rest)

/-- A power of ten as a double. -/
def powerOfTen (k : Nat) : Binary64 := Decimal.toBinary64 false ⟨1, k⟩

/-- Scales a double by a power of ten, in at most `steps` steps of `10^-308` before the last one;
`none` if the result is beyond every double. -/
def scaleByTen : Nat → Binary64 → Int → Option Binary64
  | 0, x, _ => some x
  | steps + 1, x, e =>
    if e.natAbs ≤ 308 then
      if 0 ≤ e then
        let y := x.mul (powerOfTen e.toNat)
        if y.isFinite then some y else none
      else some (x.div (powerOfTen (-e).toNat))
    else if x.isZero then some x
    else if 0 ≤ e then none
    else scaleByTen steps (x.div (powerOfTen 308)) (e + 308)

/-- The double with a coefficient, an exponent and a sign. -/
def floatOf (negative : Bool) (coefficient : Nat) (exponent : Int) : Option Binary64 :=
  (scaleByTen 4 (.ofInt coefficient) exponent).map fun x => if negative then x.neg else x

/-- A number that has been read to its end: a double, or nothing if it is too large. -/
def floatValue (lenient : Bool) (x : Option Binary64) (rest : List Char) : Scan Json :=
  match x with
  | some x => .ok (.float x, rest)
  | none => if lenient then .ok (.unreadable, rest) else .error .malformed

/-- The part of a number after its `e`. An exponent beyond 31 bits makes the number zero, or too
large unless its coefficient is zero. -/
def exponentPart (lenient negative : Bool) (coefficient : Nat) (start : Int) (s : List Char) :
    Scan Json :=
  let (down, digits) := takeSign s
  match digits with
  | [] => .error .ended
  | c :: _ =>
    if c.isDigit then
      let n := digitsValue (digits.takeWhile Char.isDigit)
      let rest := digits.dropWhile Char.isDigit
      if twoTo 31 ≤ n then
        floatValue lenient (if coefficient ≠ 0 ∧ ¬down then none else some (.zero negative)) rest
      else
        let exponent := if down then start - (n : Int) else start + (n : Int)
        floatValue lenient (floatOf negative coefficient exponent) rest
    else .error .malformed

/-- The part of a number behind its digits, where the number is a double for sure. -/
def afterDigits (lenient negative : Bool) (coefficient : Nat) (exponent : Int) (s : List Char) :
    Scan Json :=
  match s with
  | 'e' :: rest => exponentPart lenient negative coefficient exponent rest
  | 'E' :: rest => exponentPart lenient negative coefficient exponent rest
  | rest => floatValue lenient (floatOf negative coefficient exponent) rest

/-- The part of a number behind its point. Digits that the coefficient cannot hold are dropped. -/
def fractionPart (lenient negative : Bool) (coefficient : Nat) (exponent : Int) (s : List Char) :
    Scan Json :=
  match takeDigits coefficient s with
  | (n, taken, rest) =>
    match rest with
    | [] => if taken = 0 then .error .ended else afterDigits lenient negative n (exponent - taken) []
    | c :: _ =>
      if taken = 0 ∧ ¬c.isDigit then .error .malformed
      else afterDigits lenient negative n (exponent - taken) (rest.dropWhile Char.isDigit)

/-- A number behind its sign. Digits before the point that the coefficient cannot hold raise the
exponent. -/
def unsignedNumber (lenient negative : Bool) (s : List Char) : Scan Json :=
  match s with
  | [] => .error .ended
  | c :: more =>
    if ¬c.isDigit then .error .malformed
    else if c = '0' ∧ (more.head?.any Char.isDigit) then .error .malformed
    else
      let (n, _, rest) := takeDigits 0 (c :: more)
      let dropped := (rest.takeWhile Char.isDigit).length
      let behind := rest.dropWhile Char.isDigit
      match behind with
      | '.' :: fraction => fractionPart lenient negative n dropped fraction
      | 'e' :: _ | 'E' :: _ => afterDigits lenient negative n dropped behind
      | _ =>
        if 0 < dropped then afterDigits lenient negative n dropped behind
        else if ¬negative then .ok (.int n, behind)
        else if n = 0 ∨ twoTo 63 < n then .ok (.float (Binary64.ofInt n).neg, behind)
        else .ok (.int (-(n : Int)), behind)

/-- A number. -/
def number (lenient : Bool) : List Char → Scan Json
  | '-' :: rest => unsignedNumber lenient true rest
  | s => unsignedNumber lenient false s

/-! ## Strings -/

/-- The value of a hexadecimal digit. -/
def hexValue? (c : Char) : Option Nat :=
  if c.isDigit then some (c.toNat - '0'.toNat)
  else if 'a' ≤ c ∧ c ≤ 'f' then some (c.toNat - 'a'.toNat + 10)
  else if 'A' ≤ c ∧ c ≤ 'F' then some (c.toNat - 'A'.toNat + 10)
  else none

/-- The four hexadecimal digits of an escape. The text has ended if fewer than four bytes remain. -/
def fourHex (s : List Char) : Scan Nat :=
  if (s.take 4).foldl (fun n c => n + c.utf8Size) 0 < 4 then .error .ended
  else match s with
    | a :: b :: c :: d :: rest =>
      match hexValue? a, hexValue? b, hexValue? c, hexValue? d with
      | some a, some b, some c, some d => .ok (((a * 16 + b) * 16 + c) * 16 + d, rest)
      | _, _, _, _ => .error .malformed
    | _ => .error .malformed

/-- Whether a code unit is the second half of a surrogate pair. -/
def isLowSurrogate (n : Nat) : Bool := decide (0xDC00 ≤ n) && decide (n ≤ 0xDFFF)

/-- Whether a code unit is the first half of a surrogate pair. -/
def isHighSurrogate (n : Nat) : Bool := decide (0xD800 ≤ n) && decide (n ≤ 0xDBFF)

/-- The second half of a surrogate pair whose first half has been read. -/
def lowSurrogate : List Char → Scan Nat
  | [] => .error .ended
  | '\\' :: [] => .error .ended
  | '\\' :: 'u' :: rest =>
    match fourHex rest with
    | .error fault => .error fault
    | .ok (n, more) => if isLowSurrogate n then .ok (n, more) else .error .malformed
  | _ => .error .malformed

/-- The character of a `\u` escape, or nothing for half a surrogate pair in a lenient reading. -/
def unicodeEscape (lenient : Bool) (s : List Char) : Scan (Option Char) :=
  match fourHex s with
  | .error fault => .error fault
  | .ok (n, rest) =>
    if isLowSurrogate n then
      if lenient then .ok (none, rest) else .error .malformed
    else if isHighSurrogate n then
      match lowSurrogate rest with
      | .ok (m, more) =>
        .ok (some (Char.ofNat ((n - 0xD800) * 0x400 + (m - 0xDC00) + 0x10000)), more)
      | .error fault => if lenient then .ok (none, rest) else .error fault
    else .ok (some (Char.ofNat n), rest)

/-- The character of an escape whose backslash has been read. -/
def escape (lenient : Bool) : List Char → Scan (Option Char)
  | [] => .error .ended
  | '"' :: rest => .ok (some '"', rest)
  | '\\' :: rest => .ok (some '\\', rest)
  | '/' :: rest => .ok (some '/', rest)
  | 'b' :: rest => .ok (some '\x08', rest)
  | 'f' :: rest => .ok (some '\x0c', rest)
  | 'n' :: rest => .ok (some '\n', rest)
  | 'r' :: rest => .ok (some '\r', rest)
  | 't' :: rest => .ok (some '\t', rest)
  | 'u' :: rest => unicodeEscape lenient rest
  | _ => .error .malformed

/-- A string whose opening quote has been read: its characters, or nothing if one of them is half a
surrogate pair. The budget bounds the number of characters. -/
def string (lenient : Bool) : Nat → List Char → Scan (Option (List Char))
  | 0, _ => .error .ended
  | _ + 1, [] => .error .ended
  | budget + 1, c :: rest =>
    if c = '"' then .ok (some [], rest)
    else if c = '\\' then
      match escape lenient rest with
      | .error fault => .error fault
      | .ok (d, more) =>
        match string lenient budget more with
        | .error fault => .error fault
        | .ok (cs, after) =>
          .ok (match d, cs with
            | some d, some cs => some (d :: cs)
            | _, _ => none, after)
    else if c.toNat < 0x20 then .error .malformed
    else
      match string lenient budget rest with
      | .error fault => .error fault
      | .ok (cs, after) => .ok (cs.map (c :: ·), after)

/-! ## Values -/

mutual

/-- A value, with a budget for the recursion and the nesting that is left. -/
def value (lenient : Bool) : Nat → Nat → List Char → Scan Json
  | 0, _, _ => .error .ended
  | budget + 1, nesting, s =>
    match skipSpaces s with
    | [] => .error .ended
    | 'n' :: rest => word .null "ull".toList rest
    | 't' :: rest => word (.bool true) "rue".toList rest
    | 'f' :: rest => word (.bool false) "alse".toList rest
    | '"' :: rest =>
      match string lenient budget rest with
      | .error fault => .error fault
      | .ok (some cs, after) => .ok (.text (String.ofList cs), after)
      | .ok (none, after) => .ok (.unreadable, after)
    | '[' :: rest =>
      if nesting ≤ 1 then .error .malformed
      else match skipSpaces rest with
        | ']' :: after => .ok (.list [], after)
        | first =>
          match items lenient budget (nesting - 1) first with
          | .error fault => .error fault
          | .ok (js, after) => .ok (.list js, after)
    | '{' :: rest =>
      if nesting ≤ 1 then .error .malformed
      else match skipSpaces rest with
        | '}' :: after => .ok (.object [], after)
        | first =>
          match members lenient budget (nesting - 1) first with
          | .error fault => .error fault
          | .ok (some ms, after) => .ok (.object ms, after)
          | .ok (none, after) => .ok (.unreadable, after)
    | s => number lenient s

/-- The items of a list that has at least one, up to its closing bracket. -/
def items (lenient : Bool) : Nat → Nat → List Char → Scan (List Json)
  | 0, _, _ => .error .ended
  | budget + 1, nesting, s =>
    match value lenient budget nesting s with
    | .error fault => .error fault
    | .ok (j, rest) =>
      match skipSpaces rest with
      | [] => .error .ended
      | ']' :: after => .ok ([j], after)
      | ',' :: more =>
        match skipSpaces more with
        | ']' :: _ => .error .malformed
        | next =>
          match items lenient budget nesting next with
          | .error fault => .error fault
          | .ok (js, after) => .ok (j :: js, after)
      | _ => .error .malformed

/-- The members of an object that has at least one, up to its closing brace; nothing if a name
among them denotes no text. -/
def members (lenient : Bool) : Nat → Nat → List Char → Scan (Option (List (String × Json)))
  | 0, _, _ => .error .ended
  | budget + 1, nesting, s =>
    match s with
    | [] => .error .ended
    | '"' :: named =>
      match string lenient budget named with
      | .error fault => .error fault
      | .ok (name, rest) =>
        match skipSpaces rest with
        | [] => .error .ended
        | ':' :: behind =>
          match value lenient budget nesting behind with
          | .error fault => .error fault
          | .ok (j, rest) =>
            match skipSpaces rest with
            | [] => .error .ended
            | '}' :: after => .ok (name.map fun cs => [(String.ofList cs, j)], after)
            | ',' :: more =>
              match members lenient budget nesting (skipSpaces more) with
              | .error fault => .error fault
              | .ok (ms, after) =>
                .ok (match name, ms with
                  | some cs, some ms => some ((String.ofList cs, j) :: ms)
                  | _, _ => none, after)
            | _ => .error .malformed
        | _ => .error .malformed
    | _ => .error .malformed

end

/-- One value with blanks around it and nothing else. -/
def document (lenient : Bool) (nesting : Nat) (s : List Char) : Except Fault Json :=
  match value lenient (2 * s.length + 2) nesting s with
  | .error fault => .error fault
  | .ok (j, rest) => if skipSpaces rest = [] then .ok j else .error .malformed

/-- The strict reading of a text, nested at most 127 deep. -/
def read (s : String) : Except Fault Json := document false 128 s.toList

/-- The lenient reading of a text. -/
def readLenient (s : String) : Except Fault Json := document true (s.toList.length + 2) s.toList

end Replay.Json
