/-!
# Text

Cutting and joining of texts, as functions on lists of characters. No function here counts bytes or
indexes into a text, so none can cut a character in two.

* `trim` — drops blanks, the characters with the property *White_Space*, at both ends
* `splitAll`, `cut?`, `cutLast?`, `cutAt?` — pieces around a separator
* `afterStart?`, `beforeEnd?`, `quoted?` — what remains when a given start, end or pair of quotes
  is taken off
* `replaceAll`, `lines`
-/

set_option autoImplicit false

namespace Replay.Text

/-! ## Blanks -/

/-- Whether a character is white space in any script. -/
def isBlank (c : Char) : Bool :=
  let n := c.toNat
  (decide (9 ≤ n) && decide (n ≤ 13)) || n == 32 || n == 0x85 || n == 0xA0 || n == 0x1680 ||
  (decide (0x2000 ≤ n) && decide (n ≤ 0x200A)) || n == 0x2028 || n == 0x2029 || n == 0x202F ||
  n == 0x205F || n == 0x3000

/-- Drops the longest end of a text whose characters all satisfy `p`. -/
def dropEndWhile (p : Char → Bool) (s : List Char) : List Char := (s.reverse.dropWhile p).reverse

/-- Drops blanks at the start. -/
def trimStart (s : List Char) : List Char := s.dropWhile isBlank

/-- Drops blanks at the end. -/
def trimEnd (s : List Char) : List Char := dropEndWhile isBlank s

/-- Drops blanks at both ends. -/
def trim (s : List Char) : List Char := trimEnd (trimStart s)

/-! ## Starts, ends and quotes -/

/-- What follows a given start. -/
def afterStart? : List Char → List Char → Option (List Char)
  | [], s => some s
  | _ :: _, [] => none
  | p :: ps, c :: s => if p = c then afterStart? ps s else none

/-- What precedes a given end. -/
def beforeEnd? (ending s : List Char) : Option (List Char) :=
  (afterStart? ending.reverse s.reverse).map List.reverse

/-- What stands between a pair of equal quotes, double or single. -/
def quoted? : List Char → Option (List Char)
  | [] => none
  | q :: rest =>
    if (q = '"' ∨ q = '\'') ∧ rest.getLast? = some q then some rest.dropLast else none

/-- A trimmed text without the quotes around it, if it has any. -/
def unquote (s : List Char) : List Char := (quoted? (trim s)).getD (trim s)

/-! ## Pieces -/

/-- The pieces between the occurrences of a separator; one more than there are separators. -/
def splitAll (sep : Char) : List Char → List (List Char)
  | [] => [[]]
  | c :: rest =>
    if c = sep then [] :: splitAll sep rest
    else match splitAll sep rest with
      | [] => [[c]]
      | piece :: pieces => (c :: piece) :: pieces

/-- What stands before and after the first occurrence of a separator. -/
def cut? (sep : Char) : List Char → Option (List Char × List Char)
  | [] => none
  | c :: rest =>
    if c = sep then some ([], rest)
    else (cut? sep rest).map fun parts => (c :: parts.1, parts.2)

/-- What stands before and after the last occurrence of a separator. -/
def cutLast? (sep : Char) (s : List Char) : Option (List Char × List Char) :=
  (cut? sep s.reverse).map fun parts => (parts.2.reverse, parts.1.reverse)

/-- What stands before and after the first occurrence of a pattern. -/
def cutAt? (pattern : List Char) : List Char → Option (List Char × List Char)
  | [] => if pattern = [] then some ([], []) else none
  | c :: rest =>
    match afterStart? pattern (c :: rest) with
    | some after => some ([], after)
    | none => (cutAt? pattern rest).map fun parts => (c :: parts.1, parts.2)

/-- Pieces joined with a separator between them. -/
def join (sep : List Char) : List (List Char) → List Char
  | [] => []
  | [piece] => piece
  | piece :: pieces => piece ++ sep ++ join sep pieces

/-- Replaces the occurrences of a pattern from left to right; the first `skip` characters belong to
an occurrence that has been replaced already. -/
def replaceFrom (pattern replacement : List Char) : Nat → List Char → List Char
  | _, [] => []
  | skip + 1, _ :: rest => replaceFrom pattern replacement skip rest
  | 0, c :: rest =>
    if pattern ≠ [] ∧ (afterStart? pattern (c :: rest)).isSome then
      replacement ++ replaceFrom pattern replacement (pattern.length - 1) rest
    else c :: replaceFrom pattern replacement 0 rest

/-- Replaces every occurrence of a pattern. -/
def replaceAll (pattern replacement s : List Char) : List Char :=
  replaceFrom pattern replacement 0 s

/-- The lines of a text. A line ends with a line feed, before which one carriage return is dropped;
the text after the last line feed is a line unless it is empty. -/
def lines (s : List Char) : List (List Char) :=
  let pieces := splitAll '\n' s
  let ended := pieces.dropLast.map fun line => (beforeEnd? ['\r'] line).getD line
  match pieces.getLast? with
  | some (c :: rest) => ended ++ [c :: rest]
  | _ => ended

end Replay.Text
