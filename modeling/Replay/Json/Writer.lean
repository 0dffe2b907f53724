import Replay.Json.Basic

/-!
# Writing JSON

Two layouts of one grammar: compact, without any blank, and indented, two blanks a level. Strings
escape quotes, backslashes and control characters only. A double is written with the fewest digits
that read back, with an exponent below `10^-5` and from `10^16` up, and a whole double keeps `.0`;
what is no finite double is `null`.
-/

set_option autoImplicit false

namespace Replay.Json

/-- How doubles are written: the sixteen powers of ten from `10^0` and the five below it have no
exponent, and a tie between two last digits goes to the even one. -/
def floatFormat : FloatFormat := ⟨.toEven, some (-5, 15), ".0".toList⟩

/-- A digit of a small number in base sixteen. -/
def hexDigit (n : Nat) : Char := (Nat.digitChar n)

/-- A character inside a string. -/
def escaped (c : Char) : List Char :=
  if c = '"' then ['\\', '"']
  else if c = '\\' then ['\\', '\\']
  else if c = '\x08' then ['\\', 'b']
  else if c = '\x0c' then ['\\', 'f']
  else if c = '\n' then ['\\', 'n']
  else if c = '\r' then ['\\', 'r']
  else if c = '\t' then ['\\', 't']
  else if c.toNat < 0x20 then
    ['\\', 'u', '0', '0', hexDigit (c.toNat / 16), hexDigit (c.toNat % 16)]
  else [c]

/-- A string with its quotes. -/
def writeText (s : String) : List Char := '"' :: (s.toList.flatMap escaped ++ ['"'])

/-- An integer in decimal. -/
def writeInt : Int → List Char
  | .ofNat n => Nat.toDigits 10 n
  | .negSucc n => '-' :: Nat.toDigits 10 (n + 1)

/-- A double, or `null` if it is infinite or no number. -/
def writeFloat (x : Binary64) : List Char :=
  if x.isFinite then floatFormat.write x else "null".toList

/-- The two layouts. -/
inductive Layout
  | compact
  | indented
deriving DecidableEq, Repr

namespace Layout

/-- What stands before an item or a closing bracket at a level. -/
def lineBreak : Layout → Nat → List Char
  | compact, _ => []
  | indented, level => '\n' :: List.replicate (2 * level) ' '

/-- What stands between a member's name and its value. -/
def colon : Layout → List Char
  | compact => [':']
  | indented => [':', ' ']

end Layout

mutual

/-- A value at a level of indentation. -/
def write (layout : Layout) (level : Nat) : Json → List Char
  | null => "null".toList
  | bool true => "true".toList
  | bool false => "false".toList
  | int i => writeInt i
  | float x => writeFloat x
  | text s => writeText s
  | list [] => ['[', ']']
  | list (j :: rest) =>
    '[' :: (layout.lineBreak (level + 1) ++ write layout (level + 1) j ++
      writeItems layout (level + 1) rest ++ layout.lineBreak level ++ [']'])
  | object [] => ['\x7b', '\x7d']
  | object ((name, j) :: rest) =>
    '\x7b' :: (layout.lineBreak (level + 1) ++ writeText name ++ layout.colon ++
      write layout (level + 1) j ++ writeMembers layout (level + 1) rest ++
      layout.lineBreak level ++ ['\x7d'])
  | unreadable => "null".toList

/-- The items behind the first one. -/
def writeItems (layout : Layout) (level : Nat) : List Json → List Char
  | [] => []
  | j :: rest =>
    ',' :: (layout.lineBreak level ++ write layout level j ++ writeItems layout level rest)

/-- The members behind the first one. -/
def writeMembers (layout : Layout) (level : Nat) : List (String × Json) → List Char
  | [] => []
  | (name, j) :: rest =>
    ',' :: (layout.lineBreak level ++ writeText name ++ layout.colon ++ write layout level j ++
      writeMembers layout level rest)

end

/-- The text of a value without any blank. -/
def compact (j : Json) : String := String.ofList (j.write .compact 0)

/-- The text of a value over several lines. -/
def indented (j : Json) : String := String.ofList (j.write .indented 0)

end Replay.Json
