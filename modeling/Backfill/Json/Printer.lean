import Backfill.Json
import Backfill.Decimal.Shortest

/-!
# Writing JSON

The text of a value has no blanks; fields stand in the order in which the value holds them.
Characters outside ASCII are written as they are, control characters as escapes.

## Main definitions

* `Json.escape` — one character of a string.
* `Json.render` — the text of a value; `Json.chars` is the same as a list of characters.
* `Json.renderIndented` — the text of a value over several lines, indented by two blanks.
-/

namespace Backfill

namespace Json

/-- The hexadecimal digit of a number below sixteen, in lower case. -/
def hexDigit (n : Nat) : Char := Nat.digitChar n

/-- A character of a string as it is written between the quotes. -/
def escape (c : Char) : List Char :=
  if c = '"' then ['\\', '"']
  else if c = '\\' then ['\\', '\\']
  else if c.toNat = 8 then ['\\', 'b']
  else if c.toNat = 9 then ['\\', 't']
  else if c.toNat = 10 then ['\\', 'n']
  else if c.toNat = 12 then ['\\', 'f']
  else if c.toNat = 13 then ['\\', 'r']
  else if c.toNat < 32 then
    ['\\', 'u', '0', '0', hexDigit (c.toNat / 16), hexDigit (c.toNat % 16)]
  else [c]

/-- A string with its quotes. -/
def quoted (text : String) : List Char := '"' :: text.toList.flatMap escape ++ ['"']

/-- The digits of an integer, after a minus sign if it is negative. -/
def integerChars : Int → List Char
  | .ofNat n => Nat.toDigits 10 n
  | .negSucc n => '-' :: Nat.toDigits 10 (n + 1)

mutual

/-- The text of a value. -/
def chars : Json → List Char
  | .null => ['n', 'u', 'l', 'l']
  | .bool true => ['t', 'r', 'u', 'e']
  | .bool false => ['f', 'a', 'l', 's', 'e']
  | .int value => integerChars value
  | .real bits => Decimal.ofFloatBits bits
  | .str text => quoted text
  | .arr [] => ['[', ']']
  | .arr (item :: rest) => '[' :: chars item ++ moreItems rest
  | .obj [] => ['\x7b', '\x7d']
  | .obj ((key, value) :: rest) => '\x7b' :: quoted key ++ ':' :: chars value ++ moreFields rest

/-- The text of an array from behind an item on. -/
def moreItems : List Json → List Char
  | [] => [']']
  | item :: rest => ',' :: chars item ++ moreItems rest

/-- The text of an object from behind a field on. -/
def moreFields : List (String × Json) → List Char
  | [] => ['\x7d']
  | (key, value) :: rest => ',' :: quoted key ++ ':' :: chars value ++ moreFields rest

end

/-- The text of a value. -/
def render (value : Json) : String := String.ofList value.chars

/-! ### Several lines -/

/-- A new line at the given level of indentation. -/
def newline (level : Nat) : List Char := '\n' :: List.replicate (2 * level) ' '

mutual

/-- The text of a value over several lines, its first line already indented. -/
def indented (level : Nat) : Json → List Char
  | .arr (item :: rest) =>
    '[' :: newline (level + 1) ++ indented (level + 1) item ++ indentedItems level rest
  | .obj ((key, value) :: rest) =>
    '\x7b' :: newline (level + 1) ++ quoted key ++ ':' :: ' ' :: indented (level + 1) value ++
      indentedFields level rest
  | value => value.chars

/-- The lines of an array from behind an item on. -/
def indentedItems (level : Nat) : List Json → List Char
  | [] => newline level ++ [']']
  | item :: rest =>
    ',' :: newline (level + 1) ++ indented (level + 1) item ++ indentedItems level rest

/-- The lines of an object from behind a field on. -/
def indentedFields (level : Nat) : List (String × Json) → List Char
  | [] => newline level ++ ['\x7d']
  | (key, value) :: rest =>
    ',' :: newline (level + 1) ++ quoted key ++ ':' :: ' ' :: indented (level + 1) value ++
      indentedFields level rest

end

/-- The text of a value over several lines, indented by two blanks for each level. -/
def renderIndented (value : Json) : String := String.ofList (value.indented 0)

end Json

end Backfill
