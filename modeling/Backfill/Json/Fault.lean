import Backfill.Text.Utf8

/-!
# Faults of a JSON text

A reader stops at the first flaw of a text.  It sees only what is left of the text, so it
tells the place by the number of bytes that follow; line and column are known once the whole
text is at hand.

## Main definitions

* `Json.Flaw` — what is wrong with a text; `Json.Flaw.message` says it in words.
* `Json.Place` — a line and a column.
* `Json.Fault` — a flaw, and where it is noticed.
* `Json.Read` — what a reader returns: a result and the glyphs behind it, or a fault.
* `Json.skipBlank` — the text without the blanks in front.

## Main results

* `Json.Place.line_le_line_after` — going on never leads to an earlier line.
-/

namespace Backfill

namespace Json

/-- What is wrong with a text. -/
inductive Flaw
  /-- The text ends inside an array. -/
  | endInList
  /-- The text ends inside an object. -/
  | endInObject
  /-- The text ends inside a string. -/
  | endInString
  /-- The text ends where a value is due, or inside one. -/
  | endInValue
  | colonExpected
  /-- An item of an array is followed neither by another one nor by the end. -/
  | itemEndExpected
  /-- A field of an object is followed neither by another one nor by the end. -/
  | fieldEndExpected
  /-- A word starts like one that stands for a value and goes on differently. -/
  | wordExpected
  | valueExpected
  /-- A field of an object does not start with a string. -/
  | nameExpected
  | badEscape
  | badNumber
  | numberTooLarge
  /-- A string holds bytes that are no text. -/
  | badCharacter
  | controlCharacter
  /-- One half of a pair of surrogates stands where the other half or none is due. -/
  | loneSurrogate
  /-- The first half of a pair of surrogates is followed by something else. -/
  | brokenPair
  | trailingComma
  /-- Something follows the value. -/
  | trailingText
  /-- Arrays and objects are nested too deeply. -/
  | tooDeep
  /-- The text is JSON, but not a value of the shape expected. -/
  | wrongShape
deriving DecidableEq, Repr

namespace Flaw

/-- Whether more text could mend it. -/
def isEnd : Flaw → Bool
  | .endInList | .endInObject | .endInString | .endInValue => true
  | _ => false

/-- The flaw as it is told to the user. -/
def message : Flaw → String
  | .endInList => "EOF while parsing a list"
  | .endInObject => "EOF while parsing an object"
  | .endInString => "EOF while parsing a string"
  | .endInValue => "EOF while parsing a value"
  | .colonExpected => "expected `:`"
  | .itemEndExpected => "expected `,` or `]`"
  | .fieldEndExpected => "expected `,` or `\x7d`"
  | .wordExpected => "expected ident"
  | .valueExpected => "expected value"
  | .nameExpected => "key must be a string"
  | .badEscape => "invalid escape"
  | .badNumber => "invalid number"
  | .numberTooLarge => "number out of range"
  | .badCharacter => "invalid unicode code point"
  | .controlCharacter => "control character (\\u0000-\\u001F) found while parsing a string"
  | .loneSurrogate => "lone leading surrogate in hex escape"
  | .brokenPair => "unexpected end of hex escape"
  | .trailingComma => "trailing comma"
  | .trailingText => "trailing characters"
  | .tooDeep => "recursion limit exceeded"
  | .wrongShape => "the value does not have the expected shape"

end Flaw

/-- A place in a text.  Lines are counted from one; the column is the number of bytes that
the line has up to there. -/
structure Place where
  line : Nat
  column : Nat
deriving DecidableEq, Repr

namespace Place

/-- The place in front of a text. -/
def start : Place := ⟨1, 0⟩

/-- The place behind the first `count` bytes of a text that starts at `place`. -/
def after (place : Place) (count : Nat) : List Glyph → Place
  | [] => place
  | glyph :: rest =>
    if count = 0 then place
    else if glyph = some '\n' then after ⟨place.line + 1, 0⟩ (count - 1) rest
    else
      let bytes := min count (Glyph.size [glyph])
      after ⟨place.line, place.column + bytes⟩ (count - bytes) rest

/-- Going on never leads to an earlier line. -/
theorem line_le_line_after (place : Place) (count : Nat) (text : List Glyph) :
    place.line ≤ (place.after count text).line := by
  induction text generalizing place count with
  | nil => exact Nat.le_refl _
  | cons glyph rest ih =>
    simp only [after]
    split
    · exact Nat.le_refl _
    · split
      · exact Nat.le_trans (Nat.le_succ place.line) (ih ⟨place.line + 1, 0⟩ _)
      · exact ih ⟨place.line, place.column + min count (Glyph.size [glyph])⟩ _

end Place

/-- The flaw as it is told to the user, with its place. -/
def Flaw.messageAt (flaw : Flaw) (place : Place) : String :=
  s!"{flaw.message} at line {place.line} column {place.column}"

/-- A flaw, and how many bytes of the text follow the place where it is noticed. -/
structure Fault where
  flaw : Flaw
  left : Nat
deriving DecidableEq, Repr

namespace Fault

/-- The flaw is noticed behind the first `count` bytes of a text. -/
def behind (flaw : Flaw) (count : Nat) (text : List Glyph) : Fault :=
  ⟨flaw, Glyph.size text - count⟩

/-- The flaw is noticed with the first byte of a text, or at its end. -/
def facing (flaw : Flaw) (text : List Glyph) : Fault := behind flaw 1 text

/-- The place in the whole text. -/
def place (fault : Fault) (text : List Glyph) : Place :=
  Place.start.after (Glyph.size text - fault.left) text

/-- The fault as it is told to the user. -/
def message (fault : Fault) (text : List Glyph) : String :=
  fault.flaw.messageAt (fault.place text)

end Fault

/-- What a reader returns: a result and the glyphs behind it, or a fault. -/
abbrev Read (α : Type) := Except Fault (α × List Glyph)

/-- Whether the glyph is one of the four blanks that may stand between tokens. -/
def isBlank (glyph : Glyph) : Bool :=
  glyph == some ' ' || glyph == some '\n' || glyph == some '\t' || glyph == some '\r'

/-- The text without the blanks in front. -/
def skipBlank (text : List Glyph) : List Glyph := text.dropWhile isBlank

/-- Reads the given word. -/
def word : List Char → List Glyph → Read Unit
  | [], text => .ok ((), text)
  | _ :: _, [] => .error (.facing .endInValue [])
  | c :: rest, glyph :: text =>
    if glyph = some c then word rest text else .error (.facing .wordExpected (glyph :: text))

end Json

end Backfill
