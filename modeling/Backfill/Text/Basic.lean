import Backfill.Word

/-!
# White space, integers and truth values in text

What counts as white space is a matter of the Unicode property `White_Space`.  An unsigned
integer is written with decimal digits and may carry a plus sign.  Reading goes from left to
right and stops at the first character that makes the number unreadable, so of a bad digit and a
number that is too large the one that comes first is reported.

## Main definitions

* `Text.isBlank` — the characters that are white space.
* `Text.trim` — a text without the blanks at its two ends; `Text.trimEndChars` looks at the
  second end only.
* `IntegerError` — why a text is no unsigned integer, with its wording.
* `Text.digit?` — the value of a decimal digit.
* `Text.readInteger` — the unsigned integer that a text denotes, up to a limit.
* `Text.writeInteger` — the decimal digits of a number.
* `BooleanError`, `Text.readBoolean` — the same for the two truth values.

## Main results

* `Text.isBlank_of_isWhitespace` — every character that the core library takes for white
  space is a blank.
* `Text.toDigits_injective` — different numbers have different digits.
-/

namespace Backfill

namespace Text

/-- Whether the character has the Unicode property `White_Space`. -/
def isBlank (c : Char) : Bool :=
  (0x9 ≤ c.toNat && c.toNat ≤ 0xD) || c.toNat == 0x20 || c.toNat == 0x85 || c.toNat == 0xA0 ||
  c.toNat == 0x1680 || (0x2000 ≤ c.toNat && c.toNat ≤ 0x200A) || c.toNat == 0x2028 ||
  c.toNat == 0x2029 || c.toNat == 0x202F || c.toNat == 0x205F || c.toNat == 0x3000

/-- A list of characters without the blanks at its end. -/
def trimEndChars (chars : List Char) : List Char := (chars.reverse.dropWhile isBlank).reverse

/-- A list of characters without the blanks at its two ends. -/
def trimChars (chars : List Char) : List Char := trimEndChars (chars.dropWhile isBlank)

/-- A text without the blanks at its two ends. -/
def trim (text : String) : String := String.ofList (trimChars text.toList)

/-- Whether a text holds nothing but blanks. -/
def isBlankText (text : String) : Bool := text.toList.all isBlank

/-- A text with the letters `A` to `Z` in lower case and all else unchanged. -/
def lower (text : String) : String := String.ofList (text.toList.map Char.toLower)

/-- Every character that the core library takes for white space is a blank. -/
theorem isBlank_of_isWhitespace {c : Char} (h : c.isWhitespace = true) : isBlank c = true := by
  simp only [Char.isWhitespace, Bool.or_eq_true, decide_eq_true_eq] at h
  rcases h with ((rfl | rfl) | rfl) | rfl <;> decide

end Text

/-- Why a text is no unsigned integer. -/
inductive IntegerError
  | empty
  | invalidDigit
  | tooLarge
deriving DecidableEq, Repr

/-- The error as it is told to the user. -/
def IntegerError.message : IntegerError → String
  | .empty => "cannot parse integer from empty string"
  | .invalidDigit => "invalid digit found in string"
  | .tooLarge => "number too large to fit in target type"

namespace Text

/-- The value of a decimal digit. -/
def digit? (c : Char) : Option Nat :=
  if '0' ≤ c ∧ c ≤ '9' then some (c.toNat - '0'.toNat) else none

/-- Reads digits on from the value of those before them. -/
def readDigits (limit value : Nat) : List Char → Except IntegerError Nat
  | [] => .ok value
  | c :: rest =>
    match digit? c with
    | none => .error .invalidDigit
    | some d =>
      if value * 10 + d ≤ limit then readDigits limit (value * 10 + d) rest
      else .error .tooLarge

/-- The unsigned integer, at most `limit`, that a list of characters denotes. -/
def readIntegerChars (limit : Nat) : List Char → Except IntegerError Nat
  | [] => .error .empty
  | ['+'] => .error .invalidDigit
  | '+' :: rest => readDigits limit 0 rest
  | chars => readDigits limit 0 chars

/-- The unsigned integer, at most `limit`, that a text denotes. -/
def readInteger (limit : Nat) (text : String) : Except IntegerError Nat :=
  readIntegerChars limit text.toList

/-- The decimal digits of a number. -/
def writeInteger (n : Nat) : String := String.ofList (Nat.toDigits 10 n)

/-- Different numbers have different digits. -/
theorem toDigits_injective {n m : Nat} (h : Nat.toDigits 10 n = Nat.toDigits 10 m) : n = m := by
  rw [← @Nat.ofDigitChars_ten_toDigits n, h, Nat.ofDigitChars_ten_toDigits]

/-- The decimal digits of a number, at least `width` of them, with zeros in front. -/
def writePadded (width n : Nat) : String :=
  let digits := Nat.toDigits 10 n
  String.ofList (List.replicate (width - digits.length) '0' ++ digits)

end Text

/-- The text is neither `true` nor `false`. -/
inductive BooleanError
  | neither
deriving DecidableEq, Repr

/-- The error as it is told to the user. -/
def BooleanError.message : BooleanError → String
  | .neither => "provided string was not `true` or `false`"

/-- The truth value that a text denotes. -/
def Text.readBoolean (text : String) : Except BooleanError Bool :=
  if text = "true" then .ok true
  else if text = "false" then .ok false
  else .error .neither

end Backfill
