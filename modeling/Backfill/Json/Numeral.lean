import Backfill.Word
import Backfill.Json.Fault
import Backfill.Json

/-!
# Reading a JSON number

A number is scanned into its digits first and then given its value.  A number without
fraction and exponent that fits in 64 bits is an integer.  Any other number is the
floating-point number obtained from its leading digits, as many as fit in a word, by one
multiplication or division by a power of ten; negative zero is such a number, too.

## Main definitions

* `Json.Numeral` — the digits of a number.
* `Json.numeral` — scans a number.
* `Json.Numeral.value?` — its value, unless it is too large.
* `Json.skipNumeral` — what follows a number whose value does not matter.
-/

namespace Backfill

namespace Json

/-- The value of a decimal digit. -/
def digitValue? (glyph : Glyph) : Option Nat :=
  glyph.bind fun c => if '0' ≤ c ∧ c ≤ '9' then some (c.toNat - 48) else none

/-- The digits in front of a text and what follows them. -/
def digits : List Glyph → List Nat × List Glyph
  | [] => ([], [])
  | glyph :: text =>
    match digitValue? glyph with
    | some d => (d :: (digits text).1, (digits text).2)
    | none => ([], glyph :: text)

/-- The digits of a number. -/
structure Numeral where
  negative : Bool
  whole : List Nat
  fraction : Option (List Nat)
  /-- Sign and digits of the exponent. -/
  exponent : Option (Bool × List Nat)
deriving DecidableEq, Repr

/-- Scans the exponent of a number, if one follows. -/
def exponentPart (text : List Glyph) : Read (Option (Bool × List Nat)) :=
  match text with
  | glyph :: rest =>
    if glyph = some 'e' ∨ glyph = some 'E' then
      let negative := rest.head? = some (some '-')
      let unsigned := if rest.head? = some (some '-') ∨ rest.head? = some (some '+')
        then rest.drop 1 else rest
      match unsigned, digits unsigned with
      | [], _ => .error (.facing .endInValue [])
      | _, ([], _) => .error (.facing .badNumber unsigned)
      | _, (found, rest) => .ok (some (negative, found), rest)
    else .ok (none, text)
  | [] => .ok (none, [])

/-- Scans the fraction of a number, if one follows. -/
def fractionPart (text : List Glyph) : Read (Option (List Nat)) :=
  match text with
  | glyph :: rest =>
    if glyph = some '.' then
      match rest, digits rest with
      | [], _ => .error (.facing .endInValue [])
      | _, ([], _) => .error (.facing .badNumber rest)
      | _, (found, rest) => .ok (some found, rest)
    else .ok (none, text)
  | [] => .ok (none, [])

/-- Scans the digits before the point: a zero is not followed by another digit. -/
def wholePart (text : List Glyph) : Read (List Nat) :=
  match text, digits text with
  | [], _ => .error (.facing .endInValue [])
  | _, ([], _) => .error (.facing .badNumber text)
  | _, (0 :: _ :: _, _) => .error (.facing .badNumber (text.drop 1))
  | _, (found, rest) => .ok (found, rest)

/-- Scans a number from behind its minus sign, if it has one. -/
def numeral (negative : Bool) (text : List Glyph) : Read Numeral :=
  match wholePart text with
  | .error fault => .error fault
  | .ok (whole, text) =>
    match fractionPart text with
    | .error fault => .error fault
    | .ok (fraction, text) =>
      match exponentPart text with
      | .error fault => .error fault
      | .ok (exponent, text) => .ok (⟨negative, whole, fraction, exponent⟩, text)

/-! ### The value of a number -/

/-- The number that digits denote. -/
def ofDigits (digits : List Nat) : Nat := digits.foldl (fun value d => value * 10 + d) 0

/-- The leading digits that fit in a word, read on from `value`, and how many are left. -/
def leading (value : Nat) : List Nat → Nat × List Nat
  | [] => (value, [])
  | d :: rest =>
    if value * 10 + d ≤ Word.max then leading (value * 10 + d) rest else (value, d :: rest)

/-- The largest exponent that is kept. -/
def exponentLimit : Nat := 2147483647

/-- `10 ^ n` as a floating-point number. -/
def powerOfTen (n : Nat) : Float := Float.ofScientific 1 false n

/-- Scales a floating-point number by `10 ^ -n`, in steps that stay in range. -/
def scaleDown (steps : Nat) (value : Float) (n : Nat) : Float :=
  match steps with
  | 0 => value
  | steps + 1 =>
    if n ≤ 308 then value / powerOfTen n
    else if value == 0.0 then value
    else scaleDown steps (value / powerOfTen 308) (n - 308)

/-- Scales a word by a power of ten; `none` if the result is out of range. -/
def scale? (significand : Nat) (exponent : Int) : Option Float :=
  let value := (UInt64.ofNat significand).toFloat
  match exponent with
  | .ofNat n =>
    if n ≤ 308 then
      let result := value * powerOfTen n
      if result.isInf then none else some result
    else if significand = 0 then some value
    else none
  | .negSucc n => some (scaleDown 4 value (n + 1))

/-- Significand and exponent of ten of the number, before its own exponent counts: digits
that do not fit in a word are dropped. -/
def Numeral.significand (n : Numeral) : Nat × Int :=
  let (value, dropped) := leading 0 n.whole
  match dropped with
  | [] =>
    let fraction := n.fraction.getD []
    let (value, left) := leading value fraction
    (value, -((fraction.length - left.length : Nat) : Int))
  | _ =>
    let fraction := n.fraction.getD []
    let (value, left) := leading value fraction
    (value, (dropped.length : Int) - ((fraction.length - left.length : Nat) : Int))

/-- The number as a floating-point number, by its bits, unless it is too large. -/
def Numeral.real? (n : Numeral) : Option Json :=
  let (significand, shift) := n.significand
  let exponent : Int := match n.exponent with
    | none => 0
    | some (negative, digits) =>
      let size : Nat := min (ofDigits digits) (exponentLimit + 1)
      if negative then -(size : Int) else size
  (scale? significand (shift + exponent)).map fun value =>
    .real (if n.negative then -value else value).toBits

/-- The value of a number, unless it is too large. -/
def Numeral.value? (n : Numeral) : Option Json :=
  match n.fraction, n.exponent with
  | none, none =>
    let size := ofDigits n.whole
    if n.negative = false then
      if size ≤ Word.max then some (.int size) else n.real?
    else if 0 < size ∧ size ≤ 9223372036854775808 then some (.int (-(size : Int)))
    else n.real?
  | _, _ => n.real?

/-- How many digits of the exponent follow the one that takes it beyond its limit. -/
def Numeral.surplus (n : Numeral) : Nat :=
  let digits := (n.exponent.map Prod.snd).getD []
  let enough? := (List.range digits.length).find? fun count =>
    decide (exponentLimit < ofDigits (digits.take count))
  (enough?.map (digits.length - ·)).getD 0

/-- Reads a number from behind its minus sign, if it has one.  That it is too large is noticed
at its end, or at the digit that takes its exponent beyond the limit. -/
def number (negative : Bool) (text : List Glyph) : Read Json :=
  match numeral negative text with
  | .error fault => .error fault
  | .ok (n, rest) =>
    match n.value? with
    | none => .error ⟨.numberTooLarge, Glyph.size rest + n.surplus⟩
    | some value => .ok (value, rest)

/-! ### Numbers that do not matter -/

/-- Reads past the digits that must follow here. -/
def skipDigits (text : List Glyph) : Read Unit :=
  match digits text with
  | ([], _) => .error (.facing .badNumber text)
  | (_, rest) => .ok ((), rest)

/-- Reads past an exponent, if one follows. -/
def skipExponent (text : List Glyph) : Read Unit :=
  match text with
  | glyph :: rest =>
    if glyph = some 'e' ∨ glyph = some 'E' then
      match rest with
      | sign :: digits =>
        if sign = some '+' ∨ sign = some '-' then skipDigits digits else skipDigits rest
      | [] => .error (.facing .badNumber [])
    else .ok ((), text)
  | [] => .ok ((), [])

/-- Reads past a number from behind its minus sign.  Its size does not matter, and a text
that ends inside it is malformed. -/
def skipNumeral (text : List Glyph) : Read Unit :=
  match digits text with
  | ([], _) => .error (.facing .badNumber text)
  | (0 :: _ :: _, _) => .error (.facing .badNumber (text.drop 1))
  | (_, glyph :: rest) =>
    if glyph = some '.' then
      match skipDigits rest with
      | .error fault => .error fault
      | .ok ((), rest) => skipExponent rest
    else skipExponent (glyph :: rest)
  | (_, []) => .ok ((), [])

end Json

end Backfill
