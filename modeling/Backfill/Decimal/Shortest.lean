import Backfill.Decimal.Dyadic

/-!
# The shortest decimal of a floating-point number

A floating-point number stands for every real number that rounds to it.  Its shortest
decimal is the one with the fewest digits among those; if several have that many digits, the
one nearest to the number itself.  Small and large numbers are written with an exponent.

## Main definitions

* `Decimal` — digits times a power of ten.
* `Decimal.reads` — whether a decimal rounds to a given number.
* `Decimal.shortest` — the shortest decimal of a number.
* `Decimal.Layout` — where positional notation ends and how the exponent is marked;
  `Decimal.layout` is the layout used in this library.
* `Decimal.ofFloatBits` — the text of a finite floating-point number.
-/

namespace Backfill

/-- The number `digits * 10 ^ exponent`. -/
structure Decimal where
  digits : Nat
  exponent : Int
deriving DecidableEq, Repr

namespace Decimal

/-- Whether the decimal lies in the interval of numbers that round to `x`; the ends belong
to it when the significand is even.  All is measured in quarters of the last binary place. -/
def reads (x : Dyadic) (d : Decimal) : Bool :=
  let scale := Nat.pow 2 (x.exponent - 2).toNat * Nat.pow 10 (-d.exponent).toNat
  let value := d.digits * Nat.pow 10 d.exponent.toNat * Nat.pow 2 (2 - x.exponent).toNat
  let low := (4 * x.significand - (if x.narrowBelow then 1 else 2)) * scale
  let high := (4 * x.significand + 2) * scale
  if x.significand % 2 = 0 then decide (low ≤ value) && decide (value ≤ high)
  else decide (low < value) && decide (value < high)

/-- The power of ten just below a positive number: the exponent of its first digit. -/
def magnitude (x : Dyadic) : Int :=
  if x.denominator ≤ x.numerator then
    ((Nat.toDigits 10 (x.numerator / x.denominator)).length : Int) - 1
  else -((Nat.toDigits 10 ((x.denominator - 1) / x.numerator)).length : Int)

/-- The nearest decimal of the given exponent among the two neighbours of the number that
round to it. -/
def onGrid? (x : Dyadic) (exponent : Int) : Option Decimal :=
  let numerator := x.numerator * Nat.pow 10 (-exponent).toNat
  let denominator := x.denominator * Nat.pow 10 exponent.toNat
  let below : Decimal := ⟨numerator / denominator, exponent⟩
  let above : Decimal := ⟨numerator / denominator + 1, exponent⟩
  let nearest : Decimal := ⟨roundDiv numerator denominator, exponent⟩
  if reads x below && reads x above then some nearest
  else if reads x below then some below
  else if reads x above then some above
  else none

/-- Moves the zeros at the end of the digits into the exponent. -/
def normalize (fuel : Nat) (d : Decimal) : Decimal :=
  match fuel with
  | 0 => d
  | fuel + 1 =>
    if d.digits ≠ 0 ∧ d.digits % 10 = 0 then normalize fuel ⟨d.digits / 10, d.exponent + 1⟩
    else d

/-- The shortest decimal that rounds to the number: the first of the grids with one, two, …
digits that holds one.  Seventeen digits always do. -/
def shortest (x : Dyadic) : Decimal :=
  if x.significand = 0 then ⟨0, 0⟩
  else
    let top := magnitude x
    let found := (List.range 17).findSome? fun (n : Nat) => onGrid? x (top - n)
    normalize 20 (found.getD ⟨roundDiv x.numerator x.denominator, 0⟩)

/-- How a decimal is laid out. -/
structure Layout where
  /-- Largest position of the point that is still written positionally. -/
  largest : Int
  /-- Smallest position of the point that is still written positionally. -/
  smallest : Int
  /-- Mark of the exponent. -/
  mark : Char
  /-- Whether a positive exponent has a sign, as a negative one always does. -/
  signed : Bool
deriving DecidableEq, Repr

/-- Positional from `0.00001` to below `1e+16`, with `.0` behind an integer, and otherwise
with an `e` and a sign before the exponent. -/
def layout : Layout := ⟨16, -4, 'e', true⟩

/-- The text of an exponent. -/
def exponentText (form : Layout) (exponent : Int) : List Char :=
  let sign := if form.signed && decide (0 < exponent) then ['+'] else []
  form.mark :: sign ++ (toString exponent).toList

/-- The text of a decimal. -/
def render (form : Layout) (d : Decimal) : List Char :=
  let digits := Nat.toDigits 10 d.digits
  let point : Int := digits.length + d.exponent
  if 0 ≤ d.exponent ∧ point ≤ form.largest then
    digits ++ List.replicate d.exponent.toNat '0' ++ ['.', '0']
  else if 0 < point ∧ point ≤ form.largest then
    digits.take point.toNat ++ '.' :: digits.drop point.toNat
  else if form.smallest ≤ point ∧ point ≤ 0 then
    '0' :: '.' :: List.replicate (-point).toNat '0' ++ digits
  else
    let fraction := match digits.drop 1 with
      | [] => []
      | rest => '.' :: rest
    digits.take 1 ++ fraction ++ exponentText form (point - 1)

/-- The text of a finite floating-point number, given by its bits. -/
def ofFloatBits (bits : UInt64) : List Char :=
  let x := Dyadic.ofBits bits
  let text := render layout (shortest x)
  if x.negative then '-' :: text else text

end Decimal

end Backfill
