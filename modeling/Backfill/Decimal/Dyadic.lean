/-!
# The exact value of a binary floating-point number

A finite 64-bit floating-point number is a natural number times a power of two, with a
sign.  All text of floating-point numbers is made from this exact value by arithmetic on
natural numbers.

## Main definitions

* `Dyadic` — sign, significand and exponent of two; `Dyadic.ofBits` reads them off.
* `Dyadic.numerator`, `Dyadic.denominator` — its absolute value as a fraction.
* `roundDiv` — a quotient of natural numbers, rounded to the nearest, a tie going to the
  even neighbour.
* `Decimal.fixed` — a number with a given number of decimal places.

## Main results

* `roundDiv_mul_sub_le` and `sub_roundDiv_mul_le` — the rounded quotient is within half a
  unit of the exact one.
-/

namespace Backfill

/-- The number `± significand * 2 ^ exponent`. -/
structure Dyadic where
  negative : Bool
  significand : Nat
  exponent : Int
  /-- Whether the gap to the next smaller number is half the gap to the next larger one. -/
  narrowBelow : Bool
deriving DecidableEq, Repr

namespace Dyadic

/-- The value of a finite 64-bit floating-point number, read off its bits. -/
def ofBits (bits : UInt64) : Dyadic :=
  let negative := bits.toNat / Nat.pow 2 63 == 1
  let biased : Nat := bits.toNat / Nat.pow 2 52 % 2048
  let fraction : Nat := bits.toNat % Nat.pow 2 52
  if biased = 0 then ⟨negative, fraction, -1074, false⟩
  else ⟨negative, Nat.pow 2 52 + fraction, Int.ofNat biased - 1075, fraction == 0 && biased != 1⟩

/-- Numerator of the absolute value. -/
def numerator (x : Dyadic) : Nat := x.significand * Nat.pow 2 x.exponent.toNat

/-- Denominator of the absolute value. -/
def denominator (x : Dyadic) : Nat := Nat.pow 2 (-x.exponent).toNat

end Dyadic

/-- `numerator / denominator` rounded to the nearest natural number; of two equally near
ones it is the even one. -/
def roundDiv (numerator denominator : Nat) : Nat :=
  let floor := numerator / denominator
  let rest := numerator % denominator
  if 2 * rest < denominator then floor
  else if denominator < 2 * rest then floor + 1
  else floor + floor % 2

/-- The rounded quotient exceeds the exact one by at most half a unit. -/
theorem roundDiv_mul_sub_le (n d : Nat) : 2 * (roundDiv n d * d) ≤ 2 * n + d := by
  have h := Nat.div_add_mod n d
  have hcomm : d * (n / d) = n / d * d := Nat.mul_comm _ _
  simp only [roundDiv]
  split
  · omega
  · split
    · rw [Nat.add_mul]; omega
    · rcases Nat.mod_two_eq_zero_or_one (n / d) with hm | hm <;> rw [hm, Nat.add_mul] <;> omega

/-- The rounded quotient falls short of the exact one by at most half a unit. -/
theorem sub_roundDiv_mul_le (n d : Nat) (hd : 0 < d) : 2 * n ≤ 2 * (roundDiv n d * d) + d := by
  have h := Nat.div_add_mod n d
  have hlt := Nat.mod_lt n hd
  have hcomm : d * (n / d) = n / d * d := Nat.mul_comm _ _
  simp only [roundDiv]
  split
  · omega
  · split
    · rw [Nat.add_mul]; omega
    · rw [Nat.add_mul]; omega

namespace Decimal

/-- The text of a count of units of the last of `places` decimal places. -/
def placed (places units : Nat) : String :=
  let digits := Nat.toDigits 10 units
  let padded := List.replicate (places + 1 - digits.length) '0' ++ digits
  let whole := padded.take (padded.length - places)
  let fraction := padded.drop (padded.length - places)
  String.ofList (if places = 0 then whole else whole ++ '.' :: fraction)

/-- A finite number with `places` decimal places: its exact value rounded to the nearest, a tie
going to the even neighbour. -/
def fixed (places : Nat) (value : Float) : String :=
  let x := Dyadic.ofBits value.toBits
  let units := roundDiv (x.numerator * Nat.pow 10 places) x.denominator
  (if x.negative then "-" else "") ++ placed places units

end Decimal

end Backfill
