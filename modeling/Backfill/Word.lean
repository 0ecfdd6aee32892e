/-!
# Unsigned machine words

Slots, counts and times are natural numbers that fit in 64 bits.  The arithmetic on
them is that of the natural numbers; what happens at the upper end is said here once.
A quantity that may exceed the end either stays there (`Word.clamp`), or goes round
(`Word.wrap`), or is read as a signed number (`Word.signed`).

## Main definitions

* `Word.max`, `Word.max32`, `Word.max16` — the largest words of 64, 32 and 16 bits.
* `Word.clamp n` — `n`, or the largest word if `n` is larger.
* `Word.wrap n` — `n` modulo `2 ^ 64`.
* `Word.signed n` — the word `n` read in two's complement.

## Main results

* `Word.clamp_of_le`, `Word.wrap_of_le` — neither changes a number that fits.
-/

namespace Backfill

namespace Word

/-- The largest 64-bit word. -/
def max : Nat := 18446744073709551615

/-- The largest 32-bit word. -/
def max32 : Nat := 4294967295

/-- The largest 16-bit word. -/
def max16 : Nat := 65535

/-- `n`, held at the largest word. -/
def clamp (n : Nat) : Nat := if n ≤ max then n else max

/-- `n` modulo `2 ^ 64`: what a counter shows that was raised `n` times from zero. -/
def wrap (n : Nat) : Nat := n % (max + 1)

/-- The word `n` read in two's complement. -/
def signed (n : Nat) : Int := if n < 9223372036854775808 then n else (n : Int) - (max + 1)

/-- A number that fits is not changed by holding it at the largest word. -/
@[simp] theorem clamp_of_le {n : Nat} (h : n ≤ max) : clamp n = n := by simp [clamp, h]

theorem clamp_eq_min (n : Nat) : clamp n = min n max := by unfold clamp; split <;> omega

theorem clamp_le (n : Nat) : clamp n ≤ max := by unfold clamp; split <;> omega

/-- A number that fits is its own remainder. -/
@[simp] theorem wrap_of_le {n : Nat} (h : n ≤ max) : wrap n = n := Nat.mod_eq_of_lt (by omega)

end Word

end Backfill
