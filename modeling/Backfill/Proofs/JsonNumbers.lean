import Backfill.Json.Printer
import Backfill.Json.Numeral

/-!
# Integers come back

An integer is written with its decimal digits, after a minus sign if it is negative.  The reader
takes all digits that stand in front of a text, so what follows an integer must not look like more
of it.  A number without fraction and exponent is an integer if it fits in 64 bits.

## Main definitions

* `Json.EndsNumber` — nothing that could go on a number stands in front of a text.
* `Json.InRange` — an integer fits in 64 bits, signed or unsigned.

## Main results

* `Json.numeral_toDigits` — the digits of a number are scanned.
* `Json.number_toDigits`, `Json.number_neg_toDigits` — a number that is written is read again.
-/

namespace Backfill

namespace Json

/-- Nothing that could go on a number stands in front of the text. -/
def EndsNumber (text : List Glyph) : Prop :=
  ∀ glyph ∈ text.head?,
    digitValue? glyph = none ∧ glyph ≠ some '.' ∧ glyph ≠ some 'e' ∧ glyph ≠ some 'E'

instance (text : List Glyph) : Decidable (EndsNumber text) := by
  unfold EndsNumber
  infer_instance

/-- Whether an integer fits in 64 bits, with or without a sign. -/
def InRange (n : Int) : Prop := -9223372036854775808 ≤ n ∧ n ≤ 18446744073709551615

instance (n : Int) : Decidable (InRange n) := inferInstanceAs (Decidable (_ ∧ _))

variable {text : List Glyph}

/-! ### Digits -/

theorem digitValue?_of_isDigit {c : Char} (h : c.isDigit) :
    digitValue? (some c) = some (c.toNat - 48) := by
  simp only [Char.isDigit, Bool.and_eq_true, decide_eq_true_eq] at h
  exact if_pos ⟨h.1, h.2⟩

theorem ne_of_isDigit {c other : Char} (h : c.isDigit) (hother : other.isDigit = false) :
    c ≠ other := by
  rintro rfl
  rw [hother] at h
  contradiction

theorem exists_toDigits_eq_cons (n : Nat) :
    ∃ c rest, Nat.toDigits 10 n = c :: rest ∧ c.isDigit := by
  obtain ⟨c, rest, hn⟩ := List.exists_cons_of_ne_nil (@Nat.toDigits_ne_nil n 10)
  have hc : c ∈ Nat.toDigits 10 n := hn ▸ List.mem_cons_self
  exact ⟨c, rest, hn, Nat.isDigit_of_mem_toDigits (by decide) (Nat.le_refl 10) hc⟩

theorem digits_append {chars : List Char} (hchars : ∀ c ∈ chars, c.isDigit) (h : EndsNumber text) :
    digits (chars.map some ++ text) = (chars.map (·.toNat - 48), text) := by
  induction chars with
  | nil =>
    cases text with
    | nil => rfl
    | cons glyph rest => simp [digits, (h glyph rfl).1]
  | cons c chars ih =>
    have hc := digitValue?_of_isDigit (hchars c List.mem_cons_self)
    have hrest := ih fun c' hc' => hchars c' (List.mem_cons_of_mem _ hc')
    simp [digits, hc, hrest]

theorem ofDigits_toDigits (n : Nat) : ofDigits ((Nat.toDigits 10 n).map (·.toNat - 48)) = n := by
  have hfold : ofDigits ((Nat.toDigits 10 n).map (·.toNat - 48)) =
      Nat.ofDigitChars 10 (Nat.toDigits 10 n) 0 := by
    rw [ofDigits, List.foldl_map, Nat.ofDigitChars_eq_foldl]
    simp only [Nat.mul_comm]
    rfl
  rw [hfold, Nat.ofDigitChars_ten_toDigits]

/-- Only the digits of zero start with a zero. -/
theorem head?_toDigits {n : Nat} (h : (Nat.toDigits 10 n).head? = some '0') : n = 0 := by
  induction n using Nat.strongRecOn with
  | _ n ih =>
    by_cases hn : n < 10
    · rw [Nat.toDigits_of_lt_base hn] at h
      simpa using h
    · -- the last digit stands behind those of `n / 10`, of which there is at least one
      rw [Nat.toDigits_of_base_le (by decide) (Nat.not_lt.mp hn), List.head?_append] at h
      obtain ⟨c, chars, hchars, -⟩ := exists_toDigits_eq_cons (n / 10)
      rw [hchars] at h
      have := ih (n / 10) (by omega) (by rw [hchars]; exact h)
      omega

theorem wholePart_eq {d : Nat} {ds : List Nat} {rest : List Glyph}
    (h : digits text = (d :: ds, rest)) (hzero : d = 0 → ds = []) :
    wholePart text = .ok (d :: ds, rest) := by
  cases text with
  | nil => simp [digits] at h
  | cons glyph text =>
    cases d with
    | zero =>
      obtain rfl := hzero rfl
      simp [wholePart, h]
    | succ d => simp [wholePart, h]

/-- The digits of a number are the part before the point. -/
theorem wholePart_toDigits (n : Nat) (h : EndsNumber text) :
    wholePart ((Nat.toDigits 10 n).map some ++ text) =
      .ok ((Nat.toDigits 10 n).map (·.toNat - 48), text) := by
  have hdigits := digits_append
    (fun c hc => Nat.isDigit_of_mem_toDigits (n := n) (by decide) (Nat.le_refl 10) hc) h
  obtain ⟨c, chars, hn, hdigit⟩ := exists_toDigits_eq_cons n
  rw [hn] at hdigits ⊢
  -- a zero in front of other digits would be refused, but only zero itself starts with one
  refine wholePart_eq hdigits fun hzero => ?_
  have hc : c = '0' := by
    have := (Char.isDigit_iff_toNat.mp hdigit).1
    exact Char.toNat_inj.mp (Nat.le_antisymm (Nat.sub_eq_zero_iff_le.mp hzero) this)
  obtain rfl : n = 0 := head?_toDigits (by rw [hn, hc]; rfl)
  obtain ⟨-, rfl⟩ := List.cons.inj (hn.symm.trans (Nat.toDigits_zero 10))
  rfl

/-! ### Numbers -/

theorem fractionPart_eq (h : EndsNumber text) : fractionPart text = .ok (none, text) := by
  cases text with
  | nil => rfl
  | cons glyph rest => exact if_neg (h glyph rfl).2.1

theorem exponentPart_eq (h : EndsNumber text) : exponentPart text = .ok (none, text) := by
  cases text with
  | nil => rfl
  | cons glyph rest =>
    obtain ⟨-, -, hlower, hupper⟩ := h glyph rfl
    exact if_neg (not_or.mpr ⟨hlower, hupper⟩)

/-- The digits of a number are scanned. -/
theorem numeral_toDigits (negative : Bool) (n : Nat) (h : EndsNumber text) :
    numeral negative ((Nat.toDigits 10 n).map some ++ text) =
      .ok (⟨negative, (Nat.toDigits 10 n).map (·.toNat - 48), none, none⟩, text) := by
  simp only [numeral, wholePart_toDigits n h, fractionPart_eq h, exponentPart_eq h]

/-- A number without a sign is read again. -/
theorem number_toDigits {n : Nat} (hn : n ≤ Word.max) (h : EndsNumber text) :
    number false ((Nat.toDigits 10 n).map some ++ text) = .ok (.int n, text) := by
  simp only [number, numeral_toDigits false n h, Numeral.value?, ofDigits_toDigits, hn, if_true]

/-- A number behind a minus sign is read again. -/
theorem number_neg_toDigits {n : Nat} (hpos : 0 < n) (hn : n ≤ 9223372036854775808)
    (h : EndsNumber text) :
    number true ((Nat.toDigits 10 n).map some ++ text) = .ok (.int (-n), text) := by
  simp [number, numeral_toDigits true n h, Numeral.value?, ofDigits_toDigits, hpos, hn]

end Json

end Backfill
