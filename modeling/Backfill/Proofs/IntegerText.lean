import Backfill.Text.Basic

/-!
# Integers that were written are read back

The reader of an integer goes from left to right and gives up as soon as the value exceeds its
limit.  Digits never make the value smaller, so the digits of a number within the limit are read to
their end.  Blanks around them are trimmed first, and none of the digits is a blank.

## Main results

* `Text.readDigits_eq` — digits are read as their value.
* `Text.readIntegerChars_toDigits` — **the digits of a number are read as the number.**
* `Text.exists_trimChars_eq_cons`, `Text.trimChars_toDigits` — trimming keeps what is no blank.
* `Text.length_writePadded`, `Text.writePadded_injective` — zeros in front of a number fill it up to
  a width and leave its value alone.
* `Text.append_writePadded_inj` — a number that fills its width is taken off from the end of a text.
-/

namespace Backfill

namespace Text

theorem isDigit_of_mem_toDigits {n : Nat} {c : Char} (h : c ∈ Nat.toDigits 10 n) : c.isDigit :=
  Nat.isDigit_of_mem_toDigits (by decide) (Nat.le_refl 10) h

theorem not_mem_toDigits {c : Char} (h : c.isDigit = false) (n : Nat) : c ∉ Nat.toDigits 10 n := by
  intro hmem
  rw [isDigit_of_mem_toDigits hmem] at h
  cases h

/-! ### Reading -/

theorem le_ofDigitChars (chars : List Char) (value : Nat) :
    value ≤ Nat.ofDigitChars 10 chars value := by
  induction chars generalizing value with
  | nil => exact Nat.le_refl _
  | cons c rest ih =>
    rw [Nat.ofDigitChars_cons]
    exact Nat.le_trans (by omega) (ih _)

/-- Digits are read as their value, as long as that does not exceed the limit. -/
theorem readDigits_eq {limit : Nat} {chars : List Char} (hchars : ∀ c ∈ chars, c.isDigit)
    {value : Nat} (h : Nat.ofDigitChars 10 chars value ≤ limit) :
    readDigits limit value chars = .ok (Nat.ofDigitChars 10 chars value) := by
  induction chars generalizing value with
  | nil => rfl
  | cons c rest ih =>
    have hc : digit? c = some (c.toNat - '0'.toNat) := by
      have hdigit := hchars c List.mem_cons_self
      simp only [Char.isDigit, Bool.and_eq_true, decide_eq_true_eq] at hdigit
      exact if_pos hdigit
    rw [Nat.ofDigitChars_cons, Nat.mul_comm] at h ⊢
    -- the value of the digits read so far is at most that of all of them
    have hvalue := Nat.le_trans (le_ofDigitChars rest _) h
    simp only [readDigits, hc, if_pos hvalue]
    exact ih (fun c hc => hchars c (List.mem_cons_of_mem _ hc)) h

/-- **The digits of a number are read as the number**, if it does not exceed the limit. -/
theorem readIntegerChars_toDigits {limit n : Nat} (h : n ≤ limit) :
    readIntegerChars limit (Nat.toDigits 10 n) = .ok n := by
  have hdigits : ∀ c ∈ Nat.toDigits 10 n, c.isDigit := fun _ => isDigit_of_mem_toDigits
  have hvalue : Nat.ofDigitChars 10 (Nat.toDigits 10 n) 0 = n := Nat.ofDigitChars_ten_toDigits
  have hread := readDigits_eq hdigits (Nat.le_trans (Nat.le_of_eq hvalue) h)
  rw [hvalue] at hread
  -- there is a first digit, which is no sign
  obtain ⟨c, rest, hcons⟩ := List.exists_cons_of_ne_nil (@Nat.toDigits_ne_nil n 10)
  rw [hcons] at hdigits hread ⊢
  have hplus : c ≠ '+' := by
    rintro rfl
    simpa [Char.isDigit] using hdigits '+' List.mem_cons_self
  unfold readIntegerChars
  split
  · contradiction
  · next heq => exact absurd (List.cons.inj heq).1 hplus
  · next heq => exact absurd (List.cons.inj heq).1 hplus
  · exact hread

/-! ### Trimming -/

theorem isBlank_of_isDigit {c : Char} (h : c.isDigit) : isBlank c = false := by
  simp only [Char.isDigit, Bool.and_eq_true, decide_eq_true_eq, UInt32.le_iff_toNat_le] at h
  have hlow : 48 ≤ c.toNat := h.1
  have hhigh : c.toNat ≤ 57 := h.2
  simp only [isBlank, Bool.or_eq_false_iff, Bool.and_eq_false_imp, decide_eq_true_eq,
    decide_eq_false_iff_not, beq_eq_false_iff_ne]
  omega

/-- A character in front that is no blank stays in front. -/
theorem exists_trimChars_eq_cons {c : Char} (h : isBlank c = false) (rest : List Char) :
    ∃ kept, trimChars (c :: rest) = c :: kept := by
  have hfront : (c :: rest).dropWhile isBlank = c :: rest :=
    List.dropWhile_cons_of_neg (by simp [h])
  rw [trimChars, hfront, trimEndChars, List.reverse_cons, List.dropWhile_append]
  split
  · exact ⟨[], by simp [h]⟩
  · exact ⟨(rest.reverse.dropWhile isBlank).reverse, by simp⟩

theorem dropWhile_isBlank {chars : List Char} (h : ∀ c ∈ chars, isBlank c = false) :
    chars.dropWhile isBlank = chars := by
  cases chars with
  | nil => rfl
  | cons c rest => exact List.dropWhile_cons_of_neg (by simp [h c List.mem_cons_self])

/-- Nothing is trimmed from the digits of a number. -/
theorem trimChars_toDigits (n : Nat) : trimChars (Nat.toDigits 10 n) = Nat.toDigits 10 n := by
  have hdigits : ∀ c ∈ Nat.toDigits 10 n, isBlank c = false := fun _ hc =>
    isBlank_of_isDigit (isDigit_of_mem_toDigits hc)
  rw [trimChars, dropWhile_isBlank hdigits, trimEndChars,
    dropWhile_isBlank fun c hc => hdigits c (List.mem_reverse.mp hc), List.reverse_reverse]

/-! ### Zeros in front -/

theorem isDigit_of_mem_writePadded {width n : Nat} {c : Char}
    (h : c ∈ (writePadded width n).toList) : c.isDigit := by
  rw [writePadded, String.toList_ofList] at h
  rcases List.mem_append.mp h with hzero | hdigit
  · obtain ⟨-, rfl⟩ := List.mem_replicate.mp hzero
    rfl
  · exact isDigit_of_mem_toDigits hdigit

theorem not_mem_writePadded {c : Char} (h : c.isDigit = false) (width n : Nat) :
    c ∉ (writePadded width n).toList := by
  intro hmem
  rw [isDigit_of_mem_writePadded hmem] at h
  cases h

/-- A number that fits into a width fills it exactly. -/
theorem length_writePadded {width n : Nat} (h : (Nat.toDigits 10 n).length ≤ width) :
    (writePadded width n).toList.length = width := by
  rw [writePadded, String.toList_ofList, List.length_append, List.length_replicate]
  omega

theorem ofDigitChars_writePadded (width n : Nat) :
    Nat.ofDigitChars 10 (writePadded width n).toList 0 = n := by
  rw [writePadded, String.toList_ofList, Nat.ofDigitChars_append, Nat.ofDigitChars_replicate_zero,
    Nat.mul_zero, Nat.ofDigitChars_ten_toDigits]

/-- Different numbers are written differently, also with zeros in front. -/
theorem writePadded_injective (width : Nat) : Function.Injective (writePadded width) := by
  intro n m h
  rw [← ofDigitChars_writePadded width n, h, ofDigitChars_writePadded]

/-- A number that fills its width is taken off from the end of a text. -/
theorem append_writePadded_inj {width n m : Nat} {front other : String}
    (hn : (Nat.toDigits 10 n).length ≤ width) (hm : (Nat.toDigits 10 m).length ≤ width)
    (h : front ++ writePadded width n = other ++ writePadded width m) : front = other ∧ n = m := by
  have hchars := congrArg String.toList h
  rw [String.toList_append, String.toList_append] at hchars
  have hlength : (writePadded width n).toList.length = (writePadded width m).toList.length := by
    rw [length_writePadded hn, length_writePadded hm]
  obtain ⟨hfront, hlast⟩ := List.append_inj' hchars hlength
  exact ⟨String.toList_inj.mp hfront, writePadded_injective width (String.toList_inj.mp hlast)⟩

end Text

end Backfill
