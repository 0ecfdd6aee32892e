import Backfill.Proofs.IntegerText
import Mathlib.Data.List.DropRight

/-!
# Trimmed texts and numerals

What trimming leaves and what is read as a number are said here without a reader: a text is cut into
blanks, a middle part whose ends are no blanks, and blanks; a numeral is a row of digits, with or
without a plus sign in front.

## Main definitions

* `Text.Trims` — a text is another one with blanks around it.
* `Text.Numeral` — characters denote a number.

## Main results

* `Text.trims_iff` — **trimming takes away exactly the blanks around a text.**
* `Text.trimChars_idem`, `Text.trimChars_eq_nil` — what was trimmed stays, and blanks do not.
* `Text.readIntegerChars_eq_ok` — **what is read as a number is a numeral within the limit.**
-/

namespace Backfill

namespace Text

/-! ### Trimming -/

/-- A text is this part of it with blanks around, and the ends of the part are no blanks. -/
inductive Trims : List Char → List Char → Prop
  | intro {before content after : List Char} (hbefore : ∀ c ∈ before, isBlank c = true)
    (hafter : ∀ c ∈ after, isBlank c = true)
    (hfirst : ∀ c ∈ content.head?, isBlank c = false)
    (hlast : ∀ c ∈ content.getLast?, isBlank c = false) :
    Trims (before ++ content ++ after) content

variable {chars content last : List Char}

theorem trimEndChars_append (h : ∀ c ∈ last, isBlank c = true) (chars : List Char) :
    trimEndChars (chars ++ last) = trimEndChars chars := by
  rw [trimEndChars, List.reverse_append,
    List.dropWhile_append_of_pos fun c hc => h c (List.mem_reverse.mp hc), trimEndChars]

theorem trimEndChars_eq_self (h : ∀ c ∈ content.getLast?, isBlank c = false) :
    trimEndChars content = content := by
  refine List.rdropWhile_eq_self_iff.mpr fun hne => ?_
  rw [h _ (List.getLast?_eq_some_getLast hne)]
  exact Bool.false_ne_true

theorem dropWhile_isBlank_eq_self (h : ∀ c ∈ content.head?, isBlank c = false) :
    content.dropWhile isBlank = content := by
  cases content with
  | nil => rfl
  | cons c rest => exact List.dropWhile_cons_of_neg (by simp [h c rfl])

theorem Trims.trimChars_eq (h : Trims chars content) : trimChars chars = content := by
  obtain ⟨hbefore, hafter, hfirst, hlast⟩ := h
  rw [List.append_assoc, trimChars, List.dropWhile_append_of_pos hbefore, List.dropWhile_append,
    dropWhile_isBlank_eq_self hfirst]
  split
  · next hempty =>
    rw [List.dropWhile_eq_nil_iff.mpr hafter, List.isEmpty_iff.mp hempty]
    rfl
  · rw [trimEndChars_append hafter, trimEndChars_eq_self hlast]

/-- What trimming leaves is a part of the text with blanks around it. -/
theorem trims_trimChars (chars : List Char) : Trims chars (trimChars chars) := by
  let kept := chars.dropWhile isBlank
  have hsplit : chars.takeWhile isBlank ++ trimEndChars kept ++ kept.rtakeWhile isBlank =
      chars := by
    rw [List.append_assoc]
    exact (congrArg _ List.rdropWhile_append_rtakeWhile).trans List.takeWhile_append_dropWhile
  have hfirst : ∀ c ∈ (trimEndChars kept).head?, isBlank c = false := fun c hc => by
    -- the part that is left starts like the text without the blanks in front
    have hkept : kept.head? = some c := by
      obtain ⟨rest, hrest⟩ := List.rdropWhile_prefix isBlank kept
      rw [← hrest, List.head?_append, show (kept.rdropWhile isBlank).head? = some c from hc]
      rfl
    have hnot := List.head?_dropWhile_not isBlank chars
    rwa [show (chars.dropWhile isBlank).head? = some c from hkept] at hnot
  have hlast : ∀ c ∈ (trimEndChars kept).getLast?, isBlank c = false := fun c hc => by
    obtain ⟨hne, rfl⟩ := List.mem_getLast?_eq_getLast hc
    exact Bool.eq_false_iff.mpr (List.rdropWhile_last_not isBlank kept hne)
  have hblank : ∀ c ∈ chars.takeWhile isBlank, isBlank c = true := fun _ =>
    List.mem_takeWhile_imp
  have hend : ∀ c ∈ kept.rtakeWhile isBlank, isBlank c = true := fun _ =>
    List.mem_rtakeWhile_imp
  have hintro := Trims.intro hblank hend hfirst hlast
  rwa [hsplit] at hintro

/-- **Trimming takes away exactly the blanks around a text.** -/
theorem trims_iff : Trims chars content ↔ trimChars chars = content :=
  ⟨Trims.trimChars_eq, fun h => h ▸ trims_trimChars chars⟩

theorem trimChars_append (h : ∀ c ∈ last, isBlank c = true) (chars : List Char) :
    trimChars (chars ++ last) = trimChars chars := by
  refine Trims.trimChars_eq ?_
  generalize htrim : trimChars chars = content
  obtain ⟨hbefore, hafter, hhead, htail⟩ := trims_iff.mpr htrim
  rw [List.append_assoc]
  exact .intro hbefore (List.forall_mem_append.mpr ⟨hafter, h⟩) hhead htail

/-! ### Numerals -/

/-- Characters denote a number: digits, with or without a plus sign in front. -/
inductive Numeral : List Char → Nat → Prop
  | plain {digits : List Char} (hne : digits ≠ []) (hdigits : ∀ c ∈ digits, c.isDigit) :
    Numeral digits (Nat.ofDigitChars 10 digits 0)
  | signed {digits : List Char} (hne : digits ≠ []) (hdigits : ∀ c ∈ digits, c.isDigit) :
    Numeral ('+' :: digits) (Nat.ofDigitChars 10 digits 0)

variable {limit value n : Nat}

/-- Only digits are read, and the number is their value, within the limit. -/
theorem readDigits_eq_ok (hvalue : value ≤ limit) : readDigits limit value chars = .ok n ↔
    (∀ c ∈ chars, c.isDigit) ∧ Nat.ofDigitChars 10 chars value = n ∧ n ≤ limit := by
  constructor
  · intro h
    -- The value read so far stays within the limit, as the rest of the digits asks.
    induction chars generalizing value with
    | nil =>
      obtain rfl := Except.ok.inj h
      exact ⟨nofun, rfl, hvalue⟩
    | cons c rest ih =>
      rw [readDigits] at h
      split at h
      · cases h
      next d hd =>
        split at h
        case isFalse => cases h
        case isTrue hle =>
        obtain ⟨hrest, hn, hlimit⟩ := ih hle h
        obtain ⟨hdigit, hval⟩ := Option.ite_none_right_eq_some.mp hd
        obtain rfl := Option.some.inj hval
        refine ⟨List.forall_mem_cons.mpr ⟨?_, hrest⟩, ?_, hlimit⟩
        · simpa [Char.isDigit, Char.le_def] using hdigit
        · rw [Nat.ofDigitChars_cons, Nat.mul_comm]
          exact hn
  · rintro ⟨hdigits, rfl, hle⟩
    exact readDigits_eq hdigits hle

/-- **What is read as a number is a numeral within the limit.** -/
theorem readIntegerChars_eq_ok :
    readIntegerChars limit chars = .ok n ↔ Numeral chars n ∧ n ≤ limit := by
  -- Nothing at all, a sign alone, a sign and digits, and digits alone.
  unfold readIntegerChars
  split
  · refine iff_of_false nofun ?_
    rintro ⟨hnumeral, -⟩
    cases hnumeral
    contradiction
  · refine iff_of_false nofun ?_
    rintro ⟨hnumeral, -⟩
    cases hnumeral with
    | plain _ hdigits => exact absurd (hdigits '+' (by simp)) (by decide)
    | signed hne => exact hne rfl
  · next digits hne =>
    rw [readDigits_eq_ok (Nat.zero_le limit)]
    constructor
    · rintro ⟨hdigits, rfl, hle⟩
      exact ⟨.signed (fun hnil => hne (by rw [hnil])) hdigits, hle⟩
    · rintro ⟨hnumeral, hle⟩
      cases hnumeral with
      | plain _ hdigits => exact absurd (hdigits '+' (by simp)) (by decide)
      | signed _ hdigits => exact ⟨hdigits, rfl, hle⟩
  · next hnil _ hplus =>
    rw [readDigits_eq_ok (Nat.zero_le limit)]
    constructor
    · rintro ⟨hdigits, rfl, hle⟩
      exact ⟨.plain hnil hdigits, hle⟩
    · rintro ⟨hnumeral, hle⟩
      cases hnumeral with
      | plain _ hdigits => exact ⟨hdigits, rfl, hle⟩
      | signed => exact absurd rfl (hplus _)

end Text

end Backfill
