import Backfill.Proofs.JsonRoundTrip
import Backfill.Proofs.JsonStringGrammar

/-!
# The grammar of tokens

A token is a value that is neither an array nor an object: a word, a string or a number.  The
grammar says which glyphs in front of a text make up a token, and the reader of tokens accepts these
and no others.  All digits in front of a text belong to a number, so what follows a number does not
go on with it; apart from that, what follows a token has no part in it.

## Main definitions

* `Json.Fraction`, `Json.Exponent`, `Json.NumberText` — the grammar of numbers.
* `Json.Token` — a token stands in front of a text.

## Main results

* `Json.numeral_eq_ok_iff` — numbers are scanned by the grammar.
* `Json.scalar_eq_ok_iff` — **the reader of tokens reads what the grammar says.**
* `Json.Token.length_lt`, `Json.Token.append` — a token takes up some of the text, and does not
  depend on what follows.
-/

namespace Backfill

namespace Json

/-! ### Numbers -/

/-- The digits behind a point stand in front of a text, if there is a point. -/
inductive Fraction : Option (List Nat) → List Glyph → List Glyph → Prop
  | absent {text : List Glyph} (hpoint : text.head? ≠ some (some '.')) : Fraction none text text
  | present {d : Nat} {ds : List Nat} {text rest : List Glyph}
    (hdigits : digits text = (d :: ds, rest)) : Fraction (some (d :: ds)) (some '.' :: text) rest

/-- The letter in front of an exponent. -/
def IsExponentMark (glyph : Glyph) : Prop := glyph = some 'e' ∨ glyph = some 'E'

/-- The sign and the digits of an exponent stand in front of a text, if there is one. -/
inductive Exponent : Option (Bool × List Nat) → List Glyph → List Glyph → Prop
  | absent {text : List Glyph} (hmark : ∀ glyph ∈ text.head?, ¬IsExponentMark glyph) :
    Exponent none text text
  | unsigned {mark : Glyph} {d : Nat} {ds : List Nat} {text rest : List Glyph}
    (hmark : IsExponentMark mark) (hdigits : digits text = (d :: ds, rest)) :
    Exponent (some (false, d :: ds)) (mark :: text) rest
  | plus {mark : Glyph} {d : Nat} {ds : List Nat} {text rest : List Glyph}
    (hmark : IsExponentMark mark) (hdigits : digits text = (d :: ds, rest)) :
    Exponent (some (false, d :: ds)) (mark :: some '+' :: text) rest
  | minus {mark : Glyph} {d : Nat} {ds : List Nat} {text rest : List Glyph}
    (hmark : IsExponentMark mark) (hdigits : digits text = (d :: ds, rest)) :
    Exponent (some (true, d :: ds)) (mark :: some '-' :: text) rest

/-- The digits of a number stand in front of a text; no zero stands before other digits. -/
inductive NumberText : Numeral → List Glyph → List Glyph → Prop
  | intro {negative : Bool} {first : Nat} {others : List Nat} {fraction : Option (List Nat)}
    {exponent : Option (Bool × List Nat)} {text behind after rest : List Glyph}
    (hwhole : digits text = (first :: others, behind)) (hzero : first = 0 → others = [])
    (hfraction : Fraction fraction behind after) (hexponent : Exponent exponent after rest) :
    NumberText ⟨negative, first :: others, fraction, exponent⟩ text rest

section Numbers

variable {text rest more : List Glyph} {negative : Bool} {n : Numeral}

theorem exists_digit_of_digits {d : Nat} {ds : List Nat} (h : digits text = (d :: ds, rest)) :
    ∃ glyph tail, text = glyph :: tail ∧ digitValue? glyph = some d := by
  cases text with
  | nil => exact absurd h (by simp [digits])
  | cons glyph tail =>
    refine ⟨glyph, tail, rfl, ?_⟩
    cases hdigit : digitValue? glyph with
    | none => simp [digits, hdigit] at h
    | some value =>
      simp only [digits, hdigit, Prod.mk.injEq, List.cons.injEq] at h
      rw [h.1.1]

/-- The part before the point is read by the grammar. -/
theorem wholePart_eq_ok_iff {found : List Nat} :
    wholePart text = .ok (found, rest) ↔
      ∃ first others, found = first :: others ∧ digits text = (first :: others, rest) ∧
        (first = 0 → others = []) := by
  constructor
  · intro h
    unfold wholePart at h
    split at h
    case h_1 | h_2 | h_3 => contradiction
    case h_4 =>
      -- What is left is neither empty nor a zero with digits behind it.
      rename_i digits _ hempty hzero _ heq
      obtain ⟨rfl, rfl⟩ := Prod.mk.inj (Except.ok.inj h)
      cases digits with
      | nil => exact absurd rfl hempty
      | cons first others =>
        refine ⟨first, others, rfl, heq, ?_⟩
        rintro rfl
        cases others with
        | nil => rfl
        | cons second others => exact absurd rfl (hzero second others)
  · rintro ⟨first, others, rfl, hdigits, hzero⟩
    exact wholePart_eq hdigits hzero

/-- The fraction is read by the grammar. -/
theorem fractionPart_eq_ok_iff {found : Option (List Nat)} :
    fractionPart text = .ok (found, rest) ↔ Fraction found text rest := by
  constructor
  · intro h
    cases text with
    | nil =>
      obtain ⟨rfl, rfl⟩ := Prod.mk.inj (Except.ok.inj h)
      exact .absent (by simp)
    | cons glyph tail =>
      simp only [fractionPart] at h
      split at h
      case isFalse hpoint =>
        obtain ⟨rfl, rfl⟩ := Prod.mk.inj (Except.ok.inj h)
        exact .absent (by simpa using hpoint)
      case isTrue hpoint =>
        subst hpoint
        split at h
        case h_1 | h_2 => contradiction
        case h_3 =>
          -- A point is followed by at least one digit here.
          rename_i hempty _ heq
          obtain ⟨rfl, rfl⟩ := Prod.mk.inj (Except.ok.inj h)
          obtain ⟨d, ds, rfl⟩ := List.exists_cons_of_ne_nil hempty
          exact .present heq
  · intro h
    cases h with
    | absent hpoint =>
      cases text with
      | nil => rfl
      | cons glyph tail => exact if_neg (by simpa using hpoint)
    | present hdigits =>
      obtain ⟨glyph, tail, rfl, -⟩ := exists_digit_of_digits hdigits
      simp [fractionPart, hdigits]

/-- The exponent is read by the grammar. -/
theorem exponentPart_eq_ok_iff {found : Option (Bool × List Nat)} :
    exponentPart text = .ok (found, rest) ↔ Exponent found text rest := by
  constructor
  · intro h
    cases text with
    | nil =>
      obtain ⟨rfl, rfl⟩ := Prod.mk.inj (Except.ok.inj h)
      exact .absent (by simp)
    | cons mark tail =>
      simp only [exponentPart] at h
      split at h
      case isFalse hmark =>
        obtain ⟨rfl, rfl⟩ := Prod.mk.inj (Except.ok.inj h)
        exact .absent (by simpa [IsExponentMark] using hmark)
      case isTrue hmark =>
        split at h
        case h_1 | h_2 => contradiction
        case h_3 =>
          rename_i hempty heq _
          obtain ⟨rfl, rfl⟩ := Prod.mk.inj (Except.ok.inj h)
          obtain ⟨d, ds, rfl⟩ := List.exists_cons_of_ne_nil hempty
          -- the digits stand behind the sign, if there is one
          rcases tail with _ | ⟨sign, tail⟩
          · exact absurd heq (by simp [digits])
          · by_cases hminus : sign = some '-'
            · subst hminus
              exact .minus hmark (by simpa using heq)
            · by_cases hplus : sign = some '+'
              · subst hplus
                exact .plus hmark (by simpa using heq)
              · simp only [List.head?_cons, Option.some.injEq, hminus, hplus] at heq ⊢
                exact .unsigned hmark (by simpa using heq)
  · intro h
    cases h with
    | absent hmark =>
      cases text with
      | nil => rfl
      | cons mark tail => exact if_neg (hmark mark rfl)
    | unsigned hmark hdigits =>
      obtain ⟨glyph, tail, rfl, hdigit⟩ := exists_digit_of_digits hdigits
      -- a digit is no sign
      have hminus : glyph ≠ some '-' := by
        rintro rfl
        contradiction
      have hplus : glyph ≠ some '+' := by
        rintro rfl
        contradiction
      unfold IsExponentMark at hmark
      simp [exponentPart, hdigits, hmark, hminus, hplus]
    | plus hmark hdigits =>
      obtain ⟨glyph, tail, rfl, -⟩ := exists_digit_of_digits hdigits
      unfold IsExponentMark at hmark
      simp [exponentPart, hdigits, hmark]
    | minus hmark hdigits =>
      obtain ⟨glyph, tail, rfl, -⟩ := exists_digit_of_digits hdigits
      unfold IsExponentMark at hmark
      simp [exponentPart, hdigits, hmark]

/-- **Numbers are scanned by the grammar.** -/
theorem numeral_eq_ok_iff :
    numeral negative text = .ok (n, rest) ↔ n.negative = negative ∧ NumberText n text rest := by
  constructor
  · intro h
    -- The three parts are read one after the other, and each of them may fail.
    unfold numeral at h
    split at h
    case h_1 => contradiction
    case h_2 whole behind hwhole =>
    split at h
    case h_1 => contradiction
    case h_2 fraction after hfraction =>
    split at h
    case h_1 => contradiction
    case h_2 exponent last hexponent =>
    obtain ⟨rfl, rfl⟩ := Prod.mk.inj (Except.ok.inj h)
    obtain ⟨first, others, rfl, hdigits, hzero⟩ := wholePart_eq_ok_iff.mp hwhole
    exact ⟨rfl, .intro hdigits hzero (fractionPart_eq_ok_iff.mp hfraction)
      (exponentPart_eq_ok_iff.mp hexponent)⟩
  · rintro ⟨rfl, hdigits, hzero, hfraction, hexponent⟩
    simp only [numeral, wholePart_eq hdigits hzero, fractionPart_eq_ok_iff.mpr hfraction,
      exponentPart_eq_ok_iff.mpr hexponent]

/-- Digits take up as many glyphs as there are digits. -/
theorem length_of_digits {found : List Nat} (h : digits text = (found, rest)) :
    text.length = found.length + rest.length := by
  induction text generalizing found with
  | nil =>
    obtain ⟨rfl, rfl⟩ := Prod.mk.inj h
    rfl
  | cons glyph text ih =>
    cases hdigit : digitValue? glyph with
    | none =>
      simp only [digits, hdigit] at h
      obtain ⟨rfl, rfl⟩ := Prod.mk.inj h
      simp
    -- Every digit is one character of the text.
    | some d =>
      simp only [digits, hdigit] at h
      obtain ⟨rfl, rfl⟩ := Prod.mk.inj h
      rw [List.length_cons, ih rfl, List.length_cons]
      omega

/-- Digits do not depend on what follows, unless it goes on with them. -/
theorem digits_append_more {found : List Nat} (h : digits text = (found, rest))
    (hmore : EndsNumber more) : digits (text ++ more) = (found, rest ++ more) := by
  induction text generalizing found with
  | nil =>
    obtain ⟨rfl, rfl⟩ := Prod.mk.inj h
    -- At the end of the text it is the added text that has to stop the digits.
    have hnone : ∀ c ∈ ([] : List Char), c.isDigit := by simp
    exact digits_append hnone hmore
  | cons glyph text ih =>
    cases hdigit : digitValue? glyph with
    | none =>
      simp only [digits, hdigit] at h
      obtain ⟨rfl, rfl⟩ := Prod.mk.inj h
      simp [digits, hdigit]
    | some d =>
      simp only [digits, hdigit] at h
      obtain ⟨rfl, rfl⟩ := Prod.mk.inj h
      simp [digits, hdigit, ih rfl]

theorem Fraction.length_le {found : Option (List Nat)} (h : Fraction found text rest) :
    rest.length ≤ text.length := by
  cases h with
  | absent => exact Nat.le_refl _
  | present hdigits =>
    have := length_of_digits hdigits
    rw [List.length_cons]
    omega

theorem Exponent.length_le {found : Option (Bool × List Nat)} (h : Exponent found text rest) :
    rest.length ≤ text.length := by
  cases h with
  | absent => exact Nat.le_refl _
  | unsigned _ hdigits | plus _ hdigits | minus _ hdigits =>
    have := length_of_digits hdigits
    simp only [List.length_cons]
    omega

/-- A number takes up some of the text. -/
theorem NumberText.length_lt (h : NumberText n text rest) : rest.length < text.length := by
  obtain ⟨hdigits, -, hfraction, hexponent⟩ := h
  have hlength := length_of_digits hdigits
  rw [List.length_cons] at hlength
  have := hfraction.length_le
  have := hexponent.length_le
  omega

/-- A fraction does not depend on what follows, unless that goes on with it. -/
theorem Fraction.append {found : Option (List Nat)} (h : Fraction found text rest)
    (hmore : EndsNumber more) : Fraction found (text ++ more) (rest ++ more) := by
  cases h with
  | absent hpoint =>
    refine .absent ?_
    cases text with
    | nil => exact fun hhead => (hmore _ hhead).2.1 rfl
    | cons glyph tail => exact hpoint
  | present hdigits => exact .present (digits_append_more hdigits hmore)

/-- An exponent does not depend on what follows, unless that goes on with it. -/
theorem Exponent.append {found : Option (Bool × List Nat)} (h : Exponent found text rest)
    (hmore : EndsNumber more) : Exponent found (text ++ more) (rest ++ more) := by
  cases h with
  | absent hmark =>
    refine .absent ?_
    cases text with
    | nil => exact fun glyph hhead => not_or.mpr (hmore glyph hhead).2.2
    | cons glyph tail => exact hmark
  | unsigned hmark hdigits => exact .unsigned hmark (digits_append_more hdigits hmore)
  | plus hmark hdigits => exact .plus hmark (digits_append_more hdigits hmore)
  | minus hmark hdigits => exact .minus hmark (digits_append_more hdigits hmore)

/-- A number does not depend on what follows, unless that goes on with it. -/
theorem NumberText.append (h : NumberText n text rest) (hmore : EndsNumber more) :
    NumberText n (text ++ more) (rest ++ more) := by
  obtain ⟨hdigits, hzero, hfraction, hexponent⟩ := h
  exact .intro (digits_append_more hdigits hmore) hzero (hfraction.append hmore)
    (hexponent.append hmore)

theorem NumberText.exists_isDigit (h : NumberText n text rest) :
    ∃ c tail, text = some c :: tail ∧ c.isDigit := by
  obtain ⟨hdigits, -, -, -⟩ := h
  obtain ⟨glyph, tail, rfl, hdigit⟩ := exists_digit_of_digits hdigits
  obtain ⟨c, rfl, hc⟩ := Option.bind_eq_some_iff.mp hdigit
  refine ⟨c, tail, rfl, ?_⟩
  split at hc
  case isTrue hrange => exact Char.isDigit_iff_toNat.mpr hrange
  case isFalse => contradiction

/-- A number is read by the grammar and has a value. -/
theorem number_eq_ok_iff {value : Json} :
    number negative text = .ok (value, rest) ↔
      ∃ n : Numeral, n.negative = negative ∧ NumberText n text rest ∧ n.value? = some value := by
  constructor
  · intro h
    unfold number at h
    split at h
    case h_1 => contradiction
    case h_2 n behind hread =>
      obtain ⟨hnegative, htext⟩ := numeral_eq_ok_iff.mp hread
      split at h
      case h_1 => contradiction
      -- A numeral whose value overflows was refused in the case before.
      case h_2 found hvalue =>
        obtain ⟨rfl, rfl⟩ := Prod.mk.inj (Except.ok.inj h)
        exact ⟨n, hnegative, htext, hvalue⟩
  · rintro ⟨n, hnegative, htext, hvalue⟩
    simp only [number, numeral_eq_ok_iff.mpr ⟨hnegative, htext⟩, hvalue]

/-- A number has a number as its value. -/
theorem eq_of_value? {value : Json} (h : n.value? = some value) :
    (∃ k, value = .int k) ∨ ∃ bits, value = .real bits := by
  -- Both signs fall back on the same real number when the integer does not fit.
  have hreal (h : n.real? = some value) : ∃ bits, value = .real bits := by
    obtain ⟨size, -, rfl⟩ := Option.map_eq_some_iff.mp h
    exact ⟨_, rfl⟩
  unfold Numeral.value? at h
  split at h
  case h_2 => exact .inr (hreal h)
  case h_1 =>
    dsimp only at h
    split at h
    all_goals
      split at h
      case isTrue => exact .inl ⟨_, (Option.some.inj h).symm⟩
      case isFalse => exact .inr (hreal h)

end Numbers

/-! ### Tokens -/

/-- A word, a string or a number stands in front of a text. -/
inductive Token : Json → List Glyph → List Glyph → Prop
  | null {rest : List Glyph} :
    Token .null (some 'n' :: some 'u' :: some 'l' :: some 'l' :: rest) rest
  | true {rest : List Glyph} :
    Token (.bool true) (some 't' :: some 'r' :: some 'u' :: some 'e' :: rest) rest
  | false {rest : List Glyph} :
    Token (.bool false) (some 'f' :: some 'a' :: some 'l' :: some 's' :: some 'e' :: rest) rest
  | string {text : String} {behind rest : List Glyph}
    (hstring : StringRest text.toList behind rest) : Token (.str text) (some '"' :: behind) rest
  | positive {n : Numeral} {value : Json} {text rest : List Glyph} (hsign : n.negative = Bool.false)
    (hnumber : NumberText n text rest) (hvalue : n.value? = some value) : Token value text rest
  | negative {n : Numeral} {value : Json} {text rest : List Glyph} (hsign : n.negative = Bool.true)
    (hnumber : NumberText n text rest) (hvalue : n.value? = some value) :
    Token value (some '-' :: text) rest

section Tokens

variable {value : Json} {text rest more : List Glyph}

theorem word_eq_ok_iff {chars : List Char} :
    word chars text = .ok ((), rest) ↔ text = chars.map some ++ rest := by
  induction chars generalizing text with
  | nil => simp [word]
  | cons c chars ih =>
    cases text with
    | nil => simp [word]
    | cons glyph tail =>
      by_cases hc : glyph = some c
      · simp [word, hc, ih]
      · simp [word, hc]

theorem eq_of_constant {chars : List Char} {result : Json}
    (h : constant chars result text = .ok (value, rest)) :
    value = result ∧ text = chars.map some ++ rest := by
  cases hread : word chars text with
  | error fault => simp [constant, hread, Except.map] at h
  | ok found =>
    obtain ⟨⟨⟩, behind⟩ := found
    rw [constant, hread] at h
    obtain ⟨rfl, rfl⟩ := Prod.mk.inj (Except.ok.inj h)
    exact ⟨rfl, word_eq_ok_iff.mp hread⟩

/-- **The reader of tokens reads what the grammar says.** -/
theorem scalar_eq_ok_iff {glyph : Glyph} {tail : List Glyph} :
    scalar glyph tail = .ok (value, rest) ↔ Token value (glyph :: tail) rest := by
  constructor
  · intro h
    -- The first character decides: three constants, a string, a number with or without a sign.
    unfold scalar at h
    split at h
    case h_1 =>
      obtain ⟨rfl, rfl⟩ := eq_of_constant h
      exact .null
    case h_2 =>
      obtain ⟨rfl, rfl⟩ := eq_of_constant h
      exact .true
    case h_3 =>
      obtain ⟨rfl, rfl⟩ := eq_of_constant h
      exact .false
    case h_4 =>
      cases hread : stringValue tail with
      | error fault => simp [hread, Except.map] at h
      | ok result =>
        rw [hread] at h
        obtain ⟨rfl, rfl⟩ := Prod.mk.inj (Except.ok.inj h)
        exact .string (stringValue_eq_ok_iff.mp hread)
    case h_5 =>
      obtain ⟨n, hsign, hnumber, hvalue⟩ := number_eq_ok_iff.mp h
      exact .negative hsign hnumber hvalue
    case h_6 =>
      split at h
      case isFalse => contradiction
      case isTrue =>
        obtain ⟨n, hsign, hnumber, hvalue⟩ := number_eq_ok_iff.mp h
        exact .positive hsign hnumber hvalue
    case h_7 => contradiction
  · intro h
    cases h with
    | null | true | false => simp [scalar, constant, word, Except.map]
    | string hstring => simp only [scalar, stringValue_eq_ok_iff.mpr hstring, Except.map]
    | negative hsign hnumber hvalue =>
      exact number_eq_ok_iff.mpr ⟨_, hsign, hnumber, hvalue⟩
    -- A number without a sign starts with a digit, and so none of the cases before it applies.
    | positive hsign hnumber hvalue =>
      obtain ⟨c, rest, htext, hdigit⟩ := hnumber.exists_isDigit
      obtain ⟨rfl, rfl⟩ := List.cons.inj htext
      rw [scalar_digit hdigit]
      exact number_eq_ok_iff.mpr ⟨_, hsign, hnumber, hvalue⟩

/-- A token takes up some of the text. -/
theorem Token.length_lt (h : Token value text rest) : rest.length < text.length := by
  cases h with
  | null | true | false => simp; omega
  | string hstring => exact Nat.lt_succ_of_lt hstring.length_lt
  | positive _ hnumber => exact hnumber.length_lt
  | negative _ hnumber => exact Nat.lt_succ_of_lt hnumber.length_lt

/-- A token does not depend on what follows, unless that goes on with a number. -/
theorem Token.append (h : Token value text rest) (hmore : EndsNumber more) :
    Token value (text ++ more) (rest ++ more) := by
  cases h with
  | null => exact .null
  | true => exact .true
  | false => exact .false
  | string hstring => exact .string (hstring.append more)
  | positive hsign hnumber hvalue => exact .positive hsign (hnumber.append hmore) hvalue
  | negative hsign hnumber hvalue => exact .negative hsign (hnumber.append hmore) hvalue

end Tokens

end Json

end Backfill
