import Backfill.Proofs.JsonStrings

/-!
# The grammar of strings

Between the quotes of a string a character stands for itself, or is written as a letter behind a
backslash, by the four digits of its code, or by the codes of a pair of surrogates.  Every glyph is
a character, no half of a pair stands alone, and the quote, the backslash and the control characters
do not stand for themselves.  The reader of strings accepts just this.

## Main definitions

* `Json.FourDigits` — the digits of a code stand in front of a text.
* `Json.StringRest` — the characters of a string and its closing quote do.

## Main results

* `Json.stringValue_eq_ok_iff` — **strings are read by the grammar.**
* `Json.StringRest.length_lt`, `Json.StringRest.append` — a string takes up some of the text, and
  does not depend on what follows.
-/

namespace Backfill

namespace Json

/-! ### The grammar -/

/-- Four hexadecimal digits stand in front of a text. -/
inductive FourDigits : Nat → List Glyph → List Glyph → Prop
  | intro {a b c d : Char} {i j k l : Nat} {rest : List Glyph} (ha : hexValue? a = some i)
    (hb : hexValue? b = some j) (hc : hexValue? c = some k) (hd : hexValue? d = some l) :
    FourDigits (((i * 16 + j) * 16 + k) * 16 + l) (some a :: some b :: some c :: some d :: rest)
      rest

/-- The characters of a string and its closing quote stand in front of a text. -/
inductive StringRest : List Char → List Glyph → List Glyph → Prop
  | close {rest : List Glyph} : StringRest [] (some '"' :: rest) rest
  | plain {c : Char} {chars : List Char} {text rest : List Glyph} (hquote : c ≠ '"')
    (hslash : c ≠ '\\') (hcode : 32 ≤ c.toNat) (hmore : StringRest chars text rest) :
    StringRest (c :: chars) (some c :: text) rest
  /-- A character may be written as a letter behind a backslash. -/
  | letter {letter c : Char} {chars : List Char} {text rest : List Glyph}
    (hletter : unescape? letter = some c) (hmore : StringRest chars text rest) :
    StringRest (c :: chars) (some '\\' :: some letter :: text) rest
  /-- It may be written by its code, -/
  | code {code : Nat} {chars : List Char} {text behind rest : List Glyph}
    (hcode : FourDigits code text behind) (hhigh : isHighSurrogate code = false)
    (hlow : isLowSurrogate code = false) (hmore : StringRest chars behind rest) :
    StringRest (Char.ofNat code :: chars) (some '\\' :: some 'u' :: text) rest
  /-- or, beyond the first plane, by the codes of a pair of surrogates. -/
  | pair {high low : Nat} {chars : List Char} {text middle behind rest : List Glyph}
    (hfirst : FourDigits high text (some '\\' :: some 'u' :: middle))
    (hhigh : isHighSurrogate high = true) (hsecond : FourDigits low middle behind)
    (hlow : isLowSurrogate low = true) (hmore : StringRest chars behind rest) :
    StringRest (ofSurrogates high low :: chars) (some '\\' :: some 'u' :: text) rest

variable {state : StringState} {read chars : List Char} {broken : Bool}
  {text rest behind more : List Glyph} {high : Option Nat} {code : Nat}

/-- A string with a broken glyph is refused in the end. -/
theorem stringFrom_broken (state : StringState) (read : List Char) (text : List Glyph)
    (result : List Char × List Glyph) : stringFrom state read true text ≠ .ok result := by
  induction text generalizing state read with
  | nil => exact fun h => nomatch h
  | cons glyph text ih =>
    intro h
    unfold stringFrom at h
    split at h
    all_goals
      repeat' split at h
      all_goals first
        | exact ih _ _ h
        | contradiction

/-- A digit of an escape by code that is not the last one. -/
theorem exists_digit {due value : Nat} {result : List Char × List Glyph}
    (h : stringFrom (.code high (due + 2) value) read broken text = .ok result) :
    ∃ c digit tail, text = some c :: tail ∧ hexValue? c = some digit ∧
      stringFrom (.code high (due + 1) (value * 16 + digit)) read broken tail = .ok result := by
  cases text with
  | nil => contradiction
  | cons glyph tail =>
    cases glyph with
    | none => contradiction
    | some c =>
      -- A character that is no hexadecimal digit makes the reader fail.
      cases hdigit : hexValue? c with
      | none =>
        rw [stringFrom_coded, hdigit] at h
        contradiction
      | some digit =>
        rw [stringFrom_digit hdigit] at h
        exact ⟨c, digit, tail, rfl, hdigit, h⟩

/-- The last digit of an escape by code. -/
theorem exists_lastDigit {value : Nat} {result : List Char × List Glyph}
    (h : stringFrom (.code high 1 value) read broken text = .ok result) :
    ∃ c digit tail state found, text = some c :: tail ∧ hexValue? c = some digit ∧
      leaveCode? high (value * 16 + digit) = some (state, found) ∧
      stringFrom state (found.toList ++ read) broken tail = .ok result := by
  cases text with
  | nil => contradiction
  | cons glyph tail =>
    cases glyph with
    | none => contradiction
    | some c =>
      cases hdigit : hexValue? c with
      | none =>
        rw [stringFrom_coded, hdigit] at h
        contradiction
      | some digit =>
        -- The fourth digit completes the code, which may still be a surrogate out of place.
        cases hleave : leaveCode? high (value * 16 + digit) with
        | none =>
          simp only [stringFrom_coded, hdigit, hleave, if_pos (Nat.le_refl 1)] at h
          contradiction
        | some pair =>
          obtain ⟨state, found⟩ := pair
          rw [stringFrom_lastDigit hdigit hleave] at h
          exact ⟨c, digit, tail, state, found, rfl, hdigit, hleave, h⟩

theorem exists_fourDigits {result : List Char × List Glyph}
    (h : stringFrom (.code high 4 0) read broken text = .ok result) :
    ∃ code behind state found, FourDigits code text behind ∧
      leaveCode? high code = some (state, found) ∧
      stringFrom state (found.toList ++ read) broken behind = .ok result := by
  obtain ⟨a, i, _, rfl, ha, h⟩ := exists_digit h
  obtain ⟨b, j, _, rfl, hb, h⟩ := exists_digit h
  obtain ⟨c, k, _, rfl, hc, h⟩ := exists_digit h
  obtain ⟨d, l, behind, state, found, rfl, hd, hleave, h⟩ := exists_lastDigit h
  rw [Nat.zero_mul, Nat.zero_add] at hleave
  exact ⟨_, behind, state, found, .intro ha hb hc hd, hleave, h⟩

theorem stringFrom_fourDigits {found : Option Char} (h : FourDigits code text behind)
    (hleave : leaveCode? high code = some (state, found)) :
    stringFrom (.code high 4 0) read broken text =
      stringFrom state (found.toList ++ read) broken behind := by
  obtain ⟨ha, hb, hc, hd⟩ := h
  rw [stringFrom_digit ha, stringFrom_digit hb, stringFrom_digit hc]
  simp only [Nat.zero_mul, Nat.zero_add]
  rw [stringFrom_lastDigit hd hleave]

theorem enterCode?_of_fourDigits (h : FourDigits code text behind) (high : Option Nat) :
    enterCode? high text = some (.code high 4 0) := by
  obtain ⟨⟩ := h
  exact enterCode?_of_four _ _ _ _ high

/-- There is one way to go on behind the letter of an escape by code. -/
theorem of_enterCode? {result : List Char × List Glyph}
    (h : (match enterCode? high text with
      | none => .error (.facing .endInString [])
      | some state => stringFrom state read broken text : Read (List Char)) = .ok result) :
    stringFrom (.code high 4 0) read broken text = .ok result := by
  cases henter : enterCode? high text with
  | none =>
    rw [henter] at h
    contradiction
  | some state =>
    -- The check for four more characters passes or fails; it never changes the state.
    have hstate : state = .code high 4 0 := by
      unfold enterCode? at henter
      split at henter
      · contradiction
      · exact (Option.some.inj henter).symm
    rw [henter] at h
    exact hstate ▸ h

theorem stringFrom_escapeLetter (h : FourDigits code text behind) :
    stringFrom .plain read broken (some '\\' :: some 'u' :: text) =
      stringFrom (.code none 4 0) read broken text := by
  rw [stringFrom_slash, stringFrom_codeLetter, enterCode?_of_fourDigits h]

theorem stringFrom_pairLetter {first : Nat} (h : FourDigits code text behind) :
    stringFrom (.pairBackslash first) read broken (some '\\' :: some 'u' :: text) =
      stringFrom (.code (some first) 4 0) read broken text := by
  rw [stringFrom_pairSlash, stringFrom_secondLetter, enterCode?_of_fourDigits h]

theorem isLowSurrogate_of_high {first : Nat} (h : isHighSurrogate first = true) :
    isLowSurrogate first = false := by
  simp only [isHighSurrogate, Bool.and_eq_true, decide_eq_true_eq] at h
  simp only [isLowSurrogate, Bool.and_eq_false_imp, decide_eq_true_eq, decide_eq_false_iff_not]
  omega

/-- A string of the grammar is read. -/
theorem stringFrom_of_stringRest (h : StringRest chars text rest) :
    stringFrom .plain read false text = .ok (read.reverse ++ chars, rest) := by
  induction h generalizing read with
  | close => rw [stringFrom_quote, List.append_nil]
  | plain hquote hslash hcode _ ih =>
    rw [stringFrom_plain hquote hslash hcode, ih]
    simp
  | @letter letter c _ _ _ hletter _ ih =>
    have hne : letter ≠ 'u' := by
      rintro rfl
      contradiction
    rw [stringFrom_letter hne hletter, ih]
    simp
  | @code code _ _ _ _ hcode hhigh hlow _ ih =>
    have hleave : leaveCode? none code = some (.plain, some (Char.ofNat code)) := by
      simp [leaveCode?, hhigh, hlow]
    rw [stringFrom_escapeLetter hcode, stringFrom_fourDigits hcode hleave, ih]
    simp
  -- The first half leaves no character behind, the second completes the pair.
  | @pair high low _ _ _ _ _ hfirst hhigh hsecond hlow _ ih =>
    have hbegin : leaveCode? none high = some (.pairBackslash high, none) := by
      simp [leaveCode?, hhigh, isLowSurrogate_of_high hhigh]
    have hleave : leaveCode? (some high) low = some (.plain, some (ofSurrogates high low)) := by
      simp [leaveCode?, hlow]
    rw [stringFrom_escapeLetter hfirst, stringFrom_fourDigits hfirst hbegin, Option.toList_none,
      List.nil_append, stringFrom_pairLetter hsecond, stringFrom_fourDigits hsecond hleave, ih]
    simp

/-- What the reader of strings does with the first glyph: it stops at the closing quote, or goes on
behind a character that stands for itself or behind a backslash. -/
theorem cases_of_stringFrom {result : List Char × List Glyph}
    (h : stringFrom .plain read false text = .ok result) :
    (∃ tail, text = some '"' :: tail ∧ result = (read.reverse, tail)) ∨
      (∃ c tail, text = some c :: tail ∧ c ≠ '"' ∧ c ≠ '\\' ∧ 32 ≤ c.toNat ∧
        stringFrom .plain (c :: read) false tail = .ok result) ∨
      ∃ tail, text = some '\\' :: tail ∧ stringFrom .escape read false tail = .ok result := by
  cases text with
  | nil => contradiction
  | cons glyph tail =>
    cases glyph with
    | none => exact absurd h (stringFrom_broken _ _ _ _)
    -- The reader asks in this order whether a character is a quote, a backslash, or a control one.
    | some c =>
      by_cases hquote : c = '"'
      · subst hquote
        rw [stringFrom_quote] at h
        exact .inl ⟨tail, rfl, (Except.ok.inj h).symm⟩
      by_cases hslash : c = '\\'
      · subst hslash
        rw [stringFrom_slash] at h
        exact .inr (.inr ⟨tail, rfl, h⟩)
      by_cases hcode : c.toNat < 32
      · rw [stringFrom_control hquote hslash hcode] at h
        contradiction
      · have hcode := Nat.not_lt.mp hcode
        rw [stringFrom_plain hquote hslash hcode] at h
        exact .inr (.inl ⟨c, tail, rfl, hquote, hslash, hcode, h⟩)

/-- What it does behind a backslash: a letter stands for a character, or a code follows. -/
theorem cases_of_escape {result : List Char × List Glyph}
    (h : stringFrom .escape read false text = .ok result) :
    (∃ letter c tail, text = some letter :: tail ∧ unescape? letter = some c ∧
        stringFrom .plain (c :: read) false tail = .ok result) ∨
      ∃ tail, text = some 'u' :: tail ∧
        stringFrom (.code none 4 0) read false tail = .ok result := by
  cases text with
  | nil => contradiction
  | cons glyph tail =>
    cases glyph with
    | none => contradiction
    -- Only `u` opens a code; any other letter stands for one character or is an error.
    | some letter =>
      by_cases hletter : letter = 'u'
      · subst hletter
        rw [stringFrom_codeLetter] at h
        exact .inr ⟨tail, rfl, of_enterCode? h⟩
      · rw [stringFrom_escaped hletter] at h
        cases hplain : unescape? letter with
        | none =>
          rw [hplain] at h
          contradiction
        | some c =>
          rw [hplain] at h
          exact .inl ⟨letter, c, tail, rfl, hplain, h⟩

/-- What it does behind the first half of a pair: the second half follows. -/
theorem exists_pairLetter {first : Nat} {result : List Char × List Glyph}
    (h : stringFrom (.pairBackslash first) read false text = .ok result) :
    ∃ tail, text = some '\\' :: some 'u' :: tail ∧
      stringFrom (.code (some first) 4 0) read false tail = .ok result := by
  cases text with
  | nil => contradiction
  | cons glyph text =>
    cases glyph with
    | none => contradiction
    -- Both characters between the halves are fixed, so any other one contradicts success.
    | some c =>
      by_cases hslash : c = '\\'
      case neg =>
        rw [stringFrom_unpaired hslash] at h
        contradiction
      subst hslash
      cases text with
      | nil => contradiction
      | cons glyph tail =>
        cases glyph with
        | none => contradiction
        | some c =>
          by_cases hletter : c = 'u'
          case neg =>
            rw [stringFrom_pairSlash, stringFrom_unpairedLetter hletter] at h
            contradiction
          subst hletter
          rw [stringFrom_pairSlash, stringFrom_secondLetter] at h
          exact ⟨tail, rfl, of_enterCode? h⟩

/-- A code is no second half of a pair; if it is a first half, the second one is due. -/
theorem cases_of_leaveCode? {found : Option Char} (h : leaveCode? none code = some (state, found)) :
    isLowSurrogate code = false ∧
      ((isHighSurrogate code = true ∧ state = .pairBackslash code ∧ found = none) ∨
        (isHighSurrogate code = false ∧ state = .plain ∧ found = some (Char.ofNat code))) := by
  simp only [leaveCode?] at h
  split at h
  case isTrue => contradiction
  case isFalse hlow =>
    -- A low half alone has been refused; a high one waits for its pair.
    refine ⟨Bool.eq_false_iff.mpr hlow, ?_⟩
    split at h
    case isTrue hhigh =>
      obtain ⟨rfl, rfl⟩ := Prod.mk.inj (Option.some.inj h)
      exact .inl ⟨hhigh, rfl, rfl⟩
    case isFalse hhigh =>
      obtain ⟨rfl, rfl⟩ := Prod.mk.inj (Option.some.inj h)
      exact .inr ⟨Bool.eq_false_iff.mpr hhigh, rfl, rfl⟩

theorem eq_of_leaveCode? {first : Nat} {found : Option Char}
    (h : leaveCode? (some first) code = some (state, found)) :
    isLowSurrogate code = true ∧ state = .plain ∧ found = some (ofSurrogates first code) := by
  simp only [leaveCode?] at h
  split at h
  case isTrue hlow =>
    obtain ⟨rfl, rfl⟩ := Prod.mk.inj (Option.some.inj h)
    exact ⟨hlow, rfl, rfl⟩
  case isFalse => contradiction

theorem FourDigits.length_eq (h : FourDigits code text behind) :
    text.length = behind.length + 4 := by
  obtain ⟨⟩ := h
  rfl

/-- The reader of strings accepts strings of the grammar only. -/
theorem stringRest_of_stringFrom (h : stringFrom .plain read false text = .ok (chars, rest)) :
    ∃ found, chars = read.reverse ++ found ∧ StringRest found text rest := by
  -- an escape takes several glyphs, so the induction is on how many are left
  induction hlength : text.length using Nat.strongRecOn generalizing text read with
  | _ length ih =>
    subst hlength
    have hstep {c : Char} {tail : List Glyph} (hshort : tail.length < text.length)
        (hread : stringFrom .plain (c :: read) false tail = .ok (chars, rest)) :
        ∃ found, chars = read.reverse ++ c :: found ∧ StringRest found tail rest := by
      obtain ⟨found, hchars, hmore⟩ := ih _ hshort hread rfl
      exact ⟨found, by rw [hchars, List.reverse_cons, List.append_assoc]; rfl, hmore⟩
    rcases cases_of_stringFrom h with
      ⟨tail, htext, heq⟩ | ⟨c, tail, htext, hquote, hslash, hcode, hmore⟩ | ⟨tail, htext, hescape⟩
    · obtain ⟨rfl, rfl⟩ := Prod.mk.inj heq
      exact ⟨[], (List.append_nil _).symm, htext ▸ .close⟩
    · obtain ⟨found, hchars, hfound⟩ := hstep (by simp only [htext, List.length_cons]; omega) hmore
      exact ⟨c :: found, hchars, htext ▸ .plain hquote hslash hcode hfound⟩
    rcases cases_of_escape hescape with
      ⟨letter, c, after, rfl, hletter, hmore⟩ | ⟨after, rfl, hfour⟩
    · obtain ⟨found, hchars, hfound⟩ := hstep (by simp only [htext, List.length_cons]; omega) hmore
      exact ⟨c :: found, hchars, htext ▸ .letter hletter hfound⟩
    obtain ⟨code, behind, state, found, hcode, hleave, hgo⟩ := exists_fourDigits hfour
    have hlength := hcode.length_eq
    obtain ⟨hlow, ⟨hhigh, rfl, rfl⟩ | ⟨hhigh, rfl, rfl⟩⟩ := cases_of_leaveCode? hleave
    · obtain ⟨middle, rfl, hpair⟩ := exists_pairLetter hgo
      obtain ⟨low, last, state, found, hsecond, hpaired, hmore⟩ := exists_fourDigits hpair
      obtain ⟨hlow, rfl, rfl⟩ := eq_of_leaveCode? hpaired
      have hlengths := hsecond.length_eq
      have hshort : last.length < text.length := by
        simp only [htext, List.length_cons] at hlength ⊢
        omega
      rw [Option.toList_some, Option.toList_none, List.nil_append, List.singleton_append] at hmore
      obtain ⟨found, hchars, hfound⟩ := hstep hshort hmore
      refine ⟨_ :: found, hchars, ?_⟩
      rw [htext]
      exact .pair hcode hhigh hsecond hlow hfound
    · obtain ⟨found, hchars, hfound⟩ := hstep (by simp [htext]; omega) hgo
      exact ⟨_ :: found, hchars, htext ▸ .code hcode hhigh hlow hfound⟩

/-- **Strings are read by the grammar.** -/
theorem stringValue_eq_ok_iff {string : String} :
    stringValue text = .ok (string, rest) ↔ StringRest string.toList text rest := by
  constructor
  · intro h
    simp only [stringValue, stringChars] at h
    cases hread : stringFrom .plain [] false text with
    | error fault => simp [hread, Except.map] at h
    | ok result =>
      obtain ⟨chars, behind⟩ := result
      rw [hread] at h
      obtain ⟨rfl, rfl⟩ := Prod.mk.inj (Except.ok.inj h)
      -- Nothing was read before the first character, so what was found is the whole string.
      obtain ⟨found, rfl, hfound⟩ := stringRest_of_stringFrom hread
      simpa using hfound
  · intro h
    simp [stringValue, stringChars, stringFrom_of_stringRest h, Except.map]

/-- A string takes up some of the text. -/
theorem StringRest.length_lt (h : StringRest chars text rest) : rest.length < text.length := by
  induction h with
  | close => simp
  | plain _ _ _ _ ih => simp; omega
  | letter _ _ ih => simp; omega
  | code hcode _ _ _ ih =>
    have := hcode.length_eq
    simp; omega
  | pair hfirst _ hsecond _ _ ih =>
    have hlength := hfirst.length_eq
    have := hsecond.length_eq
    simp at hlength ⊢; omega

/-- Four digits do not depend on what follows. -/
theorem FourDigits.append (h : FourDigits code text behind) (more : List Glyph) :
    FourDigits code (text ++ more) (behind ++ more) := by
  obtain ⟨ha, hb, hc, hd⟩ := h
  exact .intro ha hb hc hd

/-- A string does not depend on what follows. -/
theorem StringRest.append (h : StringRest chars text rest) (more : List Glyph) :
    StringRest chars (text ++ more) (rest ++ more) := by
  induction h with
  | close => exact .close
  | plain hquote hslash hcode _ ih => exact .plain hquote hslash hcode ih
  | letter hletter _ ih => exact .letter hletter ih
  | code hcode hhigh hlow _ ih => exact .code (hcode.append more) hhigh hlow ih
  | pair hfirst hhigh hsecond hlow _ ih =>
    exact .pair (hfirst.append more) hhigh (hsecond.append more) hlow ih

end Json

end Backfill
