import Backfill.Json.Printer
import Backfill.Json.StringReader

/-!
# Strings come back

A string is written with its quotes and with escapes for the quote, the backslash and the control
characters.  The reader undoes this one character at a time, so what it does with the text of one
character is all there is to say about a string.

## Main results

* `Json.escape_cases` — the three ways in which a character is written.
* `Json.stringFrom_escape` — the text of a character is read as that character.
* `Json.stringValue_quoted` — a string that is written is read again.
-/

namespace Backfill

namespace Json

variable {read : List Char} {broken : Bool} {text : List Glyph}

/-! ### One glyph -/

theorem stringFrom_quote :
    stringFrom .plain read false (some '"' :: text) = .ok (read.reverse, text) :=
  rfl

theorem stringFrom_slash :
    stringFrom .plain read broken (some '\\' :: text) = stringFrom .escape read broken text :=
  rfl

theorem stringFrom_plain {c : Char} (hquote : c ≠ '"') (hslash : c ≠ '\\') (hcode : 32 ≤ c.toNat) :
    stringFrom .plain read broken (some c :: text) = stringFrom .plain (c :: read) broken text :=
  (if_neg hquote).trans ((if_neg hslash).trans (if_neg (Nat.not_lt.mpr hcode)))

theorem stringFrom_control {c : Char} (hquote : c ≠ '"') (hslash : c ≠ '\\')
    (hcode : c.toNat < 32) :
    stringFrom .plain read broken (some c :: text) =
      .error (StringState.plain.refuse (some c :: text)) :=
  (if_neg hquote).trans ((if_neg hslash).trans (if_pos hcode))

theorem stringFrom_escaped {letter : Char} (h : letter ≠ 'u') :
    stringFrom .escape read broken (some letter :: text) =
      match unescape? letter with
      | some plain => stringFrom .plain (plain :: read) broken text
      | none => .error (StringState.escape.refuse (some letter :: text)) :=
  if_neg h

theorem stringFrom_codeLetter :
    stringFrom .escape read broken (some 'u' :: text) =
      match enterCode? none text with
      | none => .error (.facing .endInString [])
      | some state => stringFrom state read broken text :=
  rfl

/-- A digit of a code, which may be the last one. -/
theorem stringFrom_coded {c : Char} {high : Option Nat} {due value : Nat} :
    stringFrom (.code high due value) read broken (some c :: text) =
      match hexValue? c with
      | none => .error ((StringState.code high due value).refuse (some c :: text))
      | some digit =>
        if due ≤ 1 then
          match leaveCode? high (value * 16 + digit) with
          | none => .error (.facing .loneSurrogate (some c :: text))
          | some (state, none) => stringFrom state read broken text
          | some (state, some c) => stringFrom state (c :: read) broken text
        else stringFrom (.code high (due - 1) (value * 16 + digit)) read broken text :=
  rfl

theorem stringFrom_pairSlash {first : Nat} :
    stringFrom (.pairBackslash first) read broken (some '\\' :: text) =
      stringFrom (.pairLetter first) read broken text :=
  rfl

theorem stringFrom_unpaired {c : Char} {first : Nat} (h : c ≠ '\\') :
    stringFrom (.pairBackslash first) read broken (some c :: text) =
      .error ((StringState.pairBackslash first).refuse (some c :: text)) :=
  if_neg h

theorem stringFrom_secondLetter {first : Nat} :
    stringFrom (.pairLetter first) read broken (some 'u' :: text) =
      match enterCode? (some first) text with
      | none => .error (.facing .endInString [])
      | some state => stringFrom state read broken text :=
  rfl

theorem stringFrom_unpairedLetter {c : Char} {first : Nat} (h : c ≠ 'u') :
    stringFrom (.pairLetter first) read broken (some c :: text) =
      .error ((StringState.pairLetter first).refuse (some c :: text)) :=
  if_neg h

theorem stringFrom_letter {letter c : Char} (hletter : letter ≠ 'u')
    (h : unescape? letter = some c) :
    stringFrom .plain read broken (some '\\' :: some letter :: text) =
      stringFrom .plain (c :: read) broken text := by
  rw [stringFrom_slash, stringFrom_escaped hletter, h]

theorem stringFrom_digit {letter : Char} {high : Option Nat} {due digit value : Nat}
    (h : hexValue? letter = some digit) :
    stringFrom (.code high (due + 2) value) read broken (some letter :: text) =
      stringFrom (.code high (due + 1) (value * 16 + digit)) read broken text := by
  rw [stringFrom_coded, h]
  exact if_neg (by omega)

theorem stringFrom_lastDigit {letter : Char} {high : Option Nat} {digit value : Nat}
    {state : StringState} {found : Option Char} (h : hexValue? letter = some digit)
    (hleave : leaveCode? high (value * 16 + digit) = some (state, found)) :
    stringFrom (.code high 1 value) read broken (some letter :: text) =
      stringFrom state (found.toList ++ read) broken text := by
  rw [stringFrom_coded, h]
  refine (if_pos (Nat.le_refl 1)).trans ?_
  rw [hleave]
  cases found <;> rfl

/-! ### Escapes by code -/

theorem hexValue?_hexDigit {n : Nat} (h : n < 16) : hexValue? (hexDigit n) = some n :=
  (by decide : ∀ n < 16, hexValue? (hexDigit n) = some n) n h

theorem leaveCode?_of_control {c : Char} (hcode : c.toNat < 32) :
    leaveCode? none c.toNat = some (.plain, some c) := by
  have hlow : isLowSurrogate c.toNat = false := by simp [isLowSurrogate]; omega
  have hhigh : isHighSurrogate c.toNat = false := by simp [isHighSurrogate]; omega
  simp [leaveCode?, hlow, hhigh, Char.ofNat_toNat]

theorem enterCode?_of_four (a b c d : Char) (high : Option Nat) :
    enterCode? high (some a :: some b :: some c :: some d :: text) = some (.code high 4 0) := by
  have := a.utf8Size_pos
  have := b.utf8Size_pos
  have := c.utf8Size_pos
  have := d.utf8Size_pos
  simp only [enterCode?, Glyph.size, List.take, List.foldr, Option.elim]
  rw [if_neg (by omega)]

/-- A control character is read back from its code. -/
theorem stringFrom_code {c : Char} (hcode : c.toNat < 32) :
    stringFrom .plain read broken (some '\\' :: some 'u' :: some '0' :: some '0' ::
      some (hexDigit (c.toNat / 16)) :: some (hexDigit (c.toNat % 16)) :: text) =
      stringFrom .plain (c :: read) broken text := by
  have hzero : hexValue? '0' = some 0 := rfl
  have hfirst : hexValue? (hexDigit (c.toNat / 16)) = some (c.toNat / 16) :=
    hexValue?_hexDigit (by omega)
  have hlast : hexValue? (hexDigit (c.toNat % 16)) = some (c.toNat % 16) :=
    hexValue?_hexDigit (by omega)
  have hvalue : (c.toNat / 16) * 16 + c.toNat % 16 = c.toNat := by omega
  have henter : stringFrom .plain read broken (some '\\' :: some 'u' :: some '0' :: some '0' ::
      some (hexDigit (c.toNat / 16)) :: some (hexDigit (c.toNat % 16)) :: text) =
      stringFrom (.code none 4 0) read broken (some '0' :: some '0' ::
        some (hexDigit (c.toNat / 16)) :: some (hexDigit (c.toNat % 16)) :: text) := by
    rw [stringFrom_slash, stringFrom_codeLetter, enterCode?_of_four]
  have hleave : leaveCode? none ((((0 * 16 + 0) * 16 + 0) * 16 + c.toNat / 16) * 16 +
      c.toNat % 16) = some (.plain, some c) := by
    simp only [Nat.zero_mul, Nat.zero_add, hvalue, leaveCode?_of_control hcode]
  -- Control characters lie below 32, so the first two of the four digits are zeros.
  rw [henter, stringFrom_digit hzero, stringFrom_digit hzero, stringFrom_digit hfirst,
    stringFrom_lastDigit hlast hleave]
  rfl

/-! ### Whole strings -/

/-- A character is written as a letter behind a backslash, by its code, or as it is. -/
theorem escape_cases (c : Char) :
    (∃ letter, escape c = ['\\', letter] ∧ letter ≠ 'u' ∧ unescape? letter = some c) ∨
      (c.toNat < 32 ∧ escape c =
        ['\\', 'u', '0', '0', hexDigit (c.toNat / 16), hexDigit (c.toNat % 16)]) ∨
      (c ≠ '"' ∧ c ≠ '\\' ∧ 32 ≤ c.toNat ∧ escape c = [c]) := by
  have hletter (letter : Char) {code : Nat} (hcode : c.toNat = code) (hne : letter ≠ 'u')
      (h : unescape? letter = some (Char.ofNat code)) :
      letter ≠ 'u' ∧ unescape? letter = some c :=
    ⟨hne, by rw [h, ← hcode, Char.ofNat_toNat]⟩
  -- In the order in which the writer asks: the short forms first, then other control characters.
  unfold escape
  by_cases hquote : c = '"'
  · exact .inl ⟨'"', if_pos hquote, by decide, by rw [hquote]; rfl⟩
  rw [if_neg hquote]
  by_cases hslash : c = '\\'
  · exact .inl ⟨'\\', if_pos hslash, by decide, by rw [hslash]; rfl⟩
  rw [if_neg hslash]
  by_cases hback : c.toNat = 8
  · exact .inl ⟨'b', if_pos hback, hletter 'b' hback (by decide) rfl⟩
  rw [if_neg hback]
  by_cases htab : c.toNat = 9
  · exact .inl ⟨'t', if_pos htab, hletter 't' htab (by decide) rfl⟩
  rw [if_neg htab]
  by_cases hline : c.toNat = 10
  · exact .inl ⟨'n', if_pos hline, hletter 'n' hline (by decide) rfl⟩
  rw [if_neg hline]
  by_cases hfeed : c.toNat = 12
  · exact .inl ⟨'f', if_pos hfeed, hletter 'f' hfeed (by decide) rfl⟩
  rw [if_neg hfeed]
  by_cases hreturn : c.toNat = 13
  · exact .inl ⟨'r', if_pos hreturn, hletter 'r' hreturn (by decide) rfl⟩
  rw [if_neg hreturn]
  by_cases hcode : c.toNat < 32
  · exact .inr (.inl ⟨hcode, if_pos hcode⟩)
  · exact .inr (.inr ⟨hquote, hslash, Nat.not_lt.mp hcode, if_neg hcode⟩)

/-- The text of a character is read as that character. -/
theorem stringFrom_escape (c : Char) :
    stringFrom .plain read broken ((escape c).map some ++ text) =
      stringFrom .plain (c :: read) broken text := by
  rcases escape_cases c with ⟨letter, h, hne, hletter⟩ | ⟨hcode, h⟩ | ⟨hquote, hslash, hcode, h⟩
  · rw [h]
    exact stringFrom_letter hne hletter
  · rw [h]
    exact stringFrom_code hcode
  · rw [h]
    exact stringFrom_plain hquote hslash hcode

theorem stringFrom_flatMap_escape (chars : List Char) :
    stringFrom .plain read false ((chars.flatMap escape).map some ++ some '"' :: text) =
      .ok (read.reverse ++ chars, text) := by
  induction chars generalizing read with
  | nil => simp [stringFrom_quote]
  | cons c rest ih =>
    rw [List.flatMap_cons, List.map_append, List.append_assoc, stringFrom_escape, ih]
    simp

/-- A string that is written is read again. -/
theorem stringValue_quoted (string : String) :
    stringValue ((string.toList.flatMap escape ++ ['"']).map some ++ text) =
      .ok (string, text) := by
  rw [List.map_append, List.append_assoc]
  simp [stringValue, stringChars, stringFrom_flatMap_escape, Except.map]

end Json

end Backfill
