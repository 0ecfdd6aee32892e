import Backfill.Json.Skim
import Backfill.Proofs.JsonGrammar

/-!
# Values are read past

Nothing is kept of a value that does not matter but the brackets that are still open.  Reading past
it takes neither its numbers nor its nesting into account, and is less strict about strings than
reading it, so every value of the grammar is read past, up to the place where it ends.

## Main definitions

* `Json.ReadsPast` — reading past a value leads from one place to another.

## Main results

* `Json.StringRest.skipString`, `Json.NumberText.skipNumeral`, `Json.Token.skipScalar` — strings,
  numbers and tokens are read past.
* `Json.Spells.skip` — **a value is read past.**
-/

namespace Backfill

namespace Json

variable {text rest behind last : List Glyph}

/-! ### Strings -/

theorem skipStringFrom_digit {c : Char} {due digit : Nat} (h : hexValue? c = some digit) :
    skipStringFrom false (due + 1) (some c :: text) = skipStringFrom false due text := by
  refine (if_pos (Nat.succ_ne_zero due)).trans ?_
  rw [Option.bind_some, h, Nat.add_sub_cancel]

theorem skipStringFrom_plain {c : Char} (hquote : c ≠ '"') (hslash : c ≠ '\\')
    (hcode : 32 ≤ c.toNat) :
    skipStringFrom false 0 (some c :: text) = skipStringFrom false 0 text :=
  (if_neg hquote).trans ((if_neg hslash).trans (if_neg (Nat.not_lt.mpr hcode)))

theorem skipStringFrom_letter {letter c : Char} (hletter : letter ≠ 'u')
    (h : unescape? letter = some c) :
    skipStringFrom false 0 (some '\\' :: some letter :: text) = skipStringFrom false 0 text := by
  have hletter : some letter ≠ some 'u' := fun heq => hletter (Option.some.inj heq)
  refine (if_neg hletter).trans ?_
  rw [Option.bind_some, h]

/-- Four digits are read past. -/
theorem FourDigits.skipString {code : Nat} (h : FourDigits code text behind) :
    skipStringFrom false 4 text = skipStringFrom false 0 behind := by
  obtain ⟨ha, hb, hc, hd⟩ := h
  rw [skipStringFrom_digit ha, skipStringFrom_digit hb, skipStringFrom_digit hc,
    skipStringFrom_digit hd]

theorem FourDigits.skipEscape {code : Nat} (h : FourDigits code text behind) :
    skipStringFrom false 0 (some '\\' :: some 'u' :: text) = skipStringFrom false 0 behind := by
  have hsize : ¬Glyph.size (text.take 4) < 4 := by
    intro hsize
    have henter := enterCode?_of_fourDigits h none
    rw [enterCode?, if_pos hsize] at henter
    contradiction
  exact (if_neg hsize).trans h.skipString

/-- A string is read past. -/
theorem StringRest.skipString {chars : List Char} (h : StringRest chars text rest) :
    Json.skipString text = .ok ((), rest) := by
  unfold Json.skipString
  -- the halves of a pair are two escapes here, like any others
  induction h with
  | close => rfl
  | plain hquote hslash hcode _ ih => rw [skipStringFrom_plain hquote hslash hcode, ih]
  | @letter letter _ _ _ _ hletter _ ih =>
    have hne : letter ≠ 'u' := by
      rintro rfl
      contradiction
    rw [skipStringFrom_letter hne hletter, ih]
  | code hcode _ _ _ ih => rw [hcode.skipEscape, ih]
  | pair hfirst _ hsecond _ _ ih => rw [hfirst.skipEscape, hsecond.skipEscape, ih]

/-! ### Numbers -/

theorem skipDigits_eq {d : Nat} {ds : List Nat} (h : digits text = (d :: ds, rest)) :
    skipDigits text = .ok ((), rest) := by
  rw [skipDigits, h]

/-- An exponent is read past. -/
theorem Exponent.skipExponent {found : Option (Bool × List Nat)} (h : Exponent found text rest) :
    Json.skipExponent text = .ok ((), rest) := by
  cases h with
  | absent hmark =>
    cases text with
    | nil => rfl
    | cons mark tail => exact if_neg (hmark mark rfl)
  | unsigned hmark hdigits =>
    obtain ⟨glyph, tail, rfl, hdigit⟩ := exists_digit_of_digits hdigits
    -- a digit is no sign
    have hsign : ¬(glyph = some '+' ∨ glyph = some '-') := by
      rintro (rfl | rfl) <;> contradiction
    exact (if_pos hmark).trans ((if_neg hsign).trans (skipDigits_eq hdigits))
  | plus hmark hdigits =>
    exact (if_pos hmark).trans ((if_pos (.inl rfl)).trans (skipDigits_eq hdigits))
  | minus hmark hdigits =>
    exact (if_pos hmark).trans ((if_pos (.inr rfl)).trans (skipDigits_eq hdigits))

/-- A number is read past. -/
theorem NumberText.skipNumeral {n : Numeral} (h : NumberText n text rest) :
    Json.skipNumeral text = .ok ((), rest) := by
  obtain @⟨_, first, others, _, _, _, behind, _, _, hdigits, hzero, hfraction, hexponent⟩ := h
  unfold Json.skipNumeral
  rw [hdigits]
  split
  case h_1 heq => exact absurd (Prod.mk.inj heq).1 (List.cons_ne_nil _ _)
  -- A zero followed by a digit is what the grammar excludes.
  case h_2 heq =>
    obtain ⟨rfl, hothers⟩ := List.cons.inj (Prod.mk.inj heq).1
    exact absurd (hothers.symm.trans (hzero rfl)) (List.cons_ne_nil _ _)
  case h_3 glyph tail _ heq =>
    obtain rfl := (Prod.mk.inj heq).2
    cases hfraction with
    | absent hpoint =>
      rw [if_neg (by simpa using hpoint)]
      exact hexponent.skipExponent
    | present hfound =>
      rw [if_pos rfl, skipDigits_eq hfound]
      exact hexponent.skipExponent
  -- Nothing follows the digits, so there is neither a fraction nor an exponent.
  case h_4 heq =>
    obtain rfl := (Prod.mk.inj heq).2
    cases hfraction
    cases hexponent
    rfl

/-- A digit starts a number that is read past. -/
theorem skipScalar_digit {c : Char} (h : c.isDigit) (text : List Glyph) :
    Json.skipScalar (some c) text = Json.skipNumeral (some c :: text) := by
  obtain ⟨hlow, hhigh⟩ := Char.isDigit_iff_toNat.mp h
  unfold Json.skipScalar
  split
  case h_6 heq =>
    obtain rfl := Option.some.inj heq
    exact if_pos ⟨hlow, hhigh⟩
  case h_7 heq => exact absurd heq nofun
  all_goals
    rename_i heq
    obtain rfl := Option.some.inj heq
    exact absurd h (by decide)

/-- A token is read past. -/
theorem Token.skipScalar {v : Json} {glyph : Glyph} (h : Token v (glyph :: text) rest) :
    Json.skipScalar glyph text = .ok ((), rest) := by
  cases h with
  | null | true | false => simp [Json.skipScalar, word]
  | string hstring => exact hstring.skipString
  | negative _ hnumber => exact hnumber.skipNumeral
  | positive _ hnumber =>
    obtain ⟨c, tail, htext, hdigit⟩ := hnumber.exists_isDigit
    obtain ⟨rfl, rfl⟩ := List.cons.inj htext
    rw [skipScalar_digit hdigit]
    exact hnumber.skipNumeral

/-! ### Open brackets -/

theorem skipFrom_nil (bound : List Glyph) : skipFrom bound false [] text = .ok ((), text) := by
  cases bound <;> rfl

theorem skipFrom_inside {glyph : Glyph} {bracket : Bracket} {bound : List Glyph}
    {outer : List Bracket} :
    skipFrom (glyph :: bound) false (bracket :: outer) text =
      match skipNext bracket text with
      | .error fault => .error fault
      | .ok (true, text) => skipFrom bound true (bracket :: outer) text
      | .ok (false, text) => skipFrom bound false outer text :=
  rfl

/-- A value that is due opens a bracket, or is a token. -/
theorem skipFrom_due {glyph : Glyph} {bound : List Glyph} {outer : List Bracket} :
    skipFrom (glyph :: bound) true outer text =
      match skipBlank text with
      | [] => .error (.facing .endInValue [])
      | glyph :: rest =>
        if glyph = some '[' ∨ glyph = some '\x7b' then
          let bracket := if glyph = some '[' then Bracket.square else .curly
          match skipOpen bracket rest with
          | .error fault => .error fault
          | .ok (true, text) => skipFrom bound true (bracket :: outer) text
          | .ok (false, text) => skipFrom bound false outer text
        else
          match skipScalar glyph rest with
          | .error fault => .error fault
          | .ok ((), text) => skipFrom bound false outer text :=
  rfl

/-- Reading past a value leads from one place to another, whatever brackets are open; the text that
is left is long enough for what follows. -/
def ReadsPast (text rest : List Glyph) : Prop :=
  ∀ (bound : List Glyph) (outer : List Bracket), text.length ≤ bound.length →
    ∃ left, rest.length ≤ left.length ∧
      skipFrom bound true outer text = skipFrom left false outer rest

/-- The character that closes a bracket. -/
def Bracket.close : Bracket → Char
  | .square => ']'
  | .curly => '\x7d'

theorem skipNext_of_close {bracket : Bracket} (h : skipBlank text = some bracket.close :: rest) :
    skipNext bracket text = .ok (false, rest) := by
  cases bracket <;> simp only [skipNext, h, Bracket.close, if_true]

/-- Items are read past one by one, if each of them is. -/
theorem Following.readsPast {α : Type} {bracket : Bracket}
    {one : α → List Glyph → List Glyph → Prop}
    (hone : ∀ {item text tail behind}, skipBlank text = some ',' :: tail → one item tail behind →
      ∃ start, skipNext bracket text = .ok (true, start) ∧ start.length ≤ tail.length ∧
        ReadsPast start behind)
    {items : List α} (h : Following bracket.close one items text rest) {bound : List Glyph}
    (hbound : text.length ≤ bound.length) (outer : List Bracket) :
    ∃ left, rest.length ≤ left.length ∧
      skipFrom bound false (bracket :: outer) text = skipFrom left false outer rest := by
  -- Each step uses up one unit of the bound, so what is left still bounds the text behind.
  induction h generalizing bound with
  | done hclose =>
    have hlength := length_lt_of_skipBlank hclose
    obtain ⟨_, bound, rfl⟩ := List.exists_cons_of_length_pos
      (Nat.lt_of_lt_of_le (Nat.zero_lt_of_lt hlength) hbound)
    rw [List.length_cons] at hbound
    exact ⟨bound, by omega, by rw [skipFrom_inside, skipNext_of_close hclose]⟩
  | next hcomma hitem _ ih =>
    have hlength := length_lt_of_skipBlank hcomma
    obtain ⟨_, bound, rfl⟩ := List.exists_cons_of_length_pos
      (Nat.lt_of_lt_of_le (Nat.zero_lt_of_lt hlength) hbound)
    rw [List.length_cons] at hbound
    obtain ⟨start, hnext, hstart, hpast⟩ := hone hcomma hitem
    obtain ⟨left, hleft, hskip⟩ := hpast bound (bracket :: outer) (by omega)
    obtain ⟨last, hlast, hrest⟩ := ih hleft
    refine ⟨last, hlast, ?_⟩
    rw [skipFrom_inside, hnext]
    exact hskip.trans hrest

/-! ### Arrays and objects -/

/-- Reading past a value from its start ends behind it. -/
theorem ReadsPast.skip (h : ReadsPast text rest) : Json.skip text = .ok ((), rest) := by
  obtain ⟨left, -, hskip⟩ := h text [] (Nat.le_refl _)
  rw [Json.skip, hskip, skipFrom_nil]

theorem skipFrom_skipBlank (bound : List Glyph) (outer : List Bracket) (text : List Glyph) :
    skipFrom bound true outer (skipBlank text) = skipFrom bound true outer text := by
  cases bound with
  | nil => rfl
  | cons glyph bound => simp only [skipFrom_due, skipBlank_skipBlank]

/-- No value that is read past starts with the bracket that ends an array. -/
theorem ReadsPast.exists_start (h : ReadsPast text rest) :
    ∃ glyph tail, skipBlank text = glyph :: tail ∧ glyph ≠ some ']' := by
  have hskip := h.skip
  rw [Json.skip] at hskip
  cases text with
  | nil => contradiction
  | cons first more =>
    rw [skipFrom_due] at hskip
    split at hskip
    case h_1 => contradiction
    case h_2 glyph tail htext =>
      refine ⟨glyph, tail, htext, ?_⟩
      rintro rfl
      contradiction

theorem skipNext_item {tail : List Glyph} (hcomma : skipBlank text = some ',' :: tail)
    (hitem : ReadsPast tail behind) :
    ∃ start, skipNext .square text = .ok (true, start) ∧ start.length ≤ tail.length ∧
      ReadsPast start behind :=
  ⟨tail, by simp [skipNext, hcomma], Nat.le_refl _, hitem⟩

theorem skipName_of_field {α : Type} {one : α → List Glyph → List Glyph → Prop} {field : String × α}
    (h : Field one field text rest) :
    ∃ start, skipName text = .ok ((), start) ∧ start.length ≤ text.length ∧
      one field.2 start rest := by
  obtain @⟨_, tail, behind, after, _, _, _, hquote, hname, hcolon, hvalue⟩ := h
  have htail := length_lt_of_skipBlank hquote
  have hbehind := hname.length_lt
  have hafter := length_lt_of_skipBlank hcolon
  refine ⟨after, ?_, by omega, hvalue⟩
  simp [skipName, hquote, hname.skipString, colon, hcolon]

theorem skipName_skipBlank (text : List Glyph) : skipName (skipBlank text) = skipName text := by
  rw [skipName, skipBlank_skipBlank, ← skipName]

theorem skipNext_field {α : Type} {field : String × α} {tail : List Glyph}
    (hcomma : skipBlank text = some ',' :: tail)
    (hfield : Field (fun _ => ReadsPast) field tail behind) :
    ∃ start, skipNext .curly text = .ok (true, start) ∧ start.length ≤ tail.length ∧
      ReadsPast start behind := by
  obtain ⟨start, hname, hlength, hvalue⟩ := skipName_of_field hfield
  exact ⟨start, by simp [skipNext, hcomma, hname, Except.map], hlength, hvalue⟩

/-- An array is read past if its items are. -/
theorem readsPast_array {α : Type} {items : List α} (htext : skipBlank text = some '[' :: behind)
    (h : Enclosed ']' (fun _ => ReadsPast) items behind rest) : ReadsPast text rest := by
  intro bound outer hbound
  have hlength := length_lt_of_skipBlank htext
  obtain ⟨_, bound, rfl⟩ := List.exists_cons_of_length_pos
    (Nat.lt_of_lt_of_le (Nat.zero_lt_of_lt hlength) hbound)
  rw [List.length_cons] at hbound
  -- An empty list is closed at once; otherwise the first item is skipped with the list still open.
  cases h with
  | empty hclose =>
    have := length_lt_of_skipBlank hclose
    exact ⟨bound, by omega, by simp [skipFrom_due, htext, skipOpen, hclose]⟩
  | @items _ last _ item others hitem hmore =>
    obtain ⟨glyph, tail, hstart, hne⟩ := hitem.exists_start
    have hopen : skipOpen .square behind = .ok (true, skipBlank behind) := by
      simp [skipOpen, hstart, hne]
    obtain ⟨left, hleft, hskip⟩ := hitem bound (.square :: outer) (by omega)
    have hmore : Following Bracket.square.close (fun _ => ReadsPast) others last rest := hmore
    obtain ⟨less, hless, hrest⟩ := hmore.readsPast skipNext_item hleft outer
    refine ⟨less, hless, ?_⟩
    rw [← hrest, ← hskip, ← skipFrom_skipBlank bound _ behind]
    simp [skipFrom_due, htext, hopen]

/-- An object is read past if the values of its fields are. -/
theorem readsPast_object {α : Type} {fields : List (String × α)}
    (htext : skipBlank text = some '\x7b' :: behind)
    (h : Enclosed '\x7d' (Field fun _ => ReadsPast) fields behind rest) : ReadsPast text rest := by
  intro bound outer hbound
  have hlength := length_lt_of_skipBlank htext
  obtain ⟨_, bound, rfl⟩ := List.exists_cons_of_length_pos
    (Nat.lt_of_lt_of_le (Nat.zero_lt_of_lt hlength) hbound)
  rw [List.length_cons] at hbound
  cases h with
  | empty hclose =>
    have := length_lt_of_skipBlank hclose
    exact ⟨bound, by omega, by simp [skipFrom_due, htext, skipOpen, hclose]⟩
  | @items _ last _ field others hfield hmore =>
    -- As for a list, except that each value is reached through its name and colon.
    obtain ⟨tail, hquote⟩ := hfield.exists_quote
    obtain ⟨start, hname, hstart, hvalue⟩ := skipName_of_field hfield
    have hopen : skipOpen .curly behind = .ok (true, start) := by
      rw [← skipName_skipBlank, hquote] at hname
      simp [skipOpen, hquote, hname, Except.map]
    obtain ⟨left, hleft, hskip⟩ := hvalue bound (.curly :: outer) (by omega)
    have hmore : Following Bracket.curly.close (Field fun _ => ReadsPast) others last rest := hmore
    obtain ⟨less, hless, hrest⟩ := hmore.readsPast skipNext_field hleft outer
    refine ⟨less, hless, ?_⟩
    rw [← hrest, ← hskip]
    simp [skipFrom_due, htext, hopen]

/-- A token is read past in one step. -/
theorem readsPast_token {v : Json} (h : Token v (skipBlank text) rest) : ReadsPast text rest := by
  intro bound outer hbound
  obtain ⟨glyph, tail, htext⟩ := List.exists_cons_of_length_pos (Nat.zero_lt_of_lt h.length_lt)
  have hlength := h.length_lt
  have hblank := length_skipBlank_le text
  obtain ⟨_, bound, rfl⟩ := List.exists_cons_of_length_pos
    (show 0 < bound.length by omega)
  rw [List.length_cons] at hbound
  rw [htext] at h
  have hlist : ¬(glyph = some '[' ∨ glyph = some '\x7b') := by
    rintro (rfl | rfl) <;> exact absurd (scalar_eq_ok_iff.mpr h) nofun
  refine ⟨bound, by omega, ?_⟩
  simp [skipFrom_due, htext, hlist, h.skipScalar]

/-- **A value is read past, up to the place where it ends.** -/
theorem Spells.skip {v : Json} (h : Spells v text rest) : Json.skip text = .ok ((), rest) := by
  refine ReadsPast.skip (h.inductionOn (motive := fun _ => ReadsPast) ?_ ?_ ?_)
  case refine_1 => exact readsPast_token
  case refine_2 => exact readsPast_array
  case refine_3 => exact readsPast_object

end Json

end Backfill
