/-!
# Bytes as text

Text arrives as bytes, and bytes need not be text.  A byte sequence is read as a sequence
of glyphs: a character for each well-formed UTF-8 sequence, and a broken glyph for each
byte that belongs to none.  Nothing is lost, so the readers built on glyphs can go on after
a broken one, or refuse it where they meet it.

## Main definitions

* `Glyph` — a character or a broken byte.
* `Glyph.ofBytes` — the glyphs of a byte sequence.
* `Glyph.ofString` — the glyphs of a string, none of them broken.
* `Glyph.chars?` — the characters of a sequence without a broken glyph.
* `Glyph.size` — the number of bytes of a sequence of glyphs.

## Main results

* `Glyph.chars?_ofString` — the characters of a string's glyphs are those of the string.
-/

namespace Backfill

/-- A character, or `none` for a byte that belongs to no character. -/
abbrev Glyph := Option Char

namespace Glyph

/-- Whether the byte continues a character. -/
def isTail (byte : UInt8) : Bool := 0x80 ≤ byte && byte ≤ 0xBF

/-- Appends the six payload bits of a continuation byte. -/
def extend (code : Nat) (byte : UInt8) : Nat := code * 64 + (byte.toNat - 0x80)

/-- The character with this code, if the code is large enough to need as many bytes as were
used for it and is that of a character. -/
def ofCode? (least code : Nat) : Option Char :=
  if h : code.isValidChar then
    if least ≤ code then some (Char.ofNatAux code h) else none
  else none

/-- The character that starts with `lead`, and how many of the following bytes belong to
it. -/
def decode? (lead : UInt8) (rest : List UInt8) : Option (Char × Nat) :=
  if lead < 0x80 then (ofCode? 0 lead.toNat).map (·, 0)
  else if lead < 0xC0 then none
  else if lead < 0xE0 then
    match rest with
    | a :: _ =>
      if isTail a then (ofCode? 0x80 (extend (lead.toNat - 0xC0) a)).map (·, 1) else none
    | _ => none
  else if lead < 0xF0 then
    match rest with
    | a :: b :: _ =>
      if isTail a && isTail b then
        (ofCode? 0x800 (extend (extend (lead.toNat - 0xE0) a) b)).map (·, 2)
      else none
    | _ => none
  else if lead < 0xF8 then
    match rest with
    | a :: b :: c :: _ =>
      if isTail a && isTail b && isTail c then
        (ofCode? 0x10000 (extend (extend (extend (lead.toNat - 0xF0) a) b) c)).map (·, 3)
      else none
    | _ => none
  else none

/-- The glyphs of a byte sequence. -/
def ofBytes : List UInt8 → List Glyph
  | [] => []
  | lead :: rest =>
    match decode? lead rest with
    | some (char, tails) => some char :: ofBytes (rest.drop tails)
    | none => none :: ofBytes rest
termination_by bytes => bytes.length
decreasing_by all_goals simp only [List.length_drop, List.length_cons]; omega

/-- The glyphs of a string. -/
def ofString (string : String) : List Glyph := string.toList.map some

/-- The characters of a sequence without a broken glyph. -/
def chars? (glyphs : List Glyph) : Option (List Char) := glyphs.mapM id

/-- Number of bytes of a sequence of glyphs. -/
def size (glyphs : List Glyph) : Nat :=
  glyphs.foldr (fun glyph size => glyph.elim 1 Char.utf8Size + size) 0

@[simp] theorem chars?_map_some (chars : List Char) : chars? (chars.map some) = some chars := by
  induction chars with
  | nil => rfl
  | cons c rest ih =>
    simp only [chars?] at ih
    simp only [chars?, List.map_cons, List.mapM_cons, ih]
    rfl

/-- The characters of a string's glyphs are those of the string. -/
@[simp] theorem chars?_ofString (string : String) :
    chars? (ofString string) = some string.toList := chars?_map_some _

end Glyph

end Backfill
