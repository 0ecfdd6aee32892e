import Backfill.Text.Utf8

/-!
# Text comes back from its bytes

The bytes of a text are read as the characters of the text.  The code of a character is cut into
groups of six bits, of which the first byte has the highest ones; the reader puts the groups
together again.  A byte that is a character on its own belongs to none in front of it, so bytes are
cut there into glyphs whatever they are.

## Main results

* `Glyph.decode?_utf8EncodeChar` — the bytes of a character are read as that character.
* `Glyph.ofBytes_toUTF8` — the glyphs of the bytes of a string are those of the string.
* `Glyph.ofBytes_append` — bytes may be cut in front of a byte that is a character.
-/

namespace Backfill

namespace Glyph

/-! ### Single bytes -/

theorem toNat_ofNat {n : Nat} (h : n < 256) : (UInt8.ofNat n).toNat = n := UInt8.toNat_ofNat_of_lt h

theorem ofNat_lt {n : Nat} {bound : UInt8} (h : n < bound.toNat) : UInt8.ofNat n < bound := by
  rwa [UInt8.lt_iff_toNat_lt, toNat_ofNat (Nat.lt_trans h bound.toNat_lt)]

theorem not_ofNat_lt {n : Nat} {bound : UInt8} (hn : n < 256) (h : bound.toNat ≤ n) :
    ¬UInt8.ofNat n < bound := by
  rw [UInt8.lt_iff_toNat_lt, toNat_ofNat hn]
  exact Nat.not_lt.mpr h

theorem toNat_tail (n : Nat) : (UInt8.ofNat (n % 64 + 128)).toNat = n % 64 + 128 :=
  toNat_ofNat (by omega)

theorem isTail_tail (n : Nat) : isTail (UInt8.ofNat (n % 64 + 128)) = true := by
  have hlow : (0x80 : UInt8) ≤ UInt8.ofNat (n % 64 + 128) := by
    rw [UInt8.le_iff_toNat_le, toNat_tail]
    exact Nat.le_add_left 128 _
  have hhigh : UInt8.ofNat (n % 64 + 128) ≤ (0xBF : UInt8) := by
    rw [UInt8.le_iff_toNat_le, toNat_tail]
    exact Nat.add_le_add_right (Nat.le_of_lt_succ (Nat.mod_lt n (by decide))) 128
  rw [isTail, decide_eq_true hlow, decide_eq_true hhigh, Bool.and_self]

theorem extend_tail (code n : Nat) :
    extend code (UInt8.ofNat (n % 64 + 128)) = code * 64 + n % 64 := by
  unfold extend
  rw [toNat_tail]
  exact congrArg (code * 64 + ·) (Nat.add_sub_cancel (n % 64) 128)

theorem ofCode?_toNat {c : Char} {least : Nat} (h : least ≤ c.toNat) :
    ofCode? least c.toNat = some c := by
  have hvalid : c.toNat.isValidChar := c.valid
  rw [ofCode?, dif_pos hvalid, if_pos h]
  exact congrArg some (Char.toNat_inj.mp rfl)

/-! ### Codes -/

variable {code : Nat} {rest : List UInt8}

theorem decode?_one (h : code < 128) :
    decode? (UInt8.ofNat code) rest = (ofCode? 0 code).map (·, 0) := by
  have hbyte : (UInt8.ofNat code).toNat = code := toNat_ofNat (Nat.lt_trans h (by decide))
  exact (if_pos (ofNat_lt h)).trans (by rw [hbyte])

/-- A code of eleven bits takes two bytes. -/
theorem decode?_two (h : code < 0x800) :
    decode? (UInt8.ofNat (code / 64 % 32 + 192)) (UInt8.ofNat (code % 64 + 128) :: rest) =
      (ofCode? 0x80 code).map (·, 1) := by
  have hlead : code / 64 % 32 + 192 < 256 := by omega
  have hbyte : (UInt8.ofNat (code / 64 % 32 + 192)).toNat - 0xC0 = code / 64 % 32 := by
    rw [toNat_ofNat hlead]
    exact Nat.add_sub_cancel _ _
  have hcode : code / 64 % 32 * 64 + code % 64 = code := by omega
  rw [decode?, if_neg (not_ofNat_lt hlead (Nat.le_add_left_of_le (by decide))),
    if_neg (not_ofNat_lt hlead (Nat.le_add_left_of_le (by decide))),
    if_pos (ofNat_lt (Nat.add_lt_add_right (Nat.mod_lt _ (by decide)) 192))]
  simp only [isTail_tail, extend_tail, hbyte, hcode, if_true]

/-- A code of sixteen bits takes three bytes. -/
theorem decode?_three (h : code < 0x10000) :
    decode? (UInt8.ofNat (code / 4096 % 16 + 224))
      (UInt8.ofNat (code / 64 % 64 + 128) :: UInt8.ofNat (code % 64 + 128) :: rest) =
      (ofCode? 0x800 code).map (·, 2) := by
  have hlead : code / 4096 % 16 + 224 < 256 := by omega
  have hbyte : (UInt8.ofNat (code / 4096 % 16 + 224)).toNat - 0xE0 = code / 4096 % 16 := by
    rw [toNat_ofNat hlead]
    exact Nat.add_sub_cancel _ _
  have hcode : (code / 4096 % 16 * 64 + code / 64 % 64) * 64 + code % 64 = code := by omega
  rw [decode?, if_neg (not_ofNat_lt hlead (Nat.le_add_left_of_le (by decide))),
    if_neg (not_ofNat_lt hlead (Nat.le_add_left_of_le (by decide))),
    if_neg (not_ofNat_lt hlead (Nat.le_add_left_of_le (by decide))),
    if_pos (ofNat_lt (Nat.add_lt_add_right (Nat.mod_lt _ (by decide)) 224))]
  simp only [isTail_tail, extend_tail, hbyte, hcode, Bool.and_self, if_true]

/-- A code of twenty-one bits takes four bytes. -/
theorem decode?_four (h : code < 0x200000) :
    decode? (UInt8.ofNat (code / 262144 % 8 + 240)) (UInt8.ofNat (code / 4096 % 64 + 128) ::
      UInt8.ofNat (code / 64 % 64 + 128) :: UInt8.ofNat (code % 64 + 128) :: rest) =
      (ofCode? 0x10000 code).map (·, 3) := by
  have hlead : code / 262144 % 8 + 240 < 256 := by omega
  have hbyte : (UInt8.ofNat (code / 262144 % 8 + 240)).toNat - 0xF0 = code / 262144 % 8 := by
    rw [toNat_ofNat hlead]
    exact Nat.add_sub_cancel _ _
  have hcode : ((code / 262144 % 8 * 64 + code / 4096 % 64) * 64 + code / 64 % 64) * 64 +
      code % 64 = code := by omega
  rw [decode?, if_neg (not_ofNat_lt hlead (Nat.le_add_left_of_le (by decide))),
    if_neg (not_ofNat_lt hlead (Nat.le_add_left_of_le (by decide))),
    if_neg (not_ofNat_lt hlead (Nat.le_add_left_of_le (by decide))),
    if_neg (not_ofNat_lt hlead (Nat.le_add_left_of_le (by decide))),
    if_pos (ofNat_lt (Nat.add_lt_add_right (Nat.mod_lt _ (by decide)) 240))]
  simp only [isTail_tail, extend_tail, hbyte, hcode, Bool.and_self, if_true]

/-! ### Characters and strings -/

/-- The bytes of a character are read as that character, whatever follows. -/
theorem decode?_utf8EncodeChar (c : Char) (rest : List UInt8) :
    ∃ lead tails, String.utf8EncodeChar c = lead :: tails ∧
      decode? lead (tails ++ rest) = some (c, tails.length) := by
  have hcode : c.toNat < 0x200000 := by
    rcases c.valid with h | h
    · exact Nat.lt_trans h (by decide)
    · exact Nat.lt_trans h.2 (by decide)
  have hfound (least tails : Nat) (h : least ≤ c.toNat) :
      (ofCode? least c.toNat).map (·, tails) = some (c, tails) := by
    rw [ofCode?_toNat h]
    rfl
  -- a code is taken only if it needs as many bytes: the bound that it missed last says so
  change ∃ lead tails, (if c.toNat ≤ 0x7f then _ else _) = lead :: tails ∧ _
  split
  case isTrue h1 =>
    exact ⟨_, [], rfl, (decode?_one (Nat.lt_succ_of_le h1)).trans (hfound 0 0 (Nat.zero_le _))⟩
  case isFalse h1 =>
  split
  case isTrue h2 =>
    exact ⟨_, [_], rfl,
      (decode?_two (Nat.lt_succ_of_le h2)).trans (hfound 0x80 1 (Nat.not_le.mp h1))⟩
  case isFalse h2 =>
  split
  case isTrue h3 =>
    exact ⟨_, [_, _], rfl,
      (decode?_three (Nat.lt_succ_of_le h3)).trans (hfound 0x800 2 (Nat.not_le.mp h2))⟩
  case isFalse h3 =>
    exact ⟨_, [_, _, _], rfl,
      (decode?_four hcode).trans (hfound 0x10000 3 (Nat.not_le.mp h3))⟩

theorem ofBytes_flatMap (chars : List Char) :
    ofBytes (chars.flatMap String.utf8EncodeChar) = chars.map some := by
  induction chars with
  | nil => simp [ofBytes]
  | cons c chars ih =>
    obtain ⟨lead, tails, hc, hread⟩ :=
      decode?_utf8EncodeChar c (chars.flatMap String.utf8EncodeChar)
    rw [List.flatMap_cons, hc, List.cons_append, ofBytes]
    simp only [hread, List.drop_left, ih, List.map_cons]

/-- The glyphs of the bytes of a string are those of the string. -/
theorem ofBytes_toUTF8 (string : String) :
    ofBytes string.toUTF8.data.toList = ofString string := by
  have hbytes : string.toUTF8 = string.toList.utf8Encode := String.utf8Encode_toList.symm
  rw [hbytes, List.utf8Encode, List.toList_data_toByteArray, ofBytes_flatMap]
  rfl

/-! ### Cutting bytes -/

section Cutting

variable {byte lead : UInt8} {rest : List UInt8} {c : Char} {tails : Nat}

theorem isTail_of_lt (h : byte < 0x80) : isTail byte = false := by
  have hlow : ¬(0x80 : UInt8) ≤ byte := UInt8.not_le.mpr h
  rw [isTail, decide_eq_false hlow, Bool.false_and]

theorem decode?_append (h : byte < 0x80) (lead : UInt8) (rest more : List UInt8) :
    decode? lead (rest ++ byte :: more) = decode? lead rest := by
  have hbyte := isTail_of_lt h
  unfold decode?
  -- a character has three bytes behind the first one at most
  rcases rest with _ | ⟨a, _ | ⟨b, _ | ⟨c, rest⟩⟩⟩
  · rcases more with _ | ⟨a, _ | ⟨b, more⟩⟩ <;> simp [hbyte]
  · rcases more with _ | ⟨b, more⟩ <;> simp [hbyte]
  · simp [hbyte]
  · rfl

theorem tails_le_of_decode? (h : decode? lead rest = some (c, tails)) : tails ≤ rest.length := by
  have hmap {least code count : Nat} (h : (ofCode? least code).map (·, count) = some (c, tails)) :
      tails = count := by
    obtain ⟨_, -, heq⟩ := Option.map_eq_some_iff.mp h
    exact (Prod.mk.inj heq).2.symm
  unfold decode? at h
  repeat' split at h
  all_goals first
    | rw [hmap h]; simp
    | exact absurd h nofun

theorem ofBytes_of_some (h : decode? lead rest = some (c, tails)) :
    ofBytes (lead :: rest) = some c :: ofBytes (rest.drop tails) := by
  rw [ofBytes, h]

theorem ofBytes_of_none (h : decode? lead rest = none) :
    ofBytes (lead :: rest) = none :: ofBytes rest := by
  rw [ofBytes, h]

/-- Bytes may be cut in front of a byte that is a character. -/
theorem ofBytes_append (h : byte < 0x80) (bytes more : List UInt8) :
    ofBytes (bytes ++ byte :: more) = ofBytes bytes ++ ofBytes (byte :: more) := by
  induction bytes using ofBytes.induct with
  | case1 => simp [ofBytes]
  | case2 lead rest c tails hread ih =>
    have happend := (decode?_append h lead rest more).trans hread
    rw [List.cons_append, ofBytes_of_some happend, ofBytes_of_some hread,
      List.drop_append_of_le_length (tails_le_of_decode? hread), ih, List.cons_append]
  | case3 lead rest hread ih =>
    have happend := (decode?_append h lead rest more).trans hread
    rw [List.cons_append, ofBytes_of_none happend, ofBytes_of_none hread, ih, List.cons_append]

end Cutting

end Glyph

end Backfill
