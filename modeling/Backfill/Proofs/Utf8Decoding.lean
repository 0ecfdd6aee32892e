import Backfill.Proofs.Utf8RoundTrip

/-!
# Only the bytes of a text are read as that text

A character is read only where its own bytes stand: the reader takes no longer form of a character,
and no code that is none.  So bytes without a broken glyph are the bytes of the characters that they
are read as, and a glyph tells which bytes are there.

## Main results

* `Glyph.decode?_eq_some` — a character is read from its own bytes.
* `Glyph.ofBytes_eq_map_some` — **bytes are read as a text exactly if they are the bytes of that
  text.**
* `Glyph.mem_of_mem_ofBytes` — a character that is read has its bytes among those that are read.
-/

namespace Backfill

namespace Glyph

variable {lead a : UInt8} {rest bytes : List UInt8} {c : Char} {chars : List Char}
  {code least n tails : Nat}

theorem eq_ofNat (h : lead.toNat = n) : lead = UInt8.ofNat n := by
  rw [← h, UInt8.ofNat_toNat]

theorem ofCode?_eq_some (h : ofCode? least code = some c) : c.toNat = code ∧ least ≤ code := by
  rw [ofCode?, Option.dite_none_right_eq_some] at h
  obtain ⟨hvalid, h⟩ := h
  rw [Option.ite_none_right_eq_some] at h
  obtain ⟨hle, h⟩ := h
  obtain rfl := Option.some.inj h
  exact ⟨rfl, hle⟩

theorem isTail_iff : isTail a = true ↔ 0x80 ≤ a.toNat ∧ a.toNat ≤ 0xBF := by
  simp only [isTail, Bool.and_eq_true, decide_eq_true_iff, UInt8.le_iff_toNat_le]
  exact Iff.rfl

theorem utf8EncodeChar_one (h : c.toNat ≤ 0x7F) :
    String.utf8EncodeChar c = [UInt8.ofNat c.toNat] := if_pos h

theorem utf8EncodeChar_two (h : 0x80 ≤ c.toNat) (h' : c.toNat ≤ 0x7FF) :
    String.utf8EncodeChar c =
      [UInt8.ofNat (c.toNat / 64 % 32 + 192), UInt8.ofNat (c.toNat % 64 + 128)] :=
  (if_neg (Nat.not_le.mpr h)).trans (if_pos h')

theorem utf8EncodeChar_three (h : 0x800 ≤ c.toNat) (h' : c.toNat ≤ 0xFFFF) :
    String.utf8EncodeChar c =
      [UInt8.ofNat (c.toNat / 4096 % 16 + 224), UInt8.ofNat (c.toNat / 64 % 64 + 128),
        UInt8.ofNat (c.toNat % 64 + 128)] :=
  (if_neg (Nat.not_le.mpr (Nat.le_trans (by decide) h))).trans
    ((if_neg (Nat.not_le.mpr h)).trans (if_pos h'))

theorem utf8EncodeChar_four (h : 0x10000 ≤ c.toNat) :
    String.utf8EncodeChar c =
      [UInt8.ofNat (c.toNat / 262144 % 8 + 240), UInt8.ofNat (c.toNat / 4096 % 64 + 128),
        UInt8.ofNat (c.toNat / 64 % 64 + 128), UInt8.ofNat (c.toNat % 64 + 128)] :=
  (if_neg (Nat.not_le.mpr (Nat.le_trans (by decide) h))).trans
    ((if_neg (Nat.not_le.mpr (Nat.le_trans (by decide) h))).trans (if_neg (Nat.not_le.mpr h)))

theorem of_map_ofCode? (h : (ofCode? least code).map (·, n) = some (c, tails)) :
    c.toNat = code ∧ least ≤ code ∧ tails = n := by
  obtain ⟨found, hfound, heq⟩ := Option.map_eq_some_iff.mp h
  obtain ⟨rfl, rfl⟩ := Prod.mk.inj heq
  obtain ⟨hcode, hle⟩ := ofCode?_eq_some hfound
  exact ⟨hcode, hle, rfl⟩

/-- **A character is read from its own bytes.** -/
theorem decode?_eq_some (h : decode? lead rest = some (c, tails)) :
    lead :: rest.take tails = String.utf8EncodeChar c := by
  unfold decode? at h
  simp only [UInt8.lt_iff_toNat_lt, UInt8.toNat_ofNat] at h
  split at h
  · obtain ⟨hcode, -, rfl⟩ := of_map_ofCode? h
    rw [utf8EncodeChar_one (by omega), List.take_zero, ← eq_ofNat hcode.symm]
  split at h
  · cases h
  split at h
  · rcases rest with _ | ⟨a, rest⟩
    · cases h
    rw [Option.ite_none_right_eq_some, isTail_iff] at h
    obtain ⟨ha, h⟩ := h
    obtain ⟨hcode, hle, rfl⟩ := of_map_ofCode? h
    unfold extend at hcode hle
    have hlead : lead = UInt8.ofNat (c.toNat / 64 % 32 + 192) := eq_ofNat (by omega)
    -- The code read determines each byte, since all of them have fixed high bits.
    have htail : a = UInt8.ofNat (c.toNat % 64 + 128) := eq_ofNat (by omega)
    rw [utf8EncodeChar_two (by omega) (by omega), ← hlead, ← htail]
    rfl
  split at h
  · rcases rest with _ | ⟨a, _ | ⟨b, rest⟩⟩
    · cases h
    · cases h
    simp only [Option.ite_none_right_eq_some, Bool.and_eq_true, isTail_iff] at h
    obtain ⟨⟨ha, hb⟩, h⟩ := h
    obtain ⟨hcode, hle, rfl⟩ := of_map_ofCode? h
    unfold extend at hcode hle
    have hlead : lead = UInt8.ofNat (c.toNat / 4096 % 16 + 224) := eq_ofNat (by omega)
    have hfirst : a = UInt8.ofNat (c.toNat / 64 % 64 + 128) := eq_ofNat (by omega)
    have hsecond : b = UInt8.ofNat (c.toNat % 64 + 128) := eq_ofNat (by omega)
    rw [utf8EncodeChar_three (by omega) (by omega), ← hlead, ← hfirst, ← hsecond]
    rfl
  split at h
  · rcases rest with _ | ⟨a, _ | ⟨b, _ | ⟨d, rest⟩⟩⟩
    · cases h
    · cases h
    · cases h
    simp only [Option.ite_none_right_eq_some, Bool.and_eq_true, isTail_iff] at h
    obtain ⟨⟨⟨ha, hb⟩, hd⟩, h⟩ := h
    obtain ⟨hcode, hle, rfl⟩ := of_map_ofCode? h
    unfold extend at hcode hle
    have hlead : lead = UInt8.ofNat (c.toNat / 262144 % 8 + 240) := eq_ofNat (by omega)
    have hfirst : a = UInt8.ofNat (c.toNat / 4096 % 64 + 128) := eq_ofNat (by omega)
    have hsecond : b = UInt8.ofNat (c.toNat / 64 % 64 + 128) := eq_ofNat (by omega)
    have hthird : d = UInt8.ofNat (c.toNat % 64 + 128) := eq_ofNat (by omega)
    rw [utf8EncodeChar_four (by omega), ← hlead, ← hfirst, ← hsecond, ← hthird]
    rfl
  · cases h

/-! ### Texts -/

/-- A sequence without a broken glyph is that of its characters. -/
theorem chars?_eq_some {glyphs : List Glyph} :
    chars? glyphs = some chars ↔ glyphs = chars.map some := by
  refine ⟨fun h => ?_, fun h => by rw [h, chars?_map_some]⟩
  induction glyphs generalizing chars with
  | nil =>
    obtain rfl := Option.some.inj h
    rfl
  | cons glyph glyphs ih =>
    rw [chars?, List.mapM_cons] at h
    obtain ⟨found, hfound, hrest⟩ := Option.bind_eq_some_iff.mp h
    obtain ⟨others, hothers, hchars⟩ := Option.bind_eq_some_iff.mp hrest
    obtain rfl := Option.some.inj hchars
    obtain rfl : glyph = some found := hfound
    rw [List.map_cons, ← ih hothers]

/-- **Bytes are read as a text exactly if they are the bytes of that text.** -/
theorem ofBytes_eq_map_some :
    ofBytes bytes = chars.map some ↔ bytes = chars.flatMap String.utf8EncodeChar := by
  refine ⟨fun h => ?_, fun h => by rw [h, ofBytes_flatMap]⟩
  induction bytes using ofBytes.induct generalizing chars with
  | case1 =>
    rw [ofBytes] at h
    rw [List.map_eq_nil_iff.mp h.symm]
    rfl
  | case2 lead rest c tails hread ih =>
    rw [ofBytes_of_some hread] at h
    obtain ⟨found, others, rfl, hfound, hothers⟩ := List.map_eq_cons_iff.mp h.symm
    obtain rfl := Option.some.inj hfound
    rw [List.flatMap_cons, ← ih hothers.symm, ← decode?_eq_some hread, List.cons_append,
      List.take_append_drop]
  -- A byte that begins no character is read as none, which no text shows.
  | case3 lead rest hread =>
    rw [ofBytes_of_none hread] at h
    obtain ⟨found, others, -, hfound, -⟩ := List.map_eq_cons_iff.mp h.symm
    cases hfound

theorem ofBytes_eq_nil (h : ofBytes bytes = []) : bytes = [] := by
  have hnone : ofBytes bytes = ([] : List Char).map some := h
  exact ofBytes_eq_map_some.mp hnone

/-- A character that is read has its bytes among those that are read. -/
theorem mem_of_mem_ofBytes {byte : UInt8} (h : some c ∈ ofBytes bytes)
    (hbyte : byte ∈ String.utf8EncodeChar c) : byte ∈ bytes := by
  induction bytes using ofBytes.induct with
  | case1 => simp [ofBytes] at h
  | case2 lead rest found tails hread ih =>
    rw [ofBytes_of_some hread] at h
    rcases List.mem_cons.mp h with heq | hrest
    · obtain rfl := Option.some.inj heq
      rw [← decode?_eq_some hread] at hbyte
      exact List.cons_subset_cons lead (List.take_subset tails rest) hbyte
    · exact List.mem_cons_of_mem lead (List.mem_of_mem_drop (ih hrest))
  | case3 lead rest hread ih =>
    rw [ofBytes_of_none hread] at h
    rcases List.mem_cons.mp h with heq | hrest
    · cases heq
    · exact List.mem_cons_of_mem lead (ih hrest)

/-- The bytes of the last character, if there is one, are the last bytes. -/
theorem exists_eq_append_of_getLast? (h : (ofBytes bytes).getLast? = some (some c)) :
    ∃ front, bytes = front ++ String.utf8EncodeChar c := by
  induction bytes using ofBytes.induct with
  | case1 => simp [ofBytes] at h
  | case2 lead rest found tails hread ih =>
    rw [ofBytes_of_some hread, List.getLast?_cons] at h
    have hsplit : lead :: rest = String.utf8EncodeChar found ++ rest.drop tails := by
      rw [← decode?_eq_some hread, List.cons_append, List.take_append_drop]
    cases hlast : (ofBytes (rest.drop tails)).getLast? with
    | none =>
      -- nothing follows: this is the last character
      rw [hlast] at h
      obtain rfl := Option.some.inj (Option.some.inj h)
      refine ⟨[], ?_⟩
      rw [hsplit, ofBytes_eq_nil (List.getLast?_eq_none_iff.mp hlast), List.append_nil]
      rfl
    | some last =>
      rw [hlast] at h
      obtain rfl := Option.some.inj h
      obtain ⟨front, hfront⟩ := ih hlast
      exact ⟨String.utf8EncodeChar found ++ front, by rw [hsplit, hfront, List.append_assoc]⟩
  | case3 lead rest hread ih =>
    rw [ofBytes_of_none hread, List.getLast?_cons] at h
    cases hlast : (ofBytes rest).getLast? with
    | none =>
      rw [hlast] at h
      cases h
    | some last =>
      rw [hlast] at h
      obtain rfl := Option.some.inj h
      obtain ⟨front, hfront⟩ := ih hlast
      exact ⟨lead :: front, by rw [hfront, List.cons_append]⟩

end Glyph

end Backfill
