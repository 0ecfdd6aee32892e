import Backfill.Dispatch
import Backfill.Proofs.IntegerText
import Backfill.Proofs.JsonCanonical
import Backfill.Proofs.JsonRoundTrip
import Backfill.Proofs.RecordReading
import Backfill.Proofs.Utf8RoundTrip

/-!
# Records that are handed on come back

A block is handed on as a record that holds the digits of its slot beside the block.  Whoever gets
the text of such a record reads the same record from it, with the slot in its digits and the block
as it was, as long as the numbers of the block are integers and the block is not nested too deeply.
So the text tells the slot and the block.

## Main definitions

* `DispatchRecord.ofJson?` — the record that a value holds, if it has the shape of one.

## Main results

* `DispatchRecord.finds_read` — the reader of a record.
* `DispatchRecord.parse_eq_ok_iff` — **a text that denotes a value is read as the record that is
  found in the value.**
* `DispatchRecord.parse_render` — **a record that is written is read again.**
* `DispatchRecord.survives_posting` — **a slot and its block are told by the text of their record.**
-/

namespace Backfill

namespace DispatchRecord

open Json

variable {levels : Nat} {text : List Glyph} {slot : Nat} {block : Json}

/-! ### Records in values -/

/-- How the fields of a record are found. -/
def finders : Finders [String, Json] := (string?, fun value => some value.canonical, ())

/-- The record that a value holds. -/
def ofJson? (value : Json) : Option DispatchRecord := (schema 0).find? ofGathered? finders value

theorem ofJson?_toJson (record : DispatchRecord) :
    ofJson? record.toJson = some ⟨record.blockNum, record.blockData.canonical⟩ := rfl

/-- **A record is read as it is found.** -/
theorem finds_read : Finds levels (read levels) ofJson? :=
  Schema.finds_read (fun _ => .field finds_text (.field (finds_via _) .done))
    (fun _ => by simp [Schema.names]) (fun _ value => by cases value <;> rfl) levels

/-- **A text that denotes a value is read as the record that is found in the value.** -/
theorem parse_eq_ok_iff {value : Json} {record : DispatchRecord} (h : Denotes text value)
    (hdepth : value.depth ≤ nesting) :
    parse text = .ok record ↔ ofJson? value = some record :=
  finds_read.whole_eq_ok_iff h hdepth

/-! ### Writing and reading -/

theorem fits_toJson {record : DispatchRecord} (h : record.blockData.Fits levels) :
    record.toJson.Fits (levels + 1) := by
  rw [toJson, fits_obj, List.forall_mem_cons, List.forall_mem_singleton]
  exact ⟨fits_str levels record.blockNum, h⟩

/-- **A record that is written is read again**, with its block in order. -/
theorem parse_render {record : DispatchRecord} (h : record.blockData.Fits 126) :
    parse (Glyph.ofBytes record.toJson.render.toUTF8.data.toList) =
      .ok ⟨record.blockNum, record.blockData.canonical⟩ := by
  obtain ⟨hdenotes, hdepth⟩ := read_eq_ok_iff.mp (read_render (fits_toJson h))
  rw [Glyph.ofBytes_toUTF8, parse_eq_ok_iff hdenotes hdepth, ofJson?_toJson]

theorem readInteger_blockNum (h : slot ≤ Word.max) (block : Json) :
    Text.readInteger Word.max (ofBlock slot block).blockNum = .ok slot := by
  rw [ofBlock, Text.readInteger, String.toList_ofList]
  exact Text.readIntegerChars_toDigits h

theorem ofBlock_injective {other : Nat} {otherBlock : Json}
    (h : ofBlock slot block = ofBlock other otherBlock) : slot = other ∧ block = otherBlock := by
  obtain ⟨hnum, hblock⟩ := DispatchRecord.mk.inj h
  exact ⟨Text.toDigits_injective (String.ofList_injective hnum), hblock⟩

/-- **A slot and its block are told by the text of their record**: it is read as the record, and no
other slot and no other block have a record with this text.  Blocks are held with the fields of each
object in order and each name once. -/
theorem survives_posting (hslot : slot ≤ Word.max) (hfits : block.Fits 126)
    (hblock : block.canonical = block) :
    (∃ record, parse (Glyph.ofBytes (ofBlock slot block).toJson.render.toUTF8.data.toList) =
        .ok record ∧ record = ofBlock slot block ∧
      Text.readInteger Word.max record.blockNum = .ok slot ∧ record.blockData = block) ∧
    ∀ other otherBlock, otherBlock.Fits 126 → otherBlock.canonical = otherBlock →
      slot ≠ other ∨ block ≠ otherBlock →
        (ofBlock slot block).toJson.render ≠ (ofBlock other otherBlock).toJson.render := by
  -- A block in canonical form is read back as it is.
  have hread (slot : Nat) {block : Json} (hfits : block.Fits 126)
      (hblock : block.canonical = block) :
      parse (Glyph.ofBytes (ofBlock slot block).toJson.render.toUTF8.data.toList) =
        .ok (ofBlock slot block) := by
    have hparse := @parse_render (ofBlock slot block) hfits
    have hsame : (ofBlock slot block).blockData.canonical = block := hblock
    rwa [hsame] at hparse
  refine ⟨⟨_, hread slot hfits hblock, rfl, readInteger_blockNum hslot block, rfl⟩, ?_⟩
  intro other otherBlock hother hotherBlock hne hsame
  -- Equal texts are read as equal records.
  have hrecord : ofBlock slot block = ofBlock other otherBlock := by
    have hboth := hread slot hfits hblock
    rw [hsame, hread other hother hotherBlock] at hboth
    exact (Except.ok.inj hboth).symm
  obtain ⟨rfl, rfl⟩ := ofBlock_injective hrecord
  exact hne.elim (absurd rfl) (absurd rfl)

/-- The largest slot, with a block whose texts have to be escaped and whose numbers are the smallest
and the largest there are; one of its numbers makes a difference. -/
theorem survives_posting_largest_word :
    let slot := 18446744073709551615
    let block (n : Int) : Json :=
      .obj [("", .str "\"\n\u0001é"), ("signatures", .arr [.int (-9223372036854775808), .null]),
        ("transactions", .arr [.obj [("fee", .int n)], .arr [], .obj []])]
    slot ≤ Word.max ∧ (block 18446744073709551615).Fits 126 ∧
      (block 18446744073709551615).canonical = block 18446744073709551615 ∧
      (∃ record, parse (Glyph.ofBytes
          (ofBlock slot (block 18446744073709551615)).toJson.render.toUTF8.data.toList) =
            .ok record ∧ record.blockNum = "18446744073709551615" ∧
        Text.readInteger Word.max record.blockNum = .ok slot ∧
        record.blockData = block 18446744073709551615) ∧
      (ofBlock slot (block 18446744073709551615)).toJson.render ≠
        (ofBlock slot (block 18446744073709551614)).toJson.render := by
  intro slot block
  have hslot : slot ≤ Word.max := by decide
  have hfits : (block 18446744073709551615).Fits 126 := by decide
  have hblock : (block 18446744073709551615).canonical = block 18446744073709551615 := by decide
  obtain ⟨⟨record, hparse, rfl, hread, hdata⟩, hother⟩ := survives_posting hslot hfits hblock
  refine ⟨hslot, hfits, hblock, ⟨_, hparse, by decide, hread, hdata⟩, ?_⟩
  exact hother slot (block 18446744073709551614) (by decide) (by decide) (.inr (by decide))

end DispatchRecord

end Backfill
