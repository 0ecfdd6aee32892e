import Backfill.Proofs.RepeatedSlots
import Backfill.Proofs.ResponseReading
import Backfill.Proofs.ResponseShapes
import Backfill.Rpc.Exchange

/-!
# Single responses and batches

A response may be sent alone, or as the only item of an array.  The text of a response that is sent
alone is read field by field; in an array it is read as a value, and the response is found there.
Both come to the same response, and what it means for its slot is the same.

## Main definitions

* `Envelope.inBrackets` — bytes between the brackets of an array.

## Main results

* `Json.Denotes.inBrackets` — a text between brackets denotes an array with its value.
* `Exchange.batch_of_decode`, `Exchange.block_of_parse` — what a reply means if it is read.
* `Envelope.single_agrees_with_batch` — **a response is read alone just if it is read as the only
  one of a batch, and then both ways of fetching a block come to the same.**
-/

namespace Backfill

/-! ### Texts between brackets -/

/-- Bytes between the brackets of an array. -/
def Envelope.inBrackets (bytes : List UInt8) : List UInt8 := 0x5B :: (bytes ++ [0x5D])

theorem Glyph.ofBytes_inBrackets (bytes : List UInt8) :
    ofBytes (Envelope.inBrackets bytes) = some '[' :: (ofBytes bytes ++ [some ']']) := by
  have hopen : decode? 0x5B (bytes ++ [0x5D]) = some ('[', 0) := rfl
  have hclose : ofBytes [0x5D] = [some ']'] := by
    rw [ofBytes_of_some (show decode? 0x5D [] = some (']', 0) from rfl), List.drop_nil, ofBytes]
  rw [Envelope.inBrackets, ofBytes_of_some hopen, List.drop_zero, ofBytes_append (by decide),
    hclose]

/-- A text between brackets denotes an array with its value. -/
theorem Json.Denotes.inBrackets {text : List Glyph} {value : Json} (h : Denotes text value) :
    Denotes (some '[' :: (text ++ [some ']'])) (.arr [value]) := by
  obtain ⟨rest, hspells, hrest⟩ := h
  -- a bracket ends a number, so the value does not go on
  have hitem : Spells value (text ++ [some ']']) (rest ++ [some ']']) :=
    hspells.append (by decide)
  have hclose : skipBlank (rest ++ [some ']']) = [some ']'] := by
    unfold skipBlank at hrest ⊢
    rw [List.dropWhile_append, hrest]
    rfl
  exact ⟨[], .array (skipBlank_cons (by decide) _) (.items hitem (.done hclose)), rfl⟩

namespace Exchange

variable {text : List Glyph} {status slot : Nat} {slots : List Nat} {response : Response}

/-- A reply with a batch means what its responses say about the slots. -/
theorem batch_of_decode {responses : List Response} (hstatus : TransportError.isSuccess status)
    (h : Envelope.decode text = .ok responses) :
    batch slots (.answer status (.ok text)) = .ok (Envelope.matchSlots slots responses) := by
  simp [batch, body, hstatus, Except.mapError, h]

/-- A reply with a single response means what this holds. -/
theorem block_of_parse (hstatus : TransportError.isSuccess status)
    (h : Response.parse text = .ok response) :
    block slot (.answer status (.ok text)) = blockOf response := by
  simp [block, body, hstatus, Except.mapError, h]

end Exchange

theorem Envelope.answerTo_singleton {response : Response} {slot : Nat}
    (h : response.id = some (.ofSlot slot)) : answerTo [response] slot = response.outcome := by
  simp [answerTo, h]

theorem Response.cases_outcome (response : Response) :
    (∃ value, response.outcome = .fetched value) ∨
      (∃ code message, response.outcome = .failed (.providerError code message)) ∨
        response.outcome = .failed .notFound := by
  unfold outcome
  split
  case h_1 => exact .inr (.inl ⟨_, _, rfl⟩)
  case h_2 => exact .inr (.inr rfl)
  case h_3 => exact .inl ⟨_, rfl⟩
  case h_4 => exact .inr (.inr rfl)

/-- **A response is read alone just if it is read as the only one of a batch**, and then both ways
of fetching a block come to the same. -/
theorem Envelope.single_agrees_with_batch {bytes : List UInt8} {value : Json}
    (h : Json.Denotes (Glyph.ofBytes bytes) value) (hdepth : value.depth ≤ 126) :
    (∀ response, Response.parse (Glyph.ofBytes bytes) = .ok response ↔
      decode (Glyph.ofBytes (inBrackets bytes)) = .ok [response]) ∧
    ∀ response slot slots status, Response.parse (Glyph.ofBytes bytes) = .ok response →
      response.id = some (.ofSlot slot) → slots.count slot = 1 →
        TransportError.isSuccess status = true →
      ∃ outcomes, Exchange.batch slots (.answer status (.ok (Glyph.ofBytes (inBrackets bytes)))) =
          .ok outcomes ∧
        (∀ block, outcomes.lookup slot = some (.fetched block) ↔
          Exchange.block slot (.answer status (.ok (Glyph.ofBytes bytes))) = .ok (some block)) ∧
        (∀ code message, outcomes.lookup slot = some (.failed (.providerError code message)) ↔
          Exchange.block slot (.answer status (.ok (Glyph.ofBytes bytes))) =
            .error (.provider code message)) ∧
        (outcomes.lookup slot = some (.failed .notFound) ↔
          Exchange.block slot (.answer status (.ok (Glyph.ofBytes bytes))) = .ok none) := by
  -- the brackets take a level of nesting that is left
  have hcarries : Carries (Glyph.ofBytes (inBrackets bytes)) (.arr [value]) := by
    rw [Glyph.ofBytes_inBrackets]
    refine ⟨h.inBrackets, ?_⟩
    simp only [Json.depth, Json.depthItems, Json.nesting]
    omega
  have hiff (response : Response) : Response.parse (Glyph.ofBytes bytes) = .ok response ↔
      decode (Glyph.ofBytes (inBrackets bytes)) = .ok [response] := by
    rw [Response.parse_eq_ok_iff h (Nat.le_trans hdepth (by decide)), decode_of_carries hcarries,
      ofJson_eq_ok_iff, Response.ofJson?_eq_some_iff]
    constructor
    · intro hshape
      exact .intro (.cons hshape .nil)
    · rintro ⟨⟨⟩⟩
      assumption
  refine ⟨hiff, fun response slot slots status hparse hid hcount hstatus => ?_⟩
  refine ⟨_, Exchange.batch_of_decode hstatus ((hiff response).mp hparse), ?_⟩
  rw [lookup_matchSlots_of_count_eq_one hcount, answerTo_singleton hid,
    Exchange.block_of_parse hstatus hparse, Exchange.blockOf]
  obtain ⟨block, heq⟩ | ⟨code, message, heq⟩ | heq := response.cases_outcome <;>
    simp [heq]

/-- A response that is written as an array is not taken for a batch, with or without brackets. -/
theorem Envelope.single_agrees_with_batch_as_array :
    ∃ (bytes : List UInt8) (value block : Json) (response : Response) (outcomes : Outcomes),
      bytes = "[null,\"block-7\",\x7b\"b\":1,\"a\":[2],\"b\":3\x7d] ".toUTF8.data.toList ∧
      block = .obj [("a", .arr [.int 2]), ("b", .int 3)] ∧
      Json.Denotes (Glyph.ofBytes bytes) value ∧ value.depth ≤ 126 ∧
      Response.parse (Glyph.ofBytes bytes) = .ok response ∧
      decode (Glyph.ofBytes (inBrackets bytes)) = .ok [response] ∧
      response.id = some (.ofSlot 7) ∧
      Exchange.batch [5, 7] (.answer 200 (.ok (Glyph.ofBytes (inBrackets bytes)))) =
        .ok outcomes ∧
      outcomes.lookup 7 = some (.fetched block) ∧
      Exchange.block 7 (.answer 200 (.ok (Glyph.ofBytes bytes))) = .ok (some block) := by
  obtain ⟨bytes, hbytes⟩ : ∃ bytes : List UInt8, bytes =
      "[null,\"block-7\",\x7b\"b\":1,\"a\":[2],\"b\":3\x7d] ".toUTF8.data.toList := ⟨_, rfl⟩
  have htext := congrArg Glyph.ofBytes hbytes
  rw [Glyph.ofBytes_toUTF8] at htext
  -- The text names a field twice, and the value keeps both; the block keeps the last one.
  have hread : Json.read (Glyph.ofBytes bytes) = .ok (.arr [.null, .str "block-7",
      .obj [("b", .int 1), ("a", .arr [.int 2]), ("b", .int 3)]]) := by
    rw [htext]
    decide +kernel
  have hparse : Response.parse (Glyph.ofBytes bytes) = .ok ⟨none, some (.ofSlot 7),
      some (.obj [("a", .arr [.int 2]), ("b", .int 3)]), none⟩ := by
    rw [htext]
    decide +kernel
  obtain ⟨hdenotes, -⟩ := Json.read_eq_ok_iff.mp hread
  obtain ⟨hiff, hsame⟩ := single_agrees_with_batch hdenotes (by decide)
  obtain ⟨outcomes, hbatch, hfetched, -⟩ := hsame _ 7 [5, 7] 200 hparse rfl (by decide) (by decide)
  have hblock : Exchange.block 7 (.answer 200 (.ok (Glyph.ofBytes bytes))) = _ :=
    Exchange.block_of_parse rfl hparse
  exact ⟨bytes, _, _, _, outcomes, hbytes, rfl, hdenotes, by decide, hparse, (hiff _).mp hparse,
    rfl, hbatch, (hfetched _).mpr hblock, hblock⟩

end Backfill
