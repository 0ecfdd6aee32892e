import Backfill.Proofs.JsonCanonical
import Backfill.Proofs.ReaderResults
import Backfill.Proofs.ResponseReading
import Backfill.Proofs.ResponseRoundTrip
import Backfill.Proofs.ResponseShapes
import Backfill.Proofs.Utf8RoundTrip

/-!
# Writing what has been read

Whatever the text of a response looks like, the response that is read from it is in a form of its
own: nothing in it is null, the fields of its block are in order, and it is nested no deeper than
its text.  This is the form in which it is written, so it is read again just as it is, and writing
it a second time changes nothing.

## Main definitions

* `Json.Kept` — a value as it is kept in a response.
* `RpcError.Kept`, `Response.Kept` — an error and a response as they are read.

## Main results

* `Response.kept_of_parse` — any response that is read is in this form.
* `Response.Kept.received_eq` — such a response arrives as it is.
* `Response.rewriting_loses_nothing` — **what is read from a text is read again from the text that
  it is written as.**
-/

namespace Backfill

open Json

/-! ### Responses as they are read -/

/-- A value as it is kept in a response: it is not null, its fields are in order, and it is nested
at most so many levels. -/
structure Json.Kept (levels : Nat) (value : Json) : Prop where
  ne_null : value ≠ .null
  canonical_eq : value.canonical = value
  depth_le : value.depth ≤ levels

/-- An error as it is read, with its data nested at most so many levels. -/
structure RpcError.Kept (levels : Nat) (error : RpcError) : Prop where
  code : fitsSigned error.code
  data : ∀ data ∈ error.data, data.Kept levels

/-- A response as it is read.  Its error takes a level that its block does not need. -/
structure Response.Kept (levels : Nat) (response : Response) : Prop where
  id : ∀ id ∈ response.id, id.Sendable
  result : ∀ block ∈ response.result, block.Kept (levels + 1)
  error : ∀ error ∈ response.error, error.Kept levels

/-! ### Single fields -/

section Fields

variable {levels : Nat}

theorem Json.ne_null_of_spells {glyph : Glyph} {tail text rest : List Glyph} {value : Json}
    (htext : skipBlank text = glyph :: tail) (hglyph : glyph ≠ some 'n')
    (h : Spells value text rest) : value ≠ .null := by
  rintro rfl
  cases h with
  | token htoken =>
    rw [htext] at htoken
    exact hglyph htoken.eq_of_null

/-- A value of any shape is kept. -/
theorem Json.yields_arranged : Yields (optional (via levels fun value => some value.canonical))
    fun found => ∀ value ∈ found, value.Kept levels := by
  have hvia {text rest} {found : Json}
      (hread : via levels (fun value => some value.canonical) text = .ok (found, rest)) :
      ∃ value, Spells value text rest ∧ value.depth ≤ levels ∧ found = value.canonical := by
    unfold via at hread
    split at hread
    case h_1 => contradiction
    case h_2 value behind hvalue =>
      obtain ⟨rfl, rfl⟩ := Prod.mk.inj (Except.ok.inj hread)
      obtain ⟨hspells, hdepth⟩ := value_eq_ok_iff.mp hvalue
      exact ⟨value, hspells, hdepth, rfl⟩
  intro text found rest hread
  unfold optional at hread
  split at hread
  case h_1 =>
    obtain ⟨_, hnone, -⟩ := exists_of_map_eq_ok hread
    obtain ⟨_, hspells, -⟩ := hvia hnone
    exact absurd hspells.length_lt (Nat.not_lt_zero _)
  case h_2 glyph tail htext =>
    split at hread
    case isTrue =>
      obtain ⟨_, -, heq⟩ := exists_of_map_eq_ok hread
      obtain ⟨rfl, -⟩ := Prod.mk.inj heq
      exact nofun
    case isFalse hglyph =>
      -- the letter has been looked at already, so what is read here is not null
      obtain ⟨⟨block, behind⟩, hone, heq⟩ := exists_of_map_eq_ok hread
      obtain ⟨rfl, -⟩ := Prod.mk.inj heq
      obtain ⟨value, hspells, hdepth, rfl⟩ := hvia hone
      rintro _ ⟨⟩
      have hnull := ne_null_of_spells (by rw [← htext, skipBlank_skipBlank, htext]) hglyph hspells
      exact ⟨canonical_ne_null hnull, canonical_canonical value,
        Nat.le_trans (depth_canonical_le value) hdepth⟩

/-- An identifier can be sent back. -/
theorem RequestId.yields_via : Yields (via levels RequestId.ofJson?) RequestId.Sendable := by
  intro text found rest hread
  unfold via at hread
  split at hread
  case h_1 => contradiction
  case h_2 =>
  split at hread
  case h_1 hid =>
    obtain ⟨rfl, -⟩ := Prod.mk.inj (Except.ok.inj hread)
    cases RequestId.ofJson?_eq_some_iff.mp hid with
    | number hword => exact hword
    | text => trivial
  case h_2 => contradiction

/-- An integer fits in 64 bits. -/
theorem Json.yields_signed : Yields signed fun code => fitsSigned code = true := by
  intro text found rest hread
  unfold signed at hread
  split at hread
  case h_1 => contradiction
  case h_2 =>
  split at hread
  case isFalse => contradiction
  case isTrue =>
  split at hread
  case h_1 | h_3 => contradiction
  case h_2 =>
  split at hread
  case isFalse => contradiction
  -- The only successful path ends behind the check that the number fits.
  case isTrue hfits =>
    obtain ⟨rfl, -⟩ := Prod.mk.inj (Except.ok.inj hread)
    exact hfits

theorem Json.yields_text : Yields Json.text fun _ => True := fun _ _ _ _ => trivial

end Fields

/-! ### Records -/

theorem forall_mem_join {α : Type} {found : Option (Option α)} {P : α → Prop}
    (h : ∀ inner ∈ found, ∀ x ∈ inner, P x) : ∀ x ∈ found.join, P x := by
  cases found with
  | none => exact nofun
  | some inner => exact h inner rfl

theorem RpcError.yields_read {levels : Nat} : Yields (read (levels + 1)) (Kept levels) := by
  refine Schema.yields_read
    (.field yields_signed (.field yields_text (.field yields_arranged .done))) ?_
  rintro ⟨code, message, data, _⟩ error ⟨hcode, -, hdata, -⟩ hfinish
  unfold ofGathered? at hfinish
  split at hfinish
  case h_1 heq =>
    cases heq
    obtain rfl := Option.some.inj hfinish
    exact ⟨hcode _ rfl, forall_mem_join hdata⟩
  case h_2 => contradiction

namespace Response

variable {levels : Nat}

theorem yields_read : Yields (read (levels + 2)) (Kept levels) := by
  refine Schema.yields_read (.field yields_text.optional (.field RequestId.yields_via.optional
    (.field yields_arranged (.field RpcError.yields_read.optional .done)))) ?_
  rintro ⟨jsonrpc, id, result, error, _⟩ response ⟨-, hid, hresult, herror, -⟩ hfinish
  obtain rfl := Option.some.inj hfinish
  exact ⟨forall_mem_join hid, forall_mem_join hresult, forall_mem_join herror⟩

/-- **Any response that is read is in a form of its own.** -/
theorem kept_of_parse {text : List Glyph} {response : Response} (h : parse text = .ok response) :
    response.Kept 125 := by
  obtain ⟨rest, hread, -⟩ := whole_eq_ok_iff.mp h
  exact yields_read _ _ _ hread

/-! ### Writing -/

theorem map_canonical_of_kept {found : Option Json} (h : ∀ value ∈ found, value.Kept levels) :
    (Json.present found).map Json.canonical = found := by
  cases found with
  | none => rfl
  | some value =>
    have hkept := h value rfl
    rw [Json.present_of_ne_null hkept.ne_null, Option.map_some, hkept.canonical_eq]

/-- A response that is kept arrives as it is. -/
theorem Kept.received_eq {response : Response} (h : response.Kept levels) :
    response.received = response := by
  obtain ⟨jsonrpc, id, result, error⟩ := response
  have hresult : (Json.present result).map Json.canonical = result :=
    map_canonical_of_kept h.result
  have herror : error.map RpcError.received = error := by
    cases error with
    | none => rfl
    | some error =>
      have hdata : (Json.present error.data).map Json.canonical = error.data :=
        map_canonical_of_kept (h.error error rfl).data
      rw [Option.map_some, RpcError.received, hdata]
  rw [received, hresult, herror]

theorem Kept.sendable {response : Response} (h : response.Kept levels)
    (hresult : ∀ block ∈ response.result, block.isExact = true)
    (hdata : ∀ error ∈ response.error, ∀ data ∈ error.data, data.isExact = true) :
    response.SendableWithin levels where
  id := h.id
  result block hblock := ⟨hresult block hblock, (h.result block hblock).depth_le⟩
  error error herror :=
    ⟨(h.error error herror).code, fun data hmem =>
      ⟨hdata error herror data hmem, ((h.error error herror).data data hmem).depth_le⟩⟩

theorem denotes_render {response : Response} (h : response.SendableWithin 125) :
    Denotes (Glyph.ofString response.toJson.render) response.toJson ∧
      response.toJson.depth ≤ nesting :=
  read_eq_ok_iff.mp (read_render (fits_toJson h))

/-- **What is read from a text is read again from the text that it is written as**, if its numbers
are integers.  So it is written the same a second time, and its outcome is the same. -/
theorem rewriting_loses_nothing {bytes : List UInt8} {response : Response}
    (h : parse (Glyph.ofBytes bytes) = .ok response)
    (hresult : ∀ block ∈ response.result, block.isExact = true)
    (hdata : ∀ error ∈ response.error, ∀ data ∈ error.data, data.isExact = true) :
    parse (Glyph.ofBytes response.toJson.render.toUTF8.data.toList) = .ok response ∧
    ∀ again, parse (Glyph.ofBytes response.toJson.render.toUTF8.data.toList) = .ok again →
      again.toJson.render = response.toJson.render ∧ again.outcome = response.outcome := by
  have hkept := kept_of_parse h
  have hsendable := hkept.sendable hresult hdata
  obtain ⟨hdenotes, hdepth⟩ := denotes_render hsendable
  -- the text that is written denotes a value, in which the response is found that arrives
  have hread : parse (Glyph.ofBytes response.toJson.render.toUTF8.data.toList) = .ok response := by
    rw [Glyph.ofBytes_toUTF8, parse_eq_ok_iff hdenotes hdepth, ofJson?_toJson hsendable,
      hkept.received_eq]
  refine ⟨hread, fun again hagain => ?_⟩
  obtain rfl := Except.ok.inj (hread.symm.trans hagain)
  exact ⟨rfl, rfl⟩

/-- An array comes back as an object and this as itself, names out of order and twice, the smallest
and the largest number, and a null for the data of the error notwithstanding. -/
theorem rewriting_loses_nothing_array :
    ∃ (bytes : List UInt8) (response : Response),
      bytes = ("[\"2.0\",null,\x7b\"b\":1,\"a\":[-9223372036854775808,18446744073709551615]," ++
        "\"b\":\"\\u00e9\"\x7d ,[-7,\"no\",null]]").toUTF8.data.toList ∧
      parse (Glyph.ofBytes bytes) = .ok response ∧
      (∀ block ∈ response.result, block.isExact = true) ∧
      (∀ error ∈ response.error, ∀ data ∈ error.data, data.isExact = true) ∧
      parse (Glyph.ofBytes response.toJson.render.toUTF8.data.toList) = .ok response := by
  have hread : parse (Glyph.ofBytes ("[\"2.0\",null,\x7b\"b\":1," ++
      "\"a\":[-9223372036854775808,18446744073709551615]," ++
        "\"b\":\"\\u00e9\"\x7d ,[-7,\"no\",null]]").toUTF8.data.toList) =
      .ok ⟨some "2.0", none, some (.obj [("a", .arr [.int (-9223372036854775808),
        .int 18446744073709551615]), ("b", .str "é")]), some ⟨-7, "no", none⟩⟩ := by
    rw [Glyph.ofBytes_toUTF8]
    decide +kernel
  refine ⟨_, _, rfl, hread, by decide, by decide, ?_⟩
  exact (rewriting_loses_nothing hread (by decide) (by decide)).1

end Response

end Backfill
