import Backfill.Rpc.Envelope
import Backfill.Proofs.JsonRoundTrip

/-!
# Responses come back

A list of responses that is written as the answer to a batch is read as that list again, except
that a null counts as nothing and that the fields of objects are put in order.  What can be sent is
limited by the numbers of a response and by how deeply it is nested: the array and the response
around a block are two of the levels that a reader goes down.

## Main definitions

* `Response.SendableWithin` — a response whose text can be read, given how deeply values may be
  nested; `Response.Sendable` — one that can be read as one of a batch.
* `Json.present` — a value, unless it is null; `Response.received` — a response as it arrives.

## Main results

* `Response.ofJson?_toJson` — a response that is written is read as it arrives.
* `Envelope.decode_render` — so is the answer to a batch.
-/

namespace Backfill

/-- The value, unless it is null. -/
def Json.present : Option Json → Option Json
  | some .null => none
  | found => found

/-- An identifier whose text can be read. -/
def RequestId.Sendable : RequestId → Prop
  | .number value => value ≤ Word.max
  | .text _ => True

instance : DecidablePred RequestId.Sendable
  | .number value => inferInstanceAs (Decidable (value ≤ Word.max))
  | .text _ => inferInstanceAs (Decidable True)

namespace RpcError

/-- An error whose text can be read if its data may be nested so many levels. -/
structure SendableWithin (levels : Nat) (error : RpcError) : Prop where
  code : fitsSigned error.code
  data : ∀ data ∈ error.data, data.Fits levels

/-- An error whose text can be read. -/
structure Sendable (error : RpcError) : Prop where
  code : fitsSigned error.code
  data : ∀ data ∈ error.data, data.Fits 124

instance (error : RpcError) : Decidable error.Sendable :=
  decidable_of_iff (fitsSigned error.code ∧ ∀ data ∈ error.data, data.Fits 124)
    ⟨fun h => ⟨h.1, h.2⟩, fun h => ⟨h.1, h.2⟩⟩

/-- An error as it arrives. -/
def received (error : RpcError) : RpcError :=
  ⟨error.code, error.message, (Json.present error.data).map Json.canonical⟩

end RpcError

namespace Response

/-- A response whose text can be read if the data of its error may be nested so many levels, and its
block one more. -/
structure SendableWithin (levels : Nat) (response : Response) : Prop where
  id : ∀ id ∈ response.id, id.Sendable
  result : ∀ block ∈ response.result, block.Fits (levels + 1)
  error : ∀ error ∈ response.error, error.SendableWithin levels

/-- A response whose text can be read, as one of a batch. -/
structure Sendable (response : Response) : Prop where
  id : ∀ id ∈ response.id, id.Sendable
  result : ∀ block ∈ response.result, block.Fits 125
  error : ∀ error ∈ response.error, error.Sendable

instance (response : Response) : Decidable response.Sendable :=
  decidable_of_iff ((∀ id ∈ response.id, id.Sendable) ∧
      (∀ block ∈ response.result, block.Fits 125) ∧ ∀ error ∈ response.error, error.Sendable)
    ⟨fun h => ⟨h.1, h.2.1, h.2.2⟩, fun h => ⟨h.1, h.2, h.3⟩⟩

theorem Sendable.within {response : Response} (h : response.Sendable) :
    response.SendableWithin 124 :=
  ⟨h.id, h.result, fun error herror => ⟨(h.error error herror).code, (h.error error herror).data⟩⟩

/-- A response as it arrives. -/
def received (response : Response) : Response :=
  ⟨response.jsonrpc, response.id, (Json.present response.result).map Json.canonical,
    response.error.map RpcError.received⟩

end Response

/-! ### Fields -/

namespace Json

theorem present_of_ne_null {value : Json} (h : value ≠ .null) :
    present (some value) = some value := by
  cases value with
  | null => exact absurd rfl h
  | _ => rfl

theorem field?_canonical (found : Option Json) :
    field? (fun value => some value.canonical) (some (found.getD .null)) =
      some ((present found).map canonical) := by
  cases found with
  | none => rfl
  | some value => cases value <;> rfl

theorem field?_canonical_self (found : Option Json) :
    field? (fun value => some value.canonical) found = some ((present found).map canonical) := by
  cases found with
  | none => rfl
  | some value => cases value <;> rfl

theorem field?_string (found : Option String) :
    field? string? (some ((found.map str).getD .null)) = some found := by
  cases found <;> rfl

end Json

namespace RequestId

/-- A field that is null, or holds an identifier. -/
theorem field?_ofJson? {id : Option RequestId} (h : ∀ found ∈ id, found.Sendable) :
    Json.field? ofJson? (some ((id.map toJson).getD .null)) = some id := by
  cases id with
  | none => rfl
  | some id =>
    cases id with
    | text value => rfl
    | number value =>
      have hvalue : value ≤ Word.max := h (.number value) rfl
      have hfits : fitsUnsigned value = true := by
        simp only [fitsUnsigned, Bool.and_eq_true, decide_eq_true_eq]
        exact ⟨Int.natCast_nonneg value, Int.ofNat_le.mpr hvalue⟩
      simp [Json.field?, Json.optional?, toJson, ofJson?, hfits]

theorem fits_toJson {id : Option RequestId} (h : ∀ found ∈ id, found.Sendable) (levels : Nat) :
    ((id.map toJson).getD .null).Fits levels := by
  cases id with
  | none => exact Json.fits_null levels
  | some id =>
    cases id with
    | text value => exact Json.fits_str levels value
    | number value =>
      exact (Json.fits_int levels _).mpr (Json.inRange_of_le (h (.number value) rfl))

end RequestId

namespace RpcError

variable {error : RpcError} {levels : Nat}

/-- An error that is written is read as it arrives. -/
theorem ofJson?_toJson (h : error.SendableWithin levels) :
    ofJson? error.toJson = some error.received := by
  have hcode : code? (.int error.code) = some error.code := by simp [code?, h.code]
  have hfields (data : Option Json) :
      ofFields? (some (.int error.code)) (some (.str error.message)) data =
        some ⟨error.code, error.message, (Json.present data).map Json.canonical⟩ := by
    simp [ofFields?, hcode, Json.string?, Json.field?_canonical_self]
  cases hdata : error.data with
  | none => simp [toJson, ofJson?, Json.only?, hdata, hfields, received]
  | some data => simp [toJson, ofJson?, Json.only?, hdata, hfields, received]

theorem fits_toJson (h : error.SendableWithin levels) : error.toJson.Fits (levels + 1) := by
  have hcode : Json.InRange error.code := by
    have hfits := h.code
    simp only [fitsSigned, Bool.and_eq_true, decide_eq_true_eq] at hfits
    exact ⟨hfits.1, Int.le_trans hfits.2 (by decide)⟩
  refine Json.fits_obj.mpr ?_
  cases hdata : error.data with
  | none => simp [hcode]
  | some data => simp [hcode, h.data data hdata]

end RpcError

namespace Response

variable {response : Response} {levels : Nat}

/-- A response that is written is read as it arrives. -/
theorem ofJson?_toJson (h : response.SendableWithin levels) :
    ofJson? response.toJson = some response.received := by
  have hfields (error : Option Json) (found : Option RpcError)
      (herror : Json.field? RpcError.ofJson? error = some found) :
      ofFields? (some ((response.jsonrpc.map Json.str).getD .null))
        (some ((response.id.map RequestId.toJson).getD .null))
        (some (response.result.getD .null)) error =
      some ⟨response.jsonrpc, response.id, (Json.present response.result).map Json.canonical,
        found⟩ := by
    simp [ofFields?, Json.field?_string, RequestId.field?_ofJson? h.id, Json.field?_canonical,
      herror]
  cases herror : response.error with
  | none => simp [toJson, ofJson?, Json.only?, herror, hfields none none rfl, received]
  | some error =>
    -- an error is written as an object, so it is not taken for the null of an absent one
    have hread : Json.field? RpcError.ofJson? (some error.toJson) = some (some error.received) := by
      have := RpcError.ofJson?_toJson (h.error error herror)
      simpa [Json.field?, RpcError.toJson, Json.optional?] using this
    simp [toJson, ofJson?, Json.only?, herror, hfields _ _ hread, received]

/-- A response that can be sent takes one level more than its block. -/
theorem fits_toJson (h : response.SendableWithin levels) :
    response.toJson.Fits (levels + 2) := by
  have hjsonrpc : ((response.jsonrpc.map Json.str).getD .null).Fits (levels + 1) := by
    cases response.jsonrpc <;> simp
  have hid := RequestId.fits_toJson h.id (levels + 1)
  have hresult : (response.result.getD .null).Fits (levels + 1) := by
    cases hfound : response.result with
    | none => exact Json.fits_null _
    | some block => exact h.result block hfound
  refine Json.fits_obj.mpr ?_
  cases herror : response.error with
  | none => simp [hjsonrpc, hid, hresult]
  | some error =>
    have herrorFits := RpcError.fits_toJson (h.error error herror)
    simp [hjsonrpc, hid, hresult, herrorFits]

end Response

namespace Envelope

variable {responses : List Response}

theorem responses?_toJson (h : ∀ response ∈ responses, response.Sendable) :
    responses? (.arr (responses.map Response.toJson)) = some (responses.map Response.received) := by
  induction responses with
  | nil => rfl
  | cons response rest ih =>
    have hfirst := Response.ofJson?_toJson (h response List.mem_cons_self).within
    have hrest := ih fun other hother => h other (List.mem_cons_of_mem _ hother)
    simp only [responses?] at hrest ⊢
    simp [hfirst, hrest]

/-- **The answer to a batch is read as the responses that it was made of.** -/
theorem decode_render (h : ∀ response ∈ responses, response.Sendable) :
    decode (Glyph.ofString (Json.arr (responses.map Response.toJson)).render) =
      .ok (responses.map Response.received) := by
  have hfits : (Json.arr (responses.map Response.toJson)).Fits Json.nesting := by
    refine Json.fits_arr.mpr fun item hitem => ?_
    obtain ⟨response, hresponse, rfl⟩ := List.mem_map.mp hitem
    exact Response.fits_toJson (h response hresponse).within
  have hread : Json.value Json.nesting
      (Glyph.ofString (Json.arr (responses.map Response.toJson)).render) =
      .ok (.arr (responses.map Response.toJson), []) := by
    rw [Json.render, Glyph.ofString, String.toList_ofList]
    exact Json.value_chars hfits
  rw [decode, hread]
  simp [ofJson, responses?_toJson h, Json.onlyBlank, Json.skipBlank]

end Envelope

end Backfill
