import Backfill.Proofs.JsonReading
import Backfill.Proofs.ResponseRoundTrip
import Backfill.Proofs.Utf8RoundTrip
import Mathlib.Data.List.Forall2

/-!
# The shape of a response

A record is written as an object, in which each of its fields is named at most once and others do
not matter, or as an array with at most as many items as the record has fields, in order.  A field
that is left out or null holds nothing.  Which values are responses is said here without a reader,
and so is what the answer to a batch may be: an array of responses, or a single one, or neither.

## Main definitions

* `Json.NamedOnce`, `Json.Layout` — where the fields of a record are found in a value.
* `Json.Holds` — what a field holds that may be left out.
* `RequestId.Shape`, `RpcError.Shape`, `Response.Shape` — a value is an identifier, an error or a
  response.
* `Envelope.IsBatch` — a value is an array of responses.

## Main results

* `Response.ofJson?_eq_some_iff` — a response is found in the values of its shape.
* `Envelope.ofJson_eq_ok_iff`, `Envelope.ofJson_eq_single_iff` — what a value says as the answer to
  a batch.
* `Envelope.decode_follows_grammar` — **the bytes of an answer are taken for a batch, for a single
  response or for neither, as the grammar and the shapes say.**
-/

namespace Backfill

/-! ### Records -/

namespace Json

/-- At most one field of an object has this name; if there is one, it has this value. -/
inductive NamedOnce (fields : List (String × Json)) (key : String) : Option Json → Prop
  | absent (hfields : ∀ field ∈ fields, field.1 ≠ key) : NamedOnce fields key none
  | once {before after : List (String × Json)} {value : Json}
    (hfields : fields = before ++ (key, value) :: after) (hbefore : ∀ field ∈ before, field.1 ≠ key)
    (hafter : ∀ field ∈ after, field.1 ≠ key) : NamedOnce fields key (some value)

/-- A record is written as a value in which its fields, in order, are these or missing. -/
inductive Layout (keys : List String) : Json → List (Option Json) → Prop
  | named {fields : List (String × Json)} {found : List (Option Json)}
    (hfound : List.Forall₂ (NamedOnce fields) keys found) : Layout keys (.obj fields) found
  | ordered {items : List Json} {missing : Nat} (hlength : items.length + missing = keys.length) :
    Layout keys (.arr items) (items.map some ++ List.replicate missing none)

/-- A field that may be left out or null holds nothing, or what its value is. -/
inductive Holds {α : Type} (one : Json → α → Prop) : Option Json → Option α → Prop
  | missing : Holds one none none
  | null : Holds one (some .null) none
  | given {value : Json} {found : α} (hnull : value ≠ .null) (hone : one value found) :
    Holds one (some value) (some found)

/-- A value is a text. -/
inductive IsText : Json → String → Prop
  | intro (text : String) : IsText (.str text) text

/-- A value of any shape is kept with the fields of its objects in order, each name once. -/
def Arranged (value found : Json) : Prop := found = value.canonical

end Json

/-- A value is the identifier of a call: a word or a text. -/
inductive RequestId.Shape : Json → RequestId → Prop
  | number {n : Nat} (hword : n ≤ Word.max) : RequestId.Shape (.int n) (.number n)
  | text (text : String) : RequestId.Shape (.str text) (.text text)

/-- A value is an error code: an integer of 64 bits with a sign. -/
inductive RpcError.Code : Json → Int → Prop
  | intro {n : Int} (hlow : -9223372036854775808 ≤ n) (hhigh : n ≤ 9223372036854775807) :
    RpcError.Code (.int n) n

/-- A value is an error: its code and its message are needed, its data may be left out. -/
inductive RpcError.Shape (value : Json) (error : RpcError) : Prop
  | intro {code message : Json} {data : Option Json}
    (hlayout : Json.Layout ["code", "message", "data"] value [some code, some message, data])
    (hcode : RpcError.Code code error.code) (hmessage : Json.IsText message error.message)
    (hdata : Json.Holds Json.Arranged data error.data)

/-- A value is a response: each of its fields may be left out. -/
inductive Response.Shape (value : Json) (response : Response) : Prop
  | intro {jsonrpc id result error : Option Json}
    (hlayout : Json.Layout ["jsonrpc", "id", "result", "error"] value [jsonrpc, id, result, error])
    (hjsonrpc : Json.Holds Json.IsText jsonrpc response.jsonrpc)
    (hid : Json.Holds RequestId.Shape id response.id)
    (hresult : Json.Holds Json.Arranged result response.result)
    (herror : Json.Holds RpcError.Shape error response.error)

namespace Json

/-! ### Finding fields -/

section Fields

variable {fields : List (String × Json)} {items : List Json} {key : String}

/-- The only field with a name is found, or that there is none. -/
theorem only?_eq_some_iff {found : Option Json} :
    only? fields key = some found ↔ NamedOnce fields key found := by
  constructor
  · intro h
    unfold only? at h
    split at h
    case h_1 hfilter =>
      obtain rfl := Option.some.inj h
      exact .absent (by simpa using hfilter)
    case h_2 name value hfilter =>
      obtain rfl := Option.some.inj h
      -- The one field that the filter keeps splits the list in two parts without the key.
      obtain ⟨before, after, rfl, hbefore, hkey, hafter⟩ := List.filter_eq_cons_iff.mp hfilter
      obtain rfl : name = key := by simpa using hkey
      exact .once rfl (by simpa using hbefore) (by simpa using hafter)
    case h_3 => contradiction
  · intro h
    unfold only?
    cases h with
    | absent hfields =>
      rw [List.filter_eq_nil_iff.mpr (by simpa using hfields)]
    | once hfields hbefore hafter =>
      rw [hfields, List.filter_append, List.filter_eq_nil_iff.mpr (by simpa using hbefore),
        List.nil_append, List.filter_cons_of_pos (by simp),
        List.filter_eq_nil_iff.mpr (by simpa using hafter)]

/-- A field that may be left out or null holds what is found in it. -/
theorem field?_eq_some_iff {α : Type} {one : Json → Option α} {P : Json → α → Prop}
    (hone : ∀ value found, one value = some found ↔ P value found) {value : Option Json}
    {found : Option α} : field? one value = some found ↔ Holds P value found := by
  constructor
  · intro h
    rcases value with _ | value
    · obtain rfl := Option.some.inj h
      exact .missing
    · -- A null counts as missing, so it is asked for before the value is read.
      by_cases hnull : value = .null
      · subst hnull
        obtain rfl := Option.some.inj h
        exact .null
      · have hmap : (one value).map some = some found := by
          rwa [field?, optional?] at h
          exact hnull
        obtain ⟨result, hresult, rfl⟩ := Option.map_eq_some_iff.mp hmap
        exact .given hnull ((hone _ _).mp hresult)
  · intro h
    cases h with
    | missing | null => rfl
    | given hnull hvalue =>
      rw [field?, optional?, (hone _ _).mpr hvalue]
      · rfl
      · exact hnull

/-- The items of a record that is written as an array are its fields, in order. -/
theorem layout_arr_iff {keys : List String} {found : List (Option Json)} :
    Layout keys (.arr items) found ↔
      items.length ≤ keys.length ∧ found = (List.range keys.length).map (items[·]?) := by
  -- The items, filled up with what is missing, are what stands at each position.
  have hitems {missing : Nat} (hlength : items.length + missing = keys.length) :
      items.map some ++ List.replicate missing none =
        (List.range keys.length).map (items[·]?) := by
    refine List.ext_getElem (by simp [hlength]) fun i hi _ => ?_
    by_cases h : i < items.length
    · simp [List.getElem_append_left, h]
    · rw [List.getElem_append_right (by simpa using h)]
      simp [h]
  constructor
  · rintro ⟨⟩
    rename_i missing hlength
    exact ⟨by omega, hitems hlength⟩
  · rintro ⟨hle, rfl⟩
    rw [← hitems (Nat.add_sub_cancel' hle)]
    exact .ordered (Nat.add_sub_cancel' hle)

theorem layout_obj_iff {keys : List String} {found : List (Option Json)} :
    Layout keys (.obj fields) found ↔ List.Forall₂ (NamedOnce fields) keys found := by
  constructor
  · rintro ⟨⟩
    assumption
  · exact .named

end Fields

theorem string?_eq_some_iff {value : Json} {text : String} :
    value.string? = some text ↔ IsText value text := by
  constructor
  · intro h
    cases value with
    | str found =>
      obtain rfl := Option.some.inj h
      exact .intro found
    | null | bool | int | real | arr | obj => contradiction
  · rintro ⟨⟩
    rfl

theorem canonical_eq_some_iff (value found : Json) :
    some value.canonical = some found ↔ Arranged value found := by
  rw [Option.some.injEq, eq_comm, Arranged]

end Json

/-- An identifier is found in a value that is one. -/
theorem RequestId.ofJson?_eq_some_iff {value : Json} {id : RequestId} :
    RequestId.ofJson? value = some id ↔ RequestId.Shape value id := by
  constructor
  · intro h
    cases value with
    | int n =>
      rw [ofJson?] at h
      split at h
      case isFalse => contradiction
      case isTrue hfits =>
        obtain rfl := Option.some.inj h
        simp only [fitsUnsigned, Bool.and_eq_true, decide_eq_true_eq] at hfits
        -- What fits is not negative, so it is a natural number.
        obtain ⟨n, rfl⟩ := Int.eq_ofNat_of_zero_le hfits.1
        exact .number (Int.ofNat_le.mp hfits.2)
    | str text =>
      obtain rfl := Option.some.inj h
      exact .text text
    | null | bool | real | arr | obj => contradiction
  · intro h
    cases h with
    | text => rfl
    | @number n hword =>
      have hfits : fitsUnsigned n = true := by
        simp only [fitsUnsigned, Bool.and_eq_true, decide_eq_true_eq]
        exact ⟨Int.natCast_nonneg n, Int.ofNat_le.mpr hword⟩
      simp [ofJson?, hfits]

namespace RpcError

/-- An error code is found in a value that is one. -/
theorem code?_eq_some_iff {value : Json} {code : Int} :
    code? value = some code ↔ Code value code := by
  -- The check is written with booleans, the grammar with bounds.
  have hfits (n : Int) :
      fitsSigned n = true ↔ -9223372036854775808 ≤ n ∧ n ≤ 9223372036854775807 := by
    simp only [fitsSigned, Bool.and_eq_true, decide_eq_true_eq]
  constructor
  · intro h
    cases value with
    | int n =>
      rw [code?] at h
      split at h
      case isFalse => contradiction
      case isTrue hrange =>
        obtain rfl := Option.some.inj h
        obtain ⟨hlow, hhigh⟩ := (hfits n).mp hrange
        exact .intro hlow hhigh
    | null | bool | real | str | arr | obj => contradiction
  · rintro ⟨hlow, hhigh⟩
    simp [code?, (hfits code).mpr ⟨hlow, hhigh⟩]

theorem ofFields?_eq_some_iff {code message data : Option Json} {error : RpcError} :
    ofFields? code message data = some error ↔
      ∃ codeValue messageValue, code = some codeValue ∧ message = some messageValue ∧
        Code codeValue error.code ∧ Json.IsText messageValue error.message ∧
          Json.Holds Json.Arranged data error.data := by
  simp only [← code?_eq_some_iff, ← Json.string?_eq_some_iff,
    ← Json.field?_eq_some_iff Json.canonical_eq_some_iff]
  obtain ⟨errorCode, errorMessage, errorData⟩ := error
  cases code <;> cases message <;>
    simp [ofFields?, Option.bind_eq_some_iff]

/-- The fields of an error are looked for as its layout says. -/
theorem ofJson?_eq_some_iff_layout {value : Json} {error : RpcError} :
    ofJson? value = some error ↔
      ∃ code message data, Json.Layout ["code", "message", "data"] value [code, message, data] ∧
        ofFields? code message data = some error := by
  cases value with
  | obj fields =>
    simp [ofJson?, Option.bind_eq_some_iff, Json.layout_obj_iff, Json.only?_eq_some_iff, and_assoc]
  | arr items =>
    simp only [Json.layout_arr_iff]
    constructor
    · intro h
      rw [ofJson?] at h
      split at h
      case isFalse => contradiction
      case isTrue hlength => exact ⟨_, _, _, ⟨hlength, rfl⟩, h⟩
    · rintro ⟨_, _, _, ⟨hlength, hfound⟩, h⟩
      -- A layout lists the items by position, present or not.
      obtain ⟨rfl, rfl, rfl⟩ : _ = items[0]? ∧ _ = items[1]? ∧ _ = items[2]? := by
        simpa [List.range_succ] using hfound
      exact (if_pos hlength).trans h
  | null | bool | int | real | str =>
    constructor
    · intro h
      contradiction
    · rintro ⟨_, _, _, ⟨⟩, -⟩

/-- An error is found in the values of its shape. -/
theorem ofJson?_eq_some_iff {value : Json} {error : RpcError} :
    ofJson? value = some error ↔ Shape value error := by
  rw [ofJson?_eq_some_iff_layout]
  simp only [ofFields?_eq_some_iff]
  constructor
  · rintro ⟨_, _, data, hlayout, code, message, rfl, rfl, hcode, hmessage, hdata⟩
    exact .intro hlayout hcode hmessage hdata
  · rintro ⟨hlayout, hcode, hmessage, hdata⟩
    exact ⟨_, _, _, hlayout, _, _, rfl, rfl, hcode, hmessage, hdata⟩

end RpcError

namespace Response

/-- What the fields of a response make up. -/
theorem ofFields?_eq_some_iff {jsonrpc id result error : Option Json} {response : Response} :
    ofFields? jsonrpc id result error = some response ↔
      Json.Holds Json.IsText jsonrpc response.jsonrpc ∧
        Json.Holds RequestId.Shape id response.id ∧
          Json.Holds Json.Arranged result response.result ∧
            Json.Holds RpcError.Shape error response.error := by
  rw [← Json.field?_eq_some_iff fun _ _ => Json.string?_eq_some_iff,
    ← Json.field?_eq_some_iff fun _ _ => RequestId.ofJson?_eq_some_iff,
    ← Json.field?_eq_some_iff Json.canonical_eq_some_iff,
    ← Json.field?_eq_some_iff fun _ _ => RpcError.ofJson?_eq_some_iff]
  obtain ⟨foundJsonrpc, foundId, foundResult, foundError⟩ := response
  simp [ofFields?, Option.bind_eq_some_iff]

/-- The fields of a response are looked for as its layout says. -/
theorem ofJson?_eq_some_iff_layout {value : Json} {response : Response} :
    ofJson? value = some response ↔
      ∃ jsonrpc id result error,
        Json.Layout ["jsonrpc", "id", "result", "error"] value [jsonrpc, id, result, error] ∧
          ofFields? jsonrpc id result error = some response := by
  cases value with
  | obj fields =>
    simp [ofJson?, Option.bind_eq_some_iff, Json.layout_obj_iff, Json.only?_eq_some_iff, and_assoc]
  | arr items =>
    -- As for an error, with one more field.
    simp only [Json.layout_arr_iff]
    constructor
    · intro h
      rw [ofJson?] at h
      split at h
      case isFalse => contradiction
      case isTrue hlength => exact ⟨_, _, _, _, ⟨hlength, rfl⟩, h⟩
    · rintro ⟨_, _, _, _, ⟨hlength, hfound⟩, h⟩
      obtain ⟨rfl, rfl, rfl, rfl⟩ :
          _ = items[0]? ∧ _ = items[1]? ∧ _ = items[2]? ∧ _ = items[3]? := by
        simpa [List.range_succ] using hfound
      exact (if_pos hlength).trans h
  | null | bool | int | real | str =>
    constructor
    · intro h
      contradiction
    · rintro ⟨_, _, _, _, ⟨⟩, -⟩

/-- A response is found in the values of its shape. -/
theorem ofJson?_eq_some_iff {value : Json} {response : Response} :
    ofJson? value = some response ↔ Shape value response := by
  rw [ofJson?_eq_some_iff_layout]
  simp only [ofFields?_eq_some_iff]
  constructor
  · rintro ⟨_, _, _, _, hlayout, hjsonrpc, hid, hresult, herror⟩
    exact .intro hlayout hjsonrpc hid hresult herror
  · rintro ⟨hlayout, hjsonrpc, hid, hresult, herror⟩
    exact ⟨_, _, _, _, hlayout, hjsonrpc, hid, hresult, herror⟩

end Response

/-! ### Answers to a batch -/

namespace Envelope

/-- A value is an array of responses. -/
inductive IsBatch : Json → List Response → Prop
  | intro {items : List Json} {responses : List Response}
    (hitems : List.Forall₂ Response.Shape items responses) : IsBatch (.arr items) responses

variable {value : Json} {responses : List Response} {response : Response}

/-- Responses are found in the items of an array if each item is one. -/
theorem responses?_eq_some_iff : responses? value = some responses ↔ IsBatch value responses := by
  cases value with
  | arr items =>
    -- A list is a batch when each item has the shape of a response.
    have hitems : items.mapM Response.ofJson? = some responses ↔
        List.Forall₂ Response.Shape items responses := by
      induction items generalizing responses with
      | nil => cases responses <;> simp
      | cons item rest ih =>
        cases responses <;>
          simp [List.mapM_cons, Option.bind_eq_some_iff, Response.ofJson?_eq_some_iff, ih]
    rw [responses?, hitems]
    constructor
    · exact .intro
    · rintro ⟨h⟩
      exact h
  | null | bool | int | real | str | obj =>
    constructor
    · intro h
      contradiction
    · rintro ⟨⟩

/-- A value that is an array of responses is a batch. -/
theorem ofJson_eq_ok_iff : ofJson value = .ok responses ↔ IsBatch value responses := by
  rw [← responses?_eq_some_iff, ofJson]
  cases responses? value with
  | some found => simp
  | none => cases Response.ofJson? value <;> simp

/-- A value is a single response if it is no batch. -/
theorem ofJson_eq_single_iff : ofJson value = .error (.singleResponse response) ↔
    (∀ responses, ¬IsBatch value responses) ∧ Response.Shape value response := by
  simp only [← responses?_eq_some_iff, ← Response.ofJson?_eq_some_iff, ofJson]
  cases responses? value with
  | some found => simp
  | none => cases Response.ofJson? value <;> simp

theorem ofJson_eq_noResponse_iff : ofJson value = .error .noResponse ↔
    (∀ responses, ¬IsBatch value responses) ∧ ∀ response, ¬Response.Shape value response := by
  simp only [← responses?_eq_some_iff, ← Response.ofJson?_eq_some_iff, ofJson]
  cases responses? value with
  | some found => simp
  | none => cases Response.ofJson? value <;> simp

theorem ofJson_ne_unreadable (value : Json) (flaw : Json.Flaw) (place : Json.Place) :
    ofJson value ≠ .error (.unreadable flaw place) := by
  unfold ofJson
  cases responses? value with
  | some found => exact nofun
  | none => cases Response.ofJson? value <;> exact nofun

/-- The value that an answer denotes, if it is nested no deeper than can be read. -/
def Carries (text : List Glyph) (value : Json) : Prop :=
  Json.Denotes text value ∧ value.depth ≤ Json.nesting

variable {text : List Glyph}

theorem Carries.unique {other : Json} (h : Carries text value) (hother : Carries text other) :
    value = other := by
  obtain ⟨⟨_, hspells, -⟩, -⟩ := h
  obtain ⟨⟨_, hotherSpells, -⟩, -⟩ := hother
  exact (hspells.unique hotherSpells).1

/-- An answer that carries no value is none. -/
theorem decode_of_not_carries (h : ∀ value, ¬Carries text value) :
    (∃ flaw place, decode text = .error (.unreadable flaw place)) ∨
      decode text = .error .noResponse := by
  unfold decode
  cases hread : Json.value Json.nesting text with
  | error fault => exact .inl ⟨_, _, rfl⟩
  | ok result =>
    obtain ⟨value, rest⟩ := result
    obtain ⟨hspells, hdepth⟩ := Json.value_eq_ok_iff.mp hread
    cases hblank : Json.onlyBlank rest with
    | ok => exact absurd ⟨⟨rest, hspells, Json.onlyBlank_eq_ok_iff.mp hblank⟩, hdepth⟩ (h value)
    | error fault =>
      -- that there is no response is noticed first
      simp only [hblank]
      cases ofJson value with
      | ok responses => exact .inl ⟨_, _, rfl⟩
      | error error =>
        cases error with
        | noResponse => exact .inr rfl
        | unreadable | singleResponse => exact .inl ⟨_, _, rfl⟩

theorem decode_of_carries (h : Carries text value) : decode text = ofJson value := by
  obtain ⟨⟨rest, hspells, hrest⟩, hdepth⟩ := h
  rw [decode, Json.value_eq_ok_iff.mpr ⟨hspells, hdepth⟩]
  simp only [Json.onlyBlank_eq_ok_iff.mpr hrest]
  cases ofJson value with
  | ok responses => rfl
  | error error => cases error <;> rfl

theorem exists_carries_of_decode {answer : Except EnvelopeError (List Response)}
    (h : decode text = answer) (hflaw : ∀ flaw place, answer ≠ .error (.unreadable flaw place))
    (hresponse : answer ≠ .error .noResponse) :
    ∃ value, Carries text value ∧ ofJson value = answer := by
  by_contra hcarries
  rw [not_exists] at hcarries
  have hnone (value : Json) : ¬Carries text value := fun hvalue =>
    hcarries value ⟨hvalue, (decode_of_carries hvalue).symm.trans h⟩
  obtain ⟨flaw, place, heq⟩ | heq := decode_of_not_carries hnone
  · exact hflaw flaw place (h.symm.trans heq)
  · exact hresponse (h.symm.trans heq)

theorem decode_eq_ok_iff : decode text = .ok responses ↔
    ∃ value, Carries text value ∧ IsBatch value responses := by
  simp only [← ofJson_eq_ok_iff]
  constructor
  · intro h
    exact exists_carries_of_decode h nofun nofun
  · rintro ⟨value, hvalue, h⟩
    exact (decode_of_carries hvalue).trans h

theorem decode_eq_single_iff : decode text = .error (.singleResponse response) ↔
    ∃ value, Carries text value ∧ (∀ responses, ¬IsBatch value responses) ∧
      Response.Shape value response := by
  simp only [← ofJson_eq_single_iff]
  constructor
  · intro h
    exact exists_carries_of_decode h nofun nofun
  · rintro ⟨value, hvalue, h⟩
    exact (decode_of_carries hvalue).trans h

/-- An answer that is refused carries neither. -/
theorem decode_refused_iff :
    (∃ flaw place, decode text = .error (.unreadable flaw place)) ∨
        decode text = .error .noResponse ↔
      ∀ value, Carries text value →
        (∀ responses, ¬IsBatch value responses) ∧ ∀ response, ¬Response.Shape value response := by
  simp only [← ofJson_eq_noResponse_iff]
  constructor
  · intro h value hvalue
    rw [decode_of_carries hvalue] at h
    obtain ⟨flaw, place, heq⟩ | heq := h
    · exact absurd heq (ofJson_ne_unreadable value flaw place)
    · exact heq
  · intro h
    -- A text that carries no value is refused before any shape is asked for.
    by_cases hcarries : ∃ value, Carries text value
    · obtain ⟨value, hvalue⟩ := hcarries
      exact .inr ((decode_of_carries hvalue).trans (h value hvalue))
    · exact decode_of_not_carries (not_exists.mp hcarries)

/-- **The bytes of an answer are taken for a batch, for a single response or for neither, as the
grammar and the shapes say.**  One item that is no response spoils a batch. -/
theorem decode_follows_grammar (bytes : List UInt8) :
    (∀ responses, decode (Glyph.ofBytes bytes) = .ok responses ↔
      ∃ value, Carries (Glyph.ofBytes bytes) value ∧ IsBatch value responses) ∧
    (∀ response, decode (Glyph.ofBytes bytes) = .error (.singleResponse response) ↔
      ∃ value, Carries (Glyph.ofBytes bytes) value ∧ (∀ responses, ¬IsBatch value responses) ∧
        Response.Shape value response) ∧
    ((∃ flaw place, decode (Glyph.ofBytes bytes) = .error (.unreadable flaw place)) ∨
        decode (Glyph.ofBytes bytes) = .error .noResponse ↔
      ∀ value, Carries (Glyph.ofBytes bytes) value →
        (∀ responses, ¬IsBatch value responses) ∧ ∀ response, ¬Response.Shape value response) ∧
    ∀ items, Carries (Glyph.ofBytes bytes) (.arr items) →
      (∃ item ∈ items, ∀ response, ¬Response.Shape item response) →
        ∀ responses, decode (Glyph.ofBytes bytes) ≠ .ok responses := by
  refine ⟨fun _ => decode_eq_ok_iff, fun _ => decode_eq_single_iff, decode_refused_iff, ?_⟩
  rintro items hitems ⟨item, hmem, hshape⟩ responses h
  obtain ⟨value, hvalue, hbatch⟩ := decode_eq_ok_iff.mp h
  -- A text carries one value only, so the list with the odd item is the batch in question.
  obtain rfl := hitems.unique hvalue
  obtain ⟨hresponses⟩ := hbatch
  obtain ⟨i, rfl⟩ := List.get_of_mem hmem
  exact hshape _ (hresponses.get i.2 (hresponses.length_eq ▸ i.2))

/-- A second response with two identifiers spoils the first one. -/
theorem decode_follows_grammar_two_ids :
    ∃ items, ∃ bytes : List UInt8,
      bytes = ("[\x7b\"id\":\"block-5\",\"result\":7\x7d," ++
        " \x7b\"id\":null,\"id\":\"block-7\"\x7d ]").toUTF8.data.toList ∧
      Carries (Glyph.ofBytes bytes) (.arr items) ∧
      (∃ item ∈ items, ∀ response, ¬Response.Shape item response) ∧
      ∀ responses, decode (Glyph.ofBytes bytes) ≠ .ok responses := by
  have hcarries := Json.read_eq_ok_iff.mp (show Json.read (Glyph.ofString
      ("[\x7b\"id\":\"block-5\",\"result\":7\x7d," ++
        " \x7b\"id\":null,\"id\":\"block-7\"\x7d ]")) =
      .ok (.arr [.obj [("id", .str "block-5"), ("result", .int 7)],
        .obj [("id", .null), ("id", .str "block-7")]]) by decide +kernel)
  rw [← Glyph.ofBytes_toUTF8] at hcarries
  have hshape : ∃ item ∈ [Json.obj [("id", .str "block-5"), ("result", .int 7)],
      .obj [("id", .null), ("id", .str "block-7")]],
        ∀ response, ¬Response.Shape item response := by
    refine ⟨_, List.mem_cons_of_mem _ List.mem_cons_self, fun response h => ?_⟩
    rw [← Response.ofJson?_eq_some_iff] at h
    contradiction
  exact ⟨_, _, rfl, hcarries, hshape, (decode_follows_grammar _).2.2.2 _ hcarries hshape⟩

end Envelope

end Backfill
