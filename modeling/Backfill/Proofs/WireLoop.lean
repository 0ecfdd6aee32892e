import Backfill.Proofs.ResponseMatching
import Backfill.Proofs.ResponseRoundTrip
import Backfill.Proofs.Utf8RoundTrip
import Mathlib.Data.List.Forall2

/-!
# From the calls of a batch to its outcomes

A provider reads the calls of a batch, and replies to each of them with a response that echoes the
identifier of the call and carries what the provider has to say about the slot.  It may send the
replies in any order, and any other responses among them, as long as nobody mistakes one of those
for a reply that is still to come.  Then every slot of the batch ends up with just what the provider
has to say about it.

## Main definitions

* `Answer` — what a provider has to say about a slot; `Answer.CarriedBy` says which responses carry
  it, and `Answer.outcome` what comes of it.
* `Response.RepliesTo` — a response is the reply to a call.
* `Response.Mixed` — how replies may be sent among other responses.

## Main results

* `Request.read_encode` — the calls of a batch are read as they were meant.
* `Response.Mixed.find?_eq` — each reply is the first response with its identifier.
* `Envelope.every_slot_answered` — every slot of a batch gets its answer, and nothing else is there.
-/

namespace Backfill

/-! ### Answers -/

/-- What a provider has to say about a slot. -/
inductive Answer
  /-- A value other than null, its fields in the order in which a value that was read has them. -/
  | block (value : Json) (hnull : value ≠ .null) (hcanonical : value.canonical = value)
  | error (code : Int) (message : String)
  | nothing

namespace Answer

/-- What comes of a slot about which a provider says this. -/
def outcome : Answer → Outcome
  | .block value _ _ => .fetched value
  | .error code message => .failed (.providerError code message)
  | .nothing => .failed .notFound

/-- Whether a response says this.  What else stands beside an error does not matter. -/
def CarriedBy (response : Response) : Answer → Prop
  | .block value _ _ => response.error = none ∧ response.result = some value
  | .error code message => ∃ data, response.error = some ⟨code, message, data⟩
  | .nothing => response.error = none ∧ Json.present response.result = none

/-- A response has the outcome of what it says. -/
theorem outcome_received {answer : Answer} {response : Response} (h : answer.CarriedBy response) :
    response.received.outcome = answer.outcome := by
  cases answer with
  | block value hnull hcanonical =>
    obtain ⟨herror, hresult⟩ := h
    simp only [Response.received, Response.outcome, herror, hresult, Json.present_of_ne_null hnull,
      Option.map_none, Option.map_some, hcanonical]
    rfl
  | error code message =>
    obtain ⟨data, herror⟩ := h
    simp [Response.received, Response.outcome, herror, RpcError.received, outcome]
  | nothing =>
    obtain ⟨herror, hresult⟩ := h
    simp [Response.received, Response.outcome, herror, hresult, outcome]

end Answer

/-! ### Calls -/

namespace Request

theorem fits_options (options : CallOptions) : options.toJson.Fits 1 := by
  have hversion : options.maxSupportedTransactionVersion.toNat ≤ Word.max :=
    Nat.le_trans (Nat.le_of_lt options.maxSupportedTransactionVersion.toNat_lt) (by decide)
  exact Json.fits_obj.mpr (by simp [Json.inRange_of_le hversion])

theorem fits_toJson {slot : Nat} (h : slot ≤ Word.max) (options : CallOptions) :
    (Request.mk (.ofSlot slot) slot options).toJson.Fits 3 := by
  have hid : (RequestId.ofSlot slot).toJson.Fits 2 := Json.fits_str 2 _
  have hparams : (Json.arr [.int slot, options.toJson]).Fits 2 :=
    Json.fits_arr.mpr (by simp [Json.inRange_of_le h, fits_options])
  exact Json.fits_obj.mpr (by simp [hid, hparams])

/-- The calls of a batch are read as they were meant. -/
theorem read_encode {slots : List Nat} (h : ∀ slot ∈ slots, slot ≤ Word.max)
    (options : CallOptions) :
    Json.read (Glyph.ofBytes (encode slots options).toUTF8.data.toList) =
      .ok (batch slots options) := by
  have hfits : (batch slots options).Fits 4 := by
    refine Json.fits_arr.mpr fun call hcall => ?_
    obtain ⟨slot, hslot, rfl⟩ := List.mem_map.mp hcall
    exact fits_toJson (h slot hslot) options
  rw [Glyph.ofBytes_toUTF8]
  exact Json.read_render (hfits.mono (by decide))

end Request

/-! ### Replies -/

namespace Json

/-- The value of a field, or null. -/
def fieldAt (record : Json) (key : String) : Json := (record.get? key).getD .null

/-- The items, if the value is an array. -/
def items (value : Json) : List Json := value.array?.getD []

end Json

namespace Response

/-- Whether a response is the reply to a call: it echoes the identifier of the call, and says what
`answer` has to say about the slot that is its first parameter. -/
def RepliesTo (answer : Nat → Answer) (call : Json) (response : Response) : Prop :=
  response.toJson.get? "id" = call.get? "id" ∧
    ∃ slot : Nat, (call.fieldAt "params").items.head? = some (.int slot) ∧
      (answer slot).CarriedBy response

/-- A reply to the call for a slot is known by the identifier made from the slot. -/
theorem repliesTo_iff {answer : Nat → Answer} {slot : Nat} {options : CallOptions}
    {response : Response} :
    RepliesTo answer (Request.mk (.ofSlot slot) slot options).toJson response ↔
      response.id = some (.ofSlot slot) ∧ (answer slot).CarriedBy response := by
  have hid : response.toJson.get? "id" = some ((response.id.map RequestId.toJson).getD .null) := by
    cases herror : response.error <;> simp [toJson, herror, List.lookup_cons]
  -- A slot's id is a text, so an id that is echoed as a number is another one.
  have hecho : (response.id.map RequestId.toJson).getD .null = (RequestId.ofSlot slot).toJson ↔
      response.id = some (.ofSlot slot) := by
    cases response.id with
    | none => simp [RequestId.ofSlot, RequestId.toJson]
    | some id => cases id <;> simp [RequestId.ofSlot, RequestId.toJson]
  have hcall : (Request.mk (.ofSlot slot) slot options).toJson.get? "id" =
      some (RequestId.ofSlot slot).toJson := by
    simp [Request.toJson, List.lookup_cons]
  have hslot : ((Request.mk (.ofSlot slot) slot options).toJson.fieldAt "params").items.head? =
      some (.int slot) := by
    simp [Request.toJson, Json.fieldAt, Json.items, Json.array?, List.lookup_cons]
  rw [RepliesTo, hid, hcall, hslot, Option.some_inj, hecho]
  refine and_congr_right fun _ => ⟨?_, fun hcarried => ⟨slot, rfl, hcarried⟩⟩
  rintro ⟨other, hother, hcarried⟩
  obtain rfl : slot = other := Int.ofNat_inj.mp (Json.int.inj (Option.some.inj hother))
  exact hcarried

/-- How the replies `due` may be sent among other responses: in any order, and no other response is
mistaken for a reply to come, be it that it has no identifier, or one that was not asked for, or
that of a reply sent before. -/
inductive Mixed : List Response → List Response → Prop
  | done : Mixed [] []
  | reply {due rest sent : List Response} {response : Response} (h : due.Perm (response :: rest))
    (hsent : Mixed rest sent) : Mixed due (response :: sent)
  | other {due sent : List Response} {response : Response}
    (h : ∀ reply ∈ due, reply.id ≠ response.id) (hsent : Mixed due sent) :
    Mixed due (response :: sent)

/-- Each reply is the first response with its identifier. -/
theorem Mixed.find?_eq {due sent : List Response} (h : Mixed due sent)
    (hids : (due.map (·.id)).Nodup) {reply : Response} (hreply : reply ∈ due) :
    sent.find? (·.id == reply.id) = some reply := by
  induction h with
  | done => exact absurd hreply List.not_mem_nil
  | @reply due rest sent response hperm hsent ih =>
    have hids' := List.nodup_cons.mp ((hperm.map (·.id)).nodup_iff.mp hids)
    rcases List.mem_cons.mp (hperm.mem_iff.mp hreply) with rfl | hrest
    · exact List.find?_cons_of_pos (beq_self_eq_true reply.id)
    · -- another reply is sent first, and the search goes past it
      have hne : response.id ≠ reply.id := by
        intro heq
        exact hids'.1 (List.mem_map.mpr ⟨reply, hrest, heq.symm⟩)
      rw [List.find?_cons_of_neg (by simpa using hne)]
      exact ih hids'.2 hrest
  | other hother hsent ih =>
    rw [List.find?_cons_of_neg (by simpa using (hother reply hreply).symm)]
    exact ih hids hreply

end Response

/-! ### The loop -/

namespace Envelope

variable {slots : List Nat} {options : CallOptions} {answer : Nat → Answer}
  {replies sent : List Response}

/-- The replies to the calls of a batch have the identifiers made from its slots, in turn, and say
what there is to say about these slots. -/
theorem forall₂_replies
    (h : List.Forall₂ (Response.RepliesTo answer)
      (slots.map fun slot => (Request.mk (.ofSlot slot) slot options).toJson) replies) :
    replies.map (·.id) = slots.map (fun slot => some (RequestId.ofSlot slot)) ∧
      ∀ slot ∈ slots, ∃ reply ∈ replies, reply.id = some (.ofSlot slot) ∧
        (answer slot).CarriedBy reply := by
  induction slots generalizing replies with
  | nil =>
    obtain rfl := List.forall₂_nil_left_iff.mp h
    exact ⟨rfl, fun slot hslot => absurd hslot List.not_mem_nil⟩
  | cons slot rest ih =>
    obtain ⟨reply, others, hreply, hothers, rfl⟩ := List.forall₂_cons_left_iff.mp h
    obtain ⟨hid, hcarried⟩ := Response.repliesTo_iff.mp hreply
    obtain ⟨hids, hfound⟩ := ih hothers
    refine ⟨by rw [List.map_cons, List.map_cons, hid, hids], fun other hother => ?_⟩
    rcases List.mem_cons.mp hother with rfl | hrest
    · exact ⟨reply, List.mem_cons_self, hid, hcarried⟩
    · obtain ⟨found, hmem, hanswers⟩ := hfound other hrest
      exact ⟨found, List.mem_cons_of_mem _ hmem, hanswers⟩

/-- What arrives says about each slot what there is to say. -/
theorem answerTo_received (hnodup : slots.Nodup)
    (hreplies : List.Forall₂ (Response.RepliesTo answer)
      (slots.map fun slot => (Request.mk (.ofSlot slot) slot options).toJson) replies)
    (hsent : Response.Mixed replies sent) {slot : Nat} (hslot : slot ∈ slots) :
    answerTo (sent.map Response.received) slot = (answer slot).outcome := by
  obtain ⟨hids, hfound⟩ := forall₂_replies hreplies
  obtain ⟨reply, hreply, hid, hcarried⟩ := hfound slot hslot
  -- Different slots have different ids, so the first response with this id is the reply.
  have hdistinct : (replies.map (·.id)).Nodup := by
    rw [hids]
    exact hnodup.map fun _ _ heq => RequestId.ofSlot_injective (Option.some.inj heq)
  have hfirst : sent.find? (·.id == some (.ofSlot slot)) = some reply :=
    hid ▸ hsent.find?_eq hdistinct hreply
  have hreceived : (sent.map Response.received).find? (·.id == some (.ofSlot slot)) =
      some reply.received := by
    rw [List.find?_map]
    exact congrArg (Option.map Response.received) hfirst
  rw [answerTo, hreceived]
  exact Answer.outcome_received hcarried

/-- **Every slot of a batch gets its answer.**  The text of the calls can be read.  Take one reply
to each of the calls, and send the replies in any order among any other responses that nobody
mistakes for a reply to come.  Then what is sent can be read, each slot is found with what there was
to say about it, and no other slot is found. -/
theorem every_slot_answered (hnodup : slots.Nodup) (hslots : ∀ slot ∈ slots, slot ≤ Word.max)
    (options : CallOptions) (answer : Nat → Answer) :
    ∃ calls, Json.read (Glyph.ofBytes (Request.encode slots options).toUTF8.data.toList) =
        .ok (.arr calls) ∧
      ∀ replies sent, List.Forall₂ (Response.RepliesTo answer) calls replies →
        Response.Mixed replies sent → (∀ response ∈ sent, response.Sendable) →
        ∃ responses,
          decode (Glyph.ofBytes
            (Json.arr (sent.map Response.toJson)).render.toUTF8.data.toList) = .ok responses ∧
          (∀ slot ∈ slots,
            (matchSlots slots responses).lookup slot = some (answer slot).outcome) ∧
          ((matchSlots slots responses).map (·.1)).Perm slots := by
  refine ⟨_, Request.read_encode hslots options, fun replies sent hreplies hsent hsendable => ?_⟩
  refine ⟨sent.map Response.received, ?_, fun slot hslot => ?_, keys_matchSlots hnodup _⟩
  · rw [Glyph.ofBytes_toUTF8]
    exact decode_render hsendable
  · rw [lookup_matchSlots hnodup hslot, answerTo_received hnodup hreplies hsent hslot]

/-- Three slots, one with a block, one with an error and one with nothing.  The replies are sent in
another order, after a response without an identifier, around one that nobody asked for, and before
one that contradicts a reply already given. -/
theorem every_slot_answered_among_others :
    let options := BlockOptions.full ⟨true⟩
    let block : Json := .obj [("transactions", .arr [.null])]
    let answer : Nat → Answer := fun slot =>
      if slot = 5 then .block block (by decide) (by decide)
      else if slot = 7 then .error (-32007) "skipped" else .nothing
    let five := Response.success (.ofSlot 5) block
    let seven := Response.failure (.ofSlot 7) (-32007) "skipped"
    let nine := Response.noBlock (.ofSlot 9)
    let sent := [⟨none, none, some (.int 3), none⟩, nine, seven, .success (.number 5) block, five,
      .success (.ofSlot 7) block]
    [5, 7, 9].Nodup ∧ (∀ slot ∈ [5, 7, 9], slot ≤ Word.max) ∧
      ∃ calls, Json.read (Glyph.ofBytes (Request.encode [5, 7, 9] options).toUTF8.data.toList) =
          .ok (.arr calls) ∧
        List.Forall₂ (Response.RepliesTo answer) calls [five, seven, nine] ∧
        Response.Mixed [five, seven, nine] sent ∧
        (∀ response ∈ sent, response.Sendable) ∧
        ∃ responses,
          decode (Glyph.ofBytes
            (Json.arr (sent.map Response.toJson)).render.toUTF8.data.toList) = .ok responses ∧
          (matchSlots [5, 7, 9] responses).lookup 5 = some (.fetched block) ∧
          (matchSlots [5, 7, 9] responses).lookup 7 =
            some (.failed (.providerError (-32007) "skipped")) ∧
          (matchSlots [5, 7, 9] responses).lookup 9 = some (.failed .notFound) ∧
          ((matchSlots [5, 7, 9] responses).map (·.1)).Perm [5, 7, 9] := by
  intro options block answer five seven nine sent
  have hnodup : [5, 7, 9].Nodup := by decide
  have hslots : ∀ slot ∈ [5, 7, 9], slot ≤ Word.max := by decide
  obtain ⟨calls, hread, hloop⟩ := @every_slot_answered [5, 7, 9] hnodup hslots options answer
  have hcalls : calls =
      [5, 7, 9].map fun slot => (Request.mk (.ofSlot slot) slot options).toJson :=
    Json.arr.inj (Except.ok.inj (hread.symm.trans (Request.read_encode hslots _)))
  have hreplies : List.Forall₂ (Response.RepliesTo answer) calls [five, seven, nine] := by
    rw [hcalls]
    refine .cons ?_ (.cons ?_ (.cons ?_ .nil)) <;> rw [Response.repliesTo_iff]
    · exact ⟨rfl, rfl, rfl⟩
    · exact ⟨rfl, none, rfl⟩
    · exact ⟨rfl, rfl, rfl⟩
  have hnine : [five, seven, nine].Perm (nine :: [five, seven]) := by decide
  have hseven : [five, seven].Perm (seven :: [five]) := by decide
  -- The replies come in another order, among responses with other ids and a second one for slot 7.
  have hmixed : Response.Mixed [five, seven, nine] sent :=
    .other (by decide) <| .reply hnine <| .reply hseven <| .other (by decide) <|
      .reply (.refl _) <| .other (by decide) .done
  have hsendable : ∀ response ∈ sent, response.Sendable := by decide
  obtain ⟨responses, hdecode, hfound, hkeys⟩ := hloop _ sent hreplies hmixed hsendable
  exact ⟨hnodup, hslots, calls, hread, hreplies, hmixed, hsendable, responses, hdecode,
    hfound 5 (by decide), hfound 7 (by decide), hfound 9 (by decide), hkeys⟩

end Envelope

end Backfill
