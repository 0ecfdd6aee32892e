import Backfill.Dispatch
import Backfill.Pool
import Backfill.Rpc.Envelope
import Backfill.Text.Basic

/-!
# Scripted providers

A run can be tried out against a provider that acts by a script.  The script says for each
batch, known by its first slot, how the provider acts on its first request, on its second and
so on, and what it has to say about each slot.

## Main definitions

* `SlotAnswer` — what the provider has to say about a slot.
* `Act` — how it acts on a request.
* `Script` — all of it; `Script.act` looks an act up.
* `Sink` — who the blocks are handed on to.
* `AttemptScript` — what comes of an attempt of any operation.
* `Reaction` — what comes of an act; `Script.react` tells.
-/

namespace Backfill

/-- What a scripted provider has to say about a slot. -/
inductive SlotAnswer
  /-- There is no block. -/
  | noBlock
  /-- Nothing: the answer to the batch leaves the slot out. -/
  | missing
  | error (code : Int) (message : String)
  | block (block : Json)
deriving DecidableEq, Repr

/-- How a scripted provider acts on a request. -/
inductive Act
  /-- It answers every slot. -/
  | answer
  /-- Blocks for exactly these slots come in. -/
  | only (slots : List Nat)
  /-- It answers with a response status. -/
  | status (status : Nat)
  | fail (error : TransportError)
  /-- It answers with this text. -/
  | body (text : String)
  /-- The token fires, then every slot is answered. -/
  | cancelAndAnswer
  /-- The token fires, then the request fails. -/
  | cancelAndFail
  /-- The token fires, and there is never an answer. -/
  | cancelAndHang
  /-- There is never an answer. -/
  | hang
  /-- The worker breaks down. -/
  | breakDown
deriving DecidableEq, Repr

/-- How a provider acts. -/
structure Script where
  slots : List (Nat × SlotAnswer)
  /-- The acts on the requests for the batch with this first slot. -/
  batches : List (Nat × List Act)
  /-- The acts on the requests for any other batch. -/
  fallback : List Act
  /-- Time until the provider acts, in milliseconds. -/
  latency : Nat
deriving DecidableEq, Repr

/-- Who the blocks are handed on to: a delivery with one of the slots fails. -/
structure Sink where
  refused : List Nat
  error : DispatchError
deriving DecidableEq, Repr

/-- Whether records are accepted. -/
def Sink.accept (sink : Sink) (records : List DispatchRecord) : Except DispatchError Unit :=
  let refused := sink.refused.map Text.writeInteger
  if records.any fun record => refused.contains record.blockNum then .error sink.error else .ok ()

/-- What comes of one attempt of an operation. -/
structure AttemptScript (α : Type) where
  /-- Time until the attempt ends, in milliseconds. -/
  duration : Nat
  result : Except String α
  /-- Whether an error is final. -/
  fatal : Bool

/-- What comes of an act. -/
inductive Reaction
  /-- The request ends; the token may fire right before that. -/
  | finish (result : Except TransportError Outcomes) (fires : Bool)
  /-- The request goes on for ever; the token may fire. -/
  | hang (fires : Bool)
  | breakDown

/-- The first slot of a batch, by which a script knows it; an empty batch counts as slot
zero. -/
def Batch.key (batch : Batch) : Nat := batch.slots.head?.getD 0

namespace Script

/-- The act on a request, counted from one: the last act of a list is repeated, and without
any act every slot is answered. -/
def act (script : Script) (key call : Nat) : Act :=
  let acts := (script.batches.lookup key).getD script.fallback
  (acts[call - 1]?.or acts.getLast?).getD .answer

/-- The block of a slot that the script says nothing about. -/
def plainBlock (slot : Nat) : Json :=
  let account := Json.str s!"acct-{slot % 3}"
  let message := Json.obj [("accountKeys", .arr [account])]
  let transaction := Json.obj [("transaction", .obj [("message", message)])]
  .obj [("blockhash", .str s!"hash-{slot}"), ("transactions", .arr [transaction])]

/-- The response for a slot, if there is one. -/
def response? (script : Script) (slot : Nat) : Option Response :=
  match script.slots.lookup slot with
  | none => some (.success (.ofSlot slot) (plainBlock slot))
  | some .noBlock => some (.noBlock (.ofSlot slot))
  | some .missing => none
  | some (.error code message) => some (.failure (.ofSlot slot) code message)
  | some (.block block) => some (.success (.ofSlot slot) block)

/-- The text that answers every slot of a batch, the last slot first. -/
def answerText (script : Script) (slots : List Nat) : String :=
  (Json.arr ((slots.reverse.filterMap script.response?).map Response.toJson)).render

/-- What a text says as the answer to a batch. -/
def readAnswer (slots : List Nat) (text : String) : Except TransportError Outcomes :=
  match Envelope.decode (Glyph.ofString text) with
  | .ok responses => .ok (Envelope.matchSlots slots responses)
  | .error error => .error error.toTransport

/-- Blocks for exactly these slots. -/
def blocksOf (slots : List Nat) : Outcomes :=
  .ofList (slots.map fun slot => (slot, .fetched (plainBlock slot)))

/-- What comes of an act on the request for a batch. -/
def react (script : Script) (slots : List Nat) : Act → Reaction
  | .answer => .finish (readAnswer slots (script.answerText slots)) false
  | .only answered => .finish (.ok (blocksOf answered)) false
  | .status status => .finish (.error (.ofStatus status)) false
  | .fail error => .finish (.error error) false
  | .body text => .finish (readAnswer slots text) false
  | .cancelAndAnswer => .finish (readAnswer slots (script.answerText slots)) true
  | .cancelAndFail => .finish (.error (.ofStatus 500)) true
  | .cancelAndHang => .hang true
  | .hang => .hang false
  | .breakDown => .breakDown

end Script

end Backfill
