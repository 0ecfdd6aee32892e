import Backfill.Json.Printer

/-!
# Requests to the provider

A block is asked for by a `getBlock` call.  The calls of a batch are sent together, each with
an identifier made from its slot, by which its answer is recognised.

## Main definitions

* `RequestId` — the identifier of a call: a number for a single call, a text in a batch.
* `RequestId.ofSlot` — the identifier of the call for one slot of a batch.
* `CallOptions` — the options of a call; `BlockOptions.full` are those of a call for a block.
* `Request` — one call; `Request.toJson` is how it is sent.
* `Request.encode` — the text of the calls of a batch; `Request.encodeBatch` is that for blocks.
-/

namespace Backfill

/-- The identifier of a call. -/
inductive RequestId
  | number (value : Nat)
  | text (value : String)
deriving DecidableEq, Repr, Inhabited

namespace RequestId

/-- The identifier of the call for one slot of a batch. -/
def ofSlot (slot : Nat) : RequestId := .text (String.ofList ("block-".toList ++ Nat.toDigits 10 slot))

/-- The identifier of a call that is sent alone. -/
def single : RequestId := .number 1

/-- The identifier as a value. -/
def toJson : RequestId → Json
  | .number value => .int value
  | .text value => .str value

end RequestId

/-- The options of a call. -/
structure CallOptions where
  encoding : String
  transactionDetails : String
  rewards : Bool
  maxSupportedTransactionVersion : UInt8
deriving DecidableEq, Repr, Inhabited

namespace CallOptions

/-- The options as a value. -/
def toJson (options : CallOptions) : Json :=
  .obj [("encoding", .str options.encoding),
    ("transactionDetails", .str options.transactionDetails), ("rewards", .bool options.rewards),
    ("maxSupportedTransactionVersion", .int options.maxSupportedTransactionVersion.toNat)]

end CallOptions

/-- What the provider is asked to put into a block. -/
structure BlockOptions where
  rewards : Bool
deriving DecidableEq, Repr, Inhabited

/-- The options of a call for a block: whole transactions as plain JSON, of the first version
only. -/
def BlockOptions.full (options : BlockOptions) : CallOptions := ⟨"json", "full", options.rewards, 0⟩

/-- One call for a block. -/
structure Request where
  id : RequestId
  slot : Nat
  options : CallOptions
deriving DecidableEq, Repr, Inhabited

namespace Request

/-- The call as a value. -/
def toJson (request : Request) : Json :=
  .obj [("jsonrpc", .str "2.0"), ("id", request.id.toJson), ("method", .str "getBlock"),
    ("params", .arr [.int request.slot, request.options.toJson])]

/-- The calls of a batch as a value. -/
def batch (slots : List Nat) (options : CallOptions) : Json :=
  .arr (slots.map fun slot => (Request.mk (.ofSlot slot) slot options).toJson)

/-- The text of the calls of a batch. -/
def encode (slots : List Nat) (options : CallOptions) : String := (batch slots options).render

/-- The text of the calls of a batch for blocks. -/
def encodeBatch (slots : List Nat) (options : BlockOptions) : String := encode slots options.full

/-- The text of a call that is sent alone. -/
def encodeSingle (id : RequestId) (slot : Nat) (options : BlockOptions) : String :=
  (Request.mk id slot options.full).toJson.render

end Request

end Backfill
