import Backfill.Dispatch
import Backfill.Rpc.Envelope
import Backfill.Rpc.ResponseReader
import Backfill.Settings

/-!
# Exchanges over HTTP

A request is posted and a reply comes back, or something fails on the way.  What a reply
means does not depend on how it was obtained, so it is said here for any reply.

## Main definitions

* `HttpRequest` — what is posted; `HttpRequest.batch`, `HttpRequest.block` and
  `HttpRequest.records` are the three kinds of requests.
* `HttpFault`, `HttpReply` — what comes back.
* `Exchange.batch` — what a reply means for a batch.
* `Exchange.block` — what it means for a single block.
* `Exchange.records` — what it means for blocks that are handed on.
* `Rotation.ofDispatch` — the parsers that settings name.
-/

namespace Backfill

/-- What is posted. -/
structure HttpRequest where
  url : String
  body : String
  /-- Time limit, in milliseconds. -/
  timeout : Nat
deriving DecidableEq, Repr

namespace HttpRequest

/-- The type of every body. -/
def contentType : String := "application/json"

/-- The request for a batch. -/
def batch (settings : Settings) (slots : List Nat) : HttpRequest :=
  ⟨settings.url, Request.encodeBatch slots ⟨settings.includeRewards⟩, settings.batchTimeout⟩

/-- The request for a single block. -/
def block (settings : Settings) (slot : Nat) : HttpRequest :=
  ⟨settings.url, Request.encodeSingle .single slot ⟨settings.includeRewards⟩,
    settings.requestTimeout⟩

/-- The request that hands blocks on. -/
def records (endpoint : String) (timeout : Nat) (records : List DispatchRecord) : HttpRequest :=
  ⟨endpoint, DispatchRecord.body records, timeout⟩

end HttpRequest

/-- The parsers that settings name; the first one is first. -/
def Rotation.ofDispatch (dispatch : DispatchSettings) : Rotation :=
  .ofEndpoints
    (Endpoints.ofPorts dispatch.host dispatch.portStart dispatch.portCount dispatch.path)

/-- What fails on the way. -/
inductive HttpFault
  | timeout
  | connect
  /-- The body of the reply is cut off or damaged. -/
  | body
  | other
deriving DecidableEq, Repr, Inhabited

/-- What comes back. -/
inductive HttpReply
  /-- A status, and a body unless that cannot be read. -/
  | answer (status : Nat) (body : Except (HttpFault × String) (List Glyph))
  | fault (fault : HttpFault) (detail : String)
deriving Repr, Inhabited

/-- A fault as a failure of the request. -/
def HttpFault.toTransport (detail : String) : HttpFault → TransportError
  | .timeout => .withoutStatus .timeout ("RPC request timed out: " ++ detail)
  | .connect => .withoutStatus .connect ("failed to connect to RPC provider: " ++ detail)
  | .body => .withoutStatus .envelope ("failed to read RPC response body: " ++ detail)
  | .other => .withoutStatus .request ("RPC request failed: " ++ detail)

/-- Why a single block could not be fetched. -/
inductive BlockError
  | transport (error : TransportError)
  /-- The provider answered with an error. -/
  | provider (code : Int) (message : String)
deriving DecidableEq, Repr

/-- The error as it is told to the user. -/
def BlockError.message : BlockError → String
  | .transport error => error.message
  | .provider code message => (FailureReason.providerError code message).display

namespace Exchange

/-- The body of a reply that tells of success. -/
def body : HttpReply → Except TransportError (List Glyph)
  | .fault fault detail => .error (fault.toTransport detail)
  | .answer status body =>
    if TransportError.isSuccess status = false then .error (.ofStatus status)
    else body.mapError fun fault => fault.1.toTransport fault.2

/-- What a reply means for the slots of a batch. -/
def batch (slots : List Nat) (reply : HttpReply) : Except TransportError Outcomes :=
  match body reply with
  | .error error => .error error
  | .ok text =>
    match Envelope.decode text with
    | .ok responses => .ok (Envelope.matchSlots slots responses)
    | .error error => .error error.toTransport

/-- Told of a text that is no response. -/
def unreadable (slot : Nat) (text : List Glyph) (fault : Json.Fault) : TransportError :=
  .withoutStatus .envelope (s!"invalid getBlock response for slot {slot}: " ++ fault.message text)

/-- The block that a response holds, if there is one. -/
def blockOf (response : Response) : Except BlockError (Option Json) :=
  match response.outcome with
  | .fetched block => .ok (some block)
  | .failed (.providerError code message) => .error (.provider code message)
  | .failed _ => .ok none

/-- What a reply means for a single block. -/
def block (slot : Nat) (reply : HttpReply) : Except BlockError (Option Json) :=
  match body reply with
  | .error error => .error (.transport error)
  | .ok text =>
    match Response.parse text with
    | .ok response => blockOf response
    | .error fault => .error (.transport (unreadable slot text fault))

/-- What a reply means for blocks that are handed on to a parser. -/
def records (endpoint : String) : HttpReply → Except DispatchError Unit
  | .fault _ detail => .error (.request endpoint detail)
  | .answer status _ =>
    if TransportError.isSuccess status then .ok () else .error (.status endpoint status)

end Exchange

end Backfill
