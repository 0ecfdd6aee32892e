import Backfill.Transport
import Backfill.Json.Reader
import Backfill.Rpc.Response

/-!
# Answers to a batch

The answer to a batch is an array of responses.  It is read as one value first and taken
apart then, so one element that is no response spoils the whole answer.  A provider that
rejects a batch answers with a single response instead.

The responses are matched with the slots of the batch by their identifiers alone; their
order does not matter, and a response that nobody asked for is dropped.

## Main definitions

* `EnvelopeError` — why a text is no answer to a batch.
* `Envelope.decode` — the responses in the answer to a batch.
* `Envelope.matchSlots` — the outcome of every slot of a batch.
-/

namespace Backfill

/-- Why a text is no answer to a batch. -/
inductive EnvelopeError
  | unreadable (flaw : Json.Flaw) (place : Json.Place)
  /-- The text is a value that holds no response. -/
  | noResponse
  | singleResponse (response : Response)
deriving DecidableEq, Repr

namespace EnvelopeError

/-- What a fault of the text makes of the answer. -/
def ofFault (text : List Glyph) (fault : Json.Fault) : EnvelopeError :=
  .unreadable fault.flaw (fault.place text)

/-- The error as it is told to the user. -/
def message : EnvelopeError → String
  | .unreadable flaw place => "invalid JSON-RPC envelope: " ++ flaw.messageAt place
  | .noResponse => "invalid JSON-RPC envelope: neither a list of responses nor a response"
  | .singleResponse response =>
    "expected a batch response array, got a single response" ++
      match response.error with
      | some error => s!" (code={error.code}, message={error.message})"
      | none => ""

/-- The error as a failure of the whole request. -/
def toTransport (error : EnvelopeError) : TransportError :=
  .withoutStatus .envelope error.message

end EnvelopeError

namespace Envelope

/-- The responses that a value holds, if it is an array of responses. -/
def responses? : Json → Option (List Response)
  | .arr items => items.mapM Response.ofJson?
  | _ => none

/-- What a value says as the answer to a batch: responses are looked for first, then a
single response. -/
def ofJson (value : Json) : Except EnvelopeError (List Response) :=
  match responses? value with
  | some responses => .ok responses
  | none =>
    match Response.ofJson? value with
    | some response => .error (.singleResponse response)
    | none => .error .noResponse

/-- The responses in the answer to a batch.  That a value holds no response is noticed before
anything that follows it. -/
def decode (text : List Glyph) : Except EnvelopeError (List Response) :=
  match Json.value Json.nesting text with
  | .error fault => .error (.ofFault text fault)
  | .ok (value, rest) =>
    match ofJson value, Json.onlyBlank rest with
    | .error .noResponse, _ => .error .noResponse
    | _, .error fault => .error (.ofFault text fault)
    | answer, .ok () => answer

/-- Takes the first response with this identifier out of a list, and with it all others that
have the same identifier. -/
def takeFirst (id : RequestId) (responses : List Response) : Option Response × List Response :=
  (responses.find? (·.id == some id), responses.filter (·.id != some id))

/-- The outcome of each slot in turn: a response answers the first slot that asks for it. -/
def outcomesOf : List Nat → List Response → List (Nat × Outcome)
  | [], _ => []
  | slot :: rest, responses =>
    let (found, left) := takeFirst (.ofSlot slot) responses
    let outcome := match found with
      | some response => response.outcome
      | none => .failed .noResponse
    (slot, outcome) :: outcomesOf rest left

/-- The outcome of every slot of a batch. -/
def matchSlots (slots : List Nat) (responses : List Response) : Outcomes :=
  .ofList (outcomesOf slots responses)

end Envelope

end Backfill
