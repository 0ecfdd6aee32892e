import Backfill.Json.Record
import Backfill.Rpc.Response

/-!
# Reading a response from its text

A response that is not part of a batch is read straight from its text, and the error that it may
carry with it.

## Main definitions

* `Json.signed` — reads an error code.
* `RpcError.schema`, `Response.schema` — the fields of the two records.
* `RpcError.read`, `Response.read` — readers of the two records.
* `Response.parse` — the response in a text that holds nothing else.
-/

namespace Backfill

open Json

/-- Reads an integer that fits in 64 bits with a sign. -/
def Json.signed (text : List Glyph) : Read Int :=
  match skipBlank text with
  | [] => .error (.facing .endInValue [])
  | glyph :: rest =>
    if glyph = some '-' ∨ (digitValue? glyph).isSome then
      match scalar glyph rest with
      | .error fault => .error fault
      | .ok (.int n, rest) =>
        if fitsSigned n then .ok (n, rest) else .error (.behind .wrongShape 0 rest)
      | .ok (_, rest) => .error (.behind .wrongShape 0 rest)
    else .error (wrongShape (glyph :: rest))

namespace RpcError

/-- The fields of an error. -/
def schema (depth : Nat) : Schema [Int, String, Option Json] :=
  .field "code" true signed <| .field "message" true Json.text <|
    .field "data" false (optional (via depth fun value => some value.canonical)) .done

/-- The error, if no field that it needs is missing. -/
def ofGathered? : Gathered [Int, String, Option Json] → Option RpcError
  | (some code, some message, data, ()) => some ⟨code, message, data.join⟩
  | _ => none

/-- Reads an error. -/
def read : Nat → List Glyph → Read RpcError := Schema.read schema ofGathered?

end RpcError

namespace Response

/-- The fields of a response. -/
def schema (depth : Nat) :
    Schema [Option String, Option RequestId, Option Json, Option RpcError] :=
  .field "jsonrpc" false (optional Json.text) <|
    .field "id" false (optional (via depth RequestId.ofJson?)) <|
    .field "result" false (optional (via depth fun value => some value.canonical)) <|
    .field "error" false (optional (RpcError.read depth)) .done

/-- The response; what has not been read is absent. -/
def ofGathered : Gathered [Option String, Option RequestId, Option Json, Option RpcError] → Response
  | (jsonrpc, id, result, error, ()) => ⟨jsonrpc.join, id.join, result.join, error.join⟩

/-- Reads a response. -/
def read : Nat → List Glyph → Read Response :=
  Schema.read schema fun gathered => some (ofGathered gathered)

/-- The response in a text that holds nothing else. -/
def parse (text : List Glyph) : Except Fault Response := whole (read nesting) text

end Response

end Backfill
