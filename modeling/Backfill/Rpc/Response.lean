import Backfill.Failure
import Backfill.Rpc.Request

/-!
# Responses of the provider

A response answers one call.  It is written as an object with named fields, or as an array
of the same fields in a fixed order; fields may be absent, and in an object there may be
others.

## Main definitions

* `RpcError`, `Response` — a response and the error it may carry.
* `Response.ofJson?` — the response that a value holds, if it has the shape of one.
* `Response.toJson` — how a response is written.
* `Response.outcome` — the result of the call that the response answers.
-/

namespace Backfill

/-- The error that a response may carry. -/
structure RpcError where
  code : Int
  message : String
  data : Option Json
deriving DecidableEq, Repr, Inhabited

/-- An answer to one call.  A result that is `null` counts as none. -/
structure Response where
  jsonrpc : Option String
  id : Option RequestId
  result : Option Json
  error : Option RpcError
deriving DecidableEq, Repr, Inhabited

/-- Whether an integer fits in 64 bits with a sign. -/
def fitsSigned (n : Int) : Bool := -9223372036854775808 ≤ n && n ≤ 9223372036854775807

/-- Whether an integer fits in 64 bits without a sign. -/
def fitsUnsigned (n : Int) : Bool := 0 ≤ n && n ≤ 18446744073709551615

namespace Json

/-- What `one` makes of a value, or nothing if the value is `null`. -/
def optional? {α : Type} (one : Json → Option α) : Json → Option (Option α)
  | .null => some none
  | value => (one value).map some

/-- The value of the only field with this name: `some none` if there is no such field, and
`none` if there are several. -/
def only? (fields : List (String × Json)) (key : String) : Option (Option Json) :=
  match fields.filter (·.1 == key) with
  | [] => some none
  | [(_, value)] => some (some value)
  | _ => none

/-- A field that may be absent or `null`. -/
def field? {α : Type} (one : Json → Option α) : Option Json → Option (Option α)
  | none => some none
  | some value => optional? one value

end Json

namespace RequestId

/-- The identifier that a value holds. -/
def ofJson? : Json → Option RequestId
  | .int n => if fitsUnsigned n then some (.number n.toNat) else none
  | .str value => some (.text value)
  | _ => none

end RequestId

namespace RpcError

/-- An error code. -/
def code? : Json → Option Int
  | .int n => if fitsSigned n then some n else none
  | _ => none

/-- The error with these fields. -/
def ofFields? (code message data : Option Json) : Option RpcError := do
  let code ← code? (← code)
  let message ← (← message).string?
  let data ← Json.field? (fun value => some value.canonical) data
  return ⟨code, message, data⟩

/-- The error that a value holds. -/
def ofJson? : Json → Option RpcError
  | .obj fields => do
    ofFields? (← Json.only? fields "code") (← Json.only? fields "message")
      (← Json.only? fields "data")
  | .arr items =>
    if items.length ≤ 3 then ofFields? items[0]? items[1]? items[2]? else none
  | _ => none

/-- The error as a value. -/
def toJson (error : RpcError) : Json :=
  .obj ([("code", .int error.code), ("message", .str error.message)] ++
    (error.data.map fun data => ("data", data)).toList)

end RpcError

namespace Response

/-- The response with these fields. -/
def ofFields? (jsonrpc id result error : Option Json) : Option Response := do
  let jsonrpc ← Json.field? Json.string? jsonrpc
  let id ← Json.field? RequestId.ofJson? id
  let result ← Json.field? (fun value => some value.canonical) result
  let error ← Json.field? RpcError.ofJson? error
  return ⟨jsonrpc, id, result, error⟩

/-- The response that a value holds. -/
def ofJson? : Json → Option Response
  | .obj fields => do
    ofFields? (← Json.only? fields "jsonrpc") (← Json.only? fields "id")
      (← Json.only? fields "result") (← Json.only? fields "error")
  | .arr items =>
    if items.length ≤ 4 then ofFields? items[0]? items[1]? items[2]? items[3]? else none
  | _ => none

/-- The response as a value: its error is written only if it has one. -/
def toJson (response : Response) : Json :=
  .obj ([("jsonrpc", (response.jsonrpc.map Json.str).getD .null),
    ("id", (response.id.map RequestId.toJson).getD .null),
    ("result", response.result.getD .null)] ++
    (response.error.map fun error => ("error", error.toJson)).toList)

/-! ### Making responses -/

/-- The answer with a block. -/
def success (id : RequestId) (block : Json) : Response := ⟨some "2.0", some id, some block, none⟩

/-- The answer with an error. -/
def failure (id : RequestId) (code : Int) (message : String) : Response :=
  ⟨some "2.0", some id, none, some ⟨code, message, none⟩⟩

/-- The answer that there is no block. -/
def noBlock (id : RequestId) : Response := ⟨some "2.0", some id, none, none⟩

/-! ### The outcome of a call -/

/-- The result of the call: an error wins over a block, and no block means not found. -/
def outcome (response : Response) : Outcome :=
  match response.error, response.result with
  | some error, _ => .failed (.providerError error.code error.message)
  | none, some .null => .failed .notFound
  | none, some block => .fetched block
  | none, none => .failed .notFound

end Response

end Backfill
