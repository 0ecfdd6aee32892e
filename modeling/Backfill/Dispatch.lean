import Backfill.Json.Printer
import Backfill.Json.Record

/-!
# Handing blocks on

Fetched blocks are posted to parsers on a range of ports, one after the other in turn.

## Main definitions

* `DispatchRecord` — a block with its slot, as it is posted; `DispatchRecord.read` reads it
  back.
* `DispatchError` — why blocks could not be handed on.
* `Endpoints.ofPorts` — the addresses of the parsers.
* `Rotation` — whose turn it is; `Rotation.next?` takes one turn.
-/

namespace Backfill

/-- A block with the digits of its slot. -/
structure DispatchRecord where
  blockNum : String
  blockData : Json
deriving DecidableEq, Repr, Inhabited

namespace DispatchRecord

/-- The record of a block. -/
def ofBlock (slot : Nat) (block : Json) : DispatchRecord :=
  ⟨String.ofList (Nat.toDigits 10 slot), block⟩

/-- The record as a value. -/
def toJson (record : DispatchRecord) : Json :=
  .obj [("blockNum", .str record.blockNum), ("blockData", record.blockData)]

/-- The text that a list of records is posted as. -/
def body (records : List DispatchRecord) : String := (Json.arr (records.map toJson)).render

open Json

/-- The fields of a record. -/
def schema (depth : Nat) : Schema [String, Json] :=
  .field "blockNum" true Json.text <|
    .field "blockData" true (via depth fun value => some value.canonical) .done

/-- The record, if neither field is missing. -/
def ofGathered? : Gathered [String, Json] → Option DispatchRecord
  | (some blockNum, some blockData, ()) => some ⟨blockNum, blockData⟩
  | _ => none

/-- Reads a record. -/
def read : Nat → List Glyph → Read DispatchRecord := Schema.read schema ofGathered?

/-- The record in a text that holds nothing else. -/
def parse (text : List Glyph) : Except Fault DispatchRecord := whole (read nesting) text

end DispatchRecord

/-- Why blocks could not be handed on. -/
inductive DispatchError
  | noEndpoints
  | request (endpoint message : String)
  | status (endpoint : String) (status : Nat)
deriving DecidableEq, Repr, Inhabited

/-- The error as it is told to the user. -/
def DispatchError.message : DispatchError → String
  | .noEndpoints => "no downstream endpoints configured"
  | .request endpoint message => s!"request to {endpoint} failed: {message}"
  | .status endpoint code => s!"{endpoint} answered HTTP {code}"

namespace Endpoints

/-- The addresses of the parsers on `count` ports from `start` on, as far as there are ports. -/
def ofPorts (host : String) (start count : Nat) (path : String) : List String :=
  (List.range' start (min count (Word.max16 + 1 - start))).map fun port =>
    s!"http://{host}:{port}{path}"

end Endpoints

/-- Whose turn it is among the parsers. -/
structure Rotation where
  endpoints : List String
  turn : Nat
deriving DecidableEq, Repr, Inhabited

namespace Rotation

/-- The first parser is first. -/
def ofEndpoints (endpoints : List String) : Rotation := ⟨endpoints, 0⟩

/-- The parser whose turn it is, and the rotation with the turn of the next one. -/
def next? (rotation : Rotation) : Option (String × Rotation) :=
  (rotation.endpoints[rotation.turn]?).map fun endpoint =>
    (endpoint, ⟨rotation.endpoints, (rotation.turn + 1) % rotation.endpoints.length⟩)

/-- The parsers of the next `turns` turns. -/
def turns : Nat → Rotation → List (Option String)
  | 0, _ => []
  | n + 1, rotation =>
    match rotation.next? with
    | some (endpoint, rotation) => some endpoint :: turns n rotation
    | none => none :: turns n rotation

end Rotation

end Backfill
