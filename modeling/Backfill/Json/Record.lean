import Backfill.Json.Skim

/-!
# Reading a record from its text

What a record should be is known before it is read, so a field of the wrong shape is noticed before
the rest of the text is looked at, and unknown fields are only read past.  A record is written as an
object with named fields, or as an array of the same fields in a fixed order.

## Main definitions

* `Json.wrongShape` — the fault of a value that is not of the shape expected.
* `Json.optional`, `Json.text`, `Json.via` — readers of single fields.
* `Json.nextItem`, `Json.oneField` — a field that is read by position, or by name.
* `Json.Schema` — the fields of a record; `Json.Schema.read` reads the record in either form.
-/

namespace Backfill

namespace Json

/-- The fault of a value that is not of the shape expected: a value that can be told at its
first glyph is of the wrong shape; any other is read first. -/
def wrongShape (text : List Glyph) : Fault :=
  match text with
  | [] => .facing .endInValue []
  | glyph :: rest =>
    if glyph = some '[' ∨ glyph = some '\x7b' then .behind .wrongShape 0 text
    else match scalar glyph rest with
      | .error fault => fault
      | .ok (_, rest) => .behind .wrongShape 0 rest

/-- Reads what `one` reads, or nothing for `null`. -/
def optional {α : Type} (one : List Glyph → Read α) (text : List Glyph) : Read (Option α) :=
  match skipBlank text with
  | [] => (one []).map fun (found, rest) => (some found, rest)
  | glyph :: rest =>
    if glyph = some 'n' then (word ['u', 'l', 'l'] rest).map fun ((), rest) => (none, rest)
    else (one (glyph :: rest)).map fun (found, rest) => (some found, rest)

/-- Reads a string. -/
def text (text : List Glyph) : Read String :=
  match skipBlank text with
  | [] => .error (.facing .endInValue [])
  | glyph :: rest =>
    if glyph = some '"' then stringValue rest else .error (wrongShape (glyph :: rest))

/-- Reads a value and takes from it what `one` finds in it. -/
def via {α : Type} (depth : Nat) (one : Json → Option α) (text : List Glyph) : Read α :=
  match value depth text with
  | .error fault => .error fault
  | .ok (found, rest) =>
    match one found with
    | some result => .ok (result, rest)
    | none => .error (.behind .wrongShape 0 rest)

/-! ### Records -/

/-- Reads a field of a record that is written as an array: `none` behind the last item. -/
def nextItem {α : Type} (isFirst : Bool) (one : List Glyph → Read α) (text : List Glyph) :
    Read (Option α) :=
  match skipBlank text with
  | [] => .error (.facing .endInList [])
  | glyph :: rest =>
    if glyph = some ']' then .ok (none, glyph :: rest)
    else if isFirst then (one (glyph :: rest)).map fun (found, rest) => (some found, rest)
    else if glyph = some ',' then
      match skipBlank rest with
      | [] => .error (.facing .endInValue [])
      | next :: rest =>
        if next = some ']' then .error (.facing .trailingComma (next :: rest))
        else (one (next :: rest)).map fun (found, rest) => (some found, rest)
    else .error (.facing .itemEndExpected (glyph :: rest))

/-- Reads a field that a record written as an array cannot do without. -/
def dueItem {α : Type} (isFirst : Bool) (one : List Glyph → Read α) (text : List Glyph) :
    Read α :=
  match nextItem isFirst one text with
  | .error fault => .error fault
  | .ok (none, rest) => .error (.behind .wrongShape 0 rest)
  | .ok (some found, rest) => .ok (found, rest)

/-- Reads the end of a record that is written as an array.  A comma behind the last item is read
before the bracket is missed. -/
def endItems (text : List Glyph) : Read Unit :=
  match skipBlank text with
  | [] => .error (.facing .endInList [])
  | glyph :: rest =>
    if glyph = some ']' then .ok ((), rest)
    else if glyph = some ',' then
      let behind := skipBlank rest
      let flaw := if behind.head? = some (some ']') then Flaw.trailingComma else .trailingText
      .error (.facing flaw behind)
    else .error (.facing .trailingText (glyph :: rest))

/-- Reads a field of a record that is written as an object, given what has been read for that
name before: a name must not come twice. -/
def oneField {α σ : Type} (known : Option α) (one : List Glyph → Read α) (set : α → σ) :
    Except Flaw (List Glyph → Read σ) :=
  match known with
  | some _ => .error .wrongShape
  | none => .ok fun text => (afterColon one text).map fun (found, rest) => (set found, rest)

/-- Reads past a field that nobody asked for. -/
def otherField {σ : Type} (gathered : σ) : Except Flaw (List Glyph → Read σ) :=
  .ok fun text => (afterColon skip text).map fun ((), rest) => (gathered, rest)

/-- Nothing can be read inside a record that is nested too deeply. -/
def tooDeep {α : Type} (text : List Glyph) : Read α := .error (.behind .tooDeep 0 text)

/-- Reads a record: `items` from behind the bracket of an array, `fields` from behind the
brace of an object. -/
def record {α : Type} (items fields : List Glyph → Read α) (text : List Glyph) : Read α :=
  match skipBlank text with
  | [] => .error (.facing .endInValue [])
  | glyph :: rest =>
    if glyph = some '[' then items rest
    else if glyph = some '\x7b' then fields rest
    else .error (wrongShape (glyph :: rest))

/-! ### Schemas -/

/-- The values of fields with these types, in order; one that has not been read is `none`. -/
@[reducible] def Gathered : List Type → Type
  | [] => Unit
  | α :: types => Option α × Gathered types

/-- The fields of a record, in order: the name of each, whether the record cannot do without it, and
how its value is read. -/
inductive Schema : List Type → Type 1
  | done : Schema []
  | field {α : Type} {types : List Type} (name : String) (isDue : Bool)
    (one : List Glyph → Read α) (others : Schema types) : Schema (α :: types)

namespace Schema

/-- Nothing has been read. -/
def start : {types : List Type} → Schema types → Gathered types
  | _, .done => ()
  | _, .field _ _ _ others => (none, others.start)

/-- Reads one field by position. -/
def readItem {α : Type} (isDue isFirst : Bool) (one : List Glyph → Read α) (text : List Glyph) :
    Read (Option α) :=
  if isDue then (dueItem isFirst one text).map fun (found, rest) => (some found, rest)
  else nextItem isFirst one text

/-- Reads the fields by position. -/
def readItems : {types : List Type} → Schema types → Bool → List Glyph →
    Except Fault (Gathered types × List Glyph)
  | _, .done, _, text => endItems text
  | _, .field _ isDue one others, isFirst, text => do
    let (found, text) ← readItem isDue isFirst one text
    let (gathered, text) ← others.readItems false text
    return ((found, gathered), text)

/-- Reads one field by name. -/
def readField : {types : List Type} → Schema types → String → Gathered types →
    Except Flaw (List Glyph → Read (Gathered types))
  | _, .done, _, _ => otherField ()
  | _, .field key _ one others, name, (known, gathered) =>
    if name = key then oneField known one fun found => (some found, gathered)
    else (others.readField name gathered).map fun read text =>
      (read text).map fun (gathered, rest) => ((known, gathered), rest)

/-- Reads fields with `all`, and takes what they make up. -/
def making {α : Type} {types : List Type} (finish? : Gathered types → Option α)
    (all : List Glyph → Read (Gathered types)) (text : List Glyph) : Read α :=
  match all text with
  | .error fault => .error fault
  | .ok (found, rest) =>
    match finish? found with
    | some result => .ok (result, rest)
    | none => .error (.behind .wrongShape 0 rest)

/-- Reads a record whose fields may be nested so many levels; the record itself takes one more. -/
def read {α : Type} {types : List Type} (schema : Nat → Schema types)
    (finish? : Gathered types → Option α) : Nat → List Glyph → Read α
  | 0, text => record tooDeep tooDeep text
  | depth + 1, text =>
    record (making finish? ((schema depth).readItems true))
      (making finish? (object (schema depth).readField (schema depth).start)) text

end Schema

end Json

end Backfill
