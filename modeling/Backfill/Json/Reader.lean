import Backfill.Json.Numeral
import Backfill.Json.StringReader

/-!
# Reading JSON

A value is read from the front of a text, with what follows it.  Arrays and objects may be
nested up to a limit.  The reader reports the first fault it meets, and tells a text that
ends too early from one that goes wrong.

## Main definitions

* `Json.nesting` — how many levels of arrays and objects are read.
* `Json.elements`, `Json.members` — the items of an array and the fields of an object, for
  any reader of one item or one field.
* `Json.value` — reads one value, nested up to a given depth.
* `Json.onlyBlank` — nothing but blanks may follow.
* `Json.read` — reads a text that holds one value.
-/

namespace Backfill

namespace Json

/-- How many levels of arrays and objects are read. -/
def nesting : Nat := 127

/-- Reads the items of an array from the first item on, with `one` for each item.  The
first list is as long as there can be items; the text itself is long enough. -/
def elements {α : Type} (one : List Glyph → Read α) :
    List Glyph → List α → List Glyph → Read (List α)
  | [], _, _ => .error (.facing .endInList [])
  | _ :: bound, items, text =>
    match one text with
    | .error fault => .error fault
    | .ok (item, text) =>
      match skipBlank text with
      | [] => .error (.facing .endInList [])
      | glyph :: rest =>
        if glyph = some ']' then .ok ((item :: items).reverse, rest)
        else if glyph = some ',' then
          match skipBlank rest with
          | [] => .error (.facing .endInValue [])
          | next :: rest =>
            if next = some ']' then .error (.facing .trailingComma (next :: rest))
            else elements one bound (item :: items) (next :: rest)
        else .error (.facing .itemEndExpected (glyph :: rest))

/-- Reads an array from behind its bracket, with `one` for each item. -/
def array {α : Type} (one : List Glyph → Read α) (text : List Glyph) : Read (List α) :=
  match skipBlank text with
  | [] => .error (.facing .endInList [])
  | glyph :: rest =>
    if glyph = some ']' then .ok ([], rest)
    else elements one (glyph :: rest) [] (glyph :: rest)

/-- Reads the colon behind the name of a field. -/
def colon (text : List Glyph) : Read Unit :=
  match skipBlank text with
  | [] => .error (.facing .endInObject [])
  | glyph :: rest =>
    if glyph = some ':' then .ok ((), rest) else .error (.facing .colonExpected (glyph :: rest))

/-- Reads the fields of an object from behind the opening quote of the first name on.  For
each name `field` says how the rest of the field, from the colon on, changes what has been
gathered, or refuses the name.  The first list is as long as there can be fields, as that of
`elements` is. -/
def members {σ : Type} (field : String → σ → Except Flaw (List Glyph → Read σ)) :
    List Glyph → σ → List Glyph → Read σ
  | [], _, _ => .error (.facing .endInObject [])
  | _ :: bound, gathered, text =>
    match stringValue text with
    | .error fault => .error fault
    | .ok (key, text) =>
      match field key gathered with
      | .error flaw => .error (.behind flaw 0 text)
      | .ok rest =>
        match rest text with
        | .error fault => .error fault
        | .ok (gathered, text) =>
          match skipBlank text with
          | [] => .error (.facing .endInObject [])
          | glyph :: rest =>
            if glyph = some '\x7d' then .ok (gathered, rest)
            else if glyph = some ',' then
              match skipBlank rest with
              | [] => .error (.facing .endInValue [])
              | quote :: rest =>
                if quote = some '"' then members field bound gathered rest
                else if quote = some '\x7d' then .error (.facing .trailingComma (quote :: rest))
                else .error (.facing .nameExpected (quote :: rest))
            else .error (.facing .fieldEndExpected (glyph :: rest))

/-- Reads an object from behind its brace. -/
def object {σ : Type} (field : String → σ → Except Flaw (List Glyph → Read σ)) (start : σ)
    (text : List Glyph) : Read σ :=
  match skipBlank text with
  | [] => .error (.facing .endInObject [])
  | glyph :: rest =>
    if glyph = some '\x7d' then .ok (start, rest)
    else if glyph = some '"' then members field (glyph :: rest) start rest
    else .error (.facing .nameExpected (glyph :: rest))

/-- Reads the value of a field, from the colon on, with `one`. -/
def afterColon {α : Type} (one : List Glyph → Read α) (text : List Glyph) : Read α :=
  match colon text with
  | .error fault => .error fault
  | .ok ((), text) => one text

/-- Reads one field of any name in front of those gathered. -/
def anyField (one : List Glyph → Read Json) (key : String) (fields : List (String × Json)) :
    Except Flaw (List Glyph → Read (List (String × Json))) :=
  .ok fun text => (afterColon one text).map fun (value, rest) => ((key, value) :: fields, rest)

/-- Reads the rest of a word that stands for a value. -/
def constant (rest : List Char) (result : Json) (text : List Glyph) : Read Json :=
  (word rest text).map fun ((), text) => (result, text)

/-- Reads a value that is neither an array nor an object, given its first glyph. -/
def scalar (glyph : Glyph) (rest : List Glyph) : Read Json :=
  match glyph with
  | some 'n' => constant ['u', 'l', 'l'] .null rest
  | some 't' => constant ['r', 'u', 'e'] (.bool true) rest
  | some 'f' => constant ['a', 'l', 's', 'e'] (.bool false) rest
  | some '"' => (stringValue rest).map fun (text, rest) => (.str text, rest)
  | some '-' => number true rest
  | some c =>
    if '0' ≤ c ∧ c ≤ '9' then number false (glyph :: rest)
    else .error (.facing .valueExpected (glyph :: rest))
  | none => .error (.facing .valueExpected (glyph :: rest))

/-- Reads one value; arrays and objects may be nested `depth` levels deep. -/
def value : Nat → List Glyph → Read Json
  | 0, text =>
    match skipBlank text with
    | [] => .error (.facing .endInValue [])
    | glyph :: rest =>
      if glyph = some '[' ∨ glyph = some '\x7b' then .error (.facing .tooDeep (glyph :: rest))
      else scalar glyph rest
  | depth + 1, text =>
    match skipBlank text with
    | [] => .error (.facing .endInValue [])
    | glyph :: rest =>
      if glyph = some '[' then
        (array (value depth) rest).map fun (items, rest) => (.arr items, rest)
      else if glyph = some '\x7b' then
        (object (anyField (value depth)) [] rest).map fun (fields, rest) =>
          (.obj fields.reverse, rest)
      else scalar glyph rest

/-- Only blanks may follow. -/
def onlyBlank (text : List Glyph) : Except Fault Unit :=
  if (skipBlank text).isEmpty then .ok () else .error (.facing .trailingText (skipBlank text))

/-- Reads a text that holds one value and nothing else, with `one`. -/
def whole {α : Type} (one : List Glyph → Read α) (text : List Glyph) : Except Fault α :=
  match one text with
  | .error fault => .error fault
  | .ok (result, rest) => (onlyBlank rest).map fun () => result

/-- Reads a text that holds one value and nothing else. -/
def read (text : List Glyph) : Except Fault Json := whole (value nesting) text

end Json

end Backfill
