import Backfill.Json.Reader

/-!
# Values that do not matter

The value of a field that nobody asked for is read past, not read.  Only the brackets that
are still open are kept, so such a value may be nested to any depth; its strings need not
be text, and its numbers may be of any size.

## Main definitions

* `Json.Bracket` — a bracket that is still open.
* `Json.skip` — what follows a value.
-/

namespace Backfill

namespace Json

/-- A bracket that is still open. -/
inductive Bracket
  | square
  | curly
deriving DecidableEq, Repr

/-- Reads past the name of a field and its colon, from the opening quote on. -/
def skipName (text : List Glyph) : Read Unit :=
  match skipBlank text with
  | [] => .error (.facing .endInObject [])
  | glyph :: rest =>
    if glyph = some '"' then
      match skipString rest with
      | .error fault => .error fault
      | .ok ((), text) => colon text
    else .error (.facing .nameExpected (glyph :: rest))

/-- Reads past a value that is neither an array nor an object, given its first glyph. -/
def skipScalar (glyph : Glyph) (rest : List Glyph) : Read Unit :=
  match glyph with
  | some 'n' => word ['u', 'l', 'l'] rest
  | some 't' => word ['r', 'u', 'e'] rest
  | some 'f' => word ['a', 'l', 's', 'e'] rest
  | some '"' => skipString rest
  | some '-' => skipNumeral rest
  | some c =>
    if '0' ≤ c ∧ c ≤ '9' then skipNumeral (glyph :: rest)
    else .error (.facing .valueExpected (glyph :: rest))
  | none => .error (.facing .valueExpected (glyph :: rest))

/-- The flaw of a text that ends inside a bracket. -/
def Bracket.ends : Bracket → Flaw
  | .square => .endInList
  | .curly => .endInObject

/-- Goes on behind an opening bracket: `true` if a value is due, `false` if the bracket has
been closed again. -/
def skipOpen (bracket : Bracket) (text : List Glyph) : Read Bool :=
  match skipBlank text with
  | [] => .error (.facing bracket.ends [])
  | glyph :: rest =>
    match bracket with
    | .square => if glyph = some ']' then .ok (false, rest) else .ok (true, glyph :: rest)
    | .curly =>
      if glyph = some '\x7d' then .ok (false, rest)
      else (skipName (glyph :: rest)).map fun ((), rest) => (true, rest)

/-- Goes on behind a value inside a bracket, as `skipOpen` does. -/
def skipNext (bracket : Bracket) (text : List Glyph) : Read Bool :=
  match skipBlank text with
  | [] => .error (.facing bracket.ends [])
  | glyph :: rest =>
    match bracket with
    | .square =>
      if glyph = some ']' then .ok (false, rest)
      else if glyph = some ',' then .ok (true, rest)
      else .error (.facing .itemEndExpected (glyph :: rest))
    | .curly =>
      if glyph = some '\x7d' then .ok (false, rest)
      else if glyph = some ',' then (skipName rest).map fun ((), rest) => (true, rest)
      else .error (.facing .fieldEndExpected (glyph :: rest))

/-- Reads past values until every open bracket is closed; `due` says whether a value is due
or has just ended.  The first list is as long as there can be steps: each step but the last
takes a glyph, so the text itself is long enough. -/
def skipFrom : List Glyph → Bool → List Bracket → List Glyph → Read Unit
  | _, false, [], text => .ok ((), text)
  | [], _, _, _ => .error (.facing .endInValue [])
  | _ :: bound, false, bracket :: outer, text =>
    match skipNext bracket text with
    | .error fault => .error fault
    | .ok (true, text) => skipFrom bound true (bracket :: outer) text
    | .ok (false, text) => skipFrom bound false outer text
  | _ :: bound, true, open_, text =>
    match skipBlank text with
    | [] => .error (.facing .endInValue [])
    | glyph :: rest =>
      if glyph = some '[' ∨ glyph = some '\x7b' then
        let bracket := if glyph = some '[' then Bracket.square else .curly
        match skipOpen bracket rest with
        | .error fault => .error fault
        | .ok (true, text) => skipFrom bound true (bracket :: open_) text
        | .ok (false, text) => skipFrom bound false open_ text
      else
        match skipScalar glyph rest with
        | .error fault => .error fault
        | .ok ((), text) => skipFrom bound false open_ text

/-- Reads past one value. -/
def skip (text : List Glyph) : Read Unit := skipFrom text true [] text

end Json

end Backfill
