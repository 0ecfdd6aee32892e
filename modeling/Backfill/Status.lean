import Backfill.Block
import Backfill.Metrics
import Backfill.Rpc.Exchange
import Backfill.Text.Basic

/-!
# The status pages

While a run goes on, pages tell whether the program is alive, what its metrics are, and what
a block looks like.

## Main definitions

* `Page` — the pages; `Page.ofPath?` is the page at a path.
* `PageBody`, `PageAnswer` — an answer.
* `Page.answer` — the answer of a page.
* `StatusPages.answer` — the answer to a request.
* `StatusPages.wanted?` — the slot that the provider is asked for.
-/

namespace Backfill

/-- The pages; a slot is kept as it stands in the path. -/
inductive Page
  | health
  | metrics
  | block (slot : String)
  | summary (slot : String)
deriving DecidableEq, Repr

/-- The contents of an answer. -/
inductive PageBody
  | empty
  | text (text : String)
  | lines (lines : List String)
  | json (value : Json)
deriving DecidableEq, Repr

/-- An answer. -/
structure PageAnswer where
  status : Nat
  body : PageBody
deriving DecidableEq, Repr

namespace Text

/-- The value of a hexadecimal digit. -/
def hexDigit? (c : Char) : Option Nat :=
  if '0' ≤ c ∧ c ≤ '9' then some (c.toNat - '0'.toNat)
  else if 'a' ≤ c ∧ c ≤ 'f' then some (c.toNat - 'a'.toNat + 10)
  else if 'A' ≤ c ∧ c ≤ 'F' then some (c.toNat - 'A'.toNat + 10)
  else none

/-- The byte that two hexadecimal digits denote. -/
def hexByte? (high low : Char) : Option UInt8 := do
  return UInt8.ofNat (16 * (← hexDigit? high) + (← hexDigit? low))

/-- The bytes of a text in which a per cent sign and two hexadecimal digits stand for a
byte. -/
def percentDecode : List Char → List UInt8
  | [] => []
  | '%' :: high :: low :: rest =>
    match hexByte? high low with
    | some byte => byte :: percentDecode rest
    | none => String.utf8EncodeChar '%' ++ percentDecode (high :: low :: rest)
  | c :: rest => String.utf8EncodeChar c ++ percentDecode rest

end Text

namespace Page

/-- The page at a path.  A slot at the end of a path is not empty. -/
def ofPath? (path : String) : Option Page :=
  match path.splitOn "/" with
  | ["", "health"] => some .health
  | ["", "metrics"] => some .metrics
  | ["", "block", slot] => if slot.isEmpty then none else some (.block slot)
  | ["", "block", slot, "summary"] => some (.summary slot)
  | _ => none

/-- An answer that tells of an error. -/
def failure (status : Nat) (message : String) : PageAnswer :=
  ⟨status, .json (.obj [("error", .str message)])⟩

/-- The answer for a block that could not be fetched. -/
def blockFailure : BlockError → PageAnswer
  | .provider code message => failure 502 (BlockError.provider code message).message
  | .transport error =>
    failure 502 ("RPC transport error (" ++ error.failureClass ++ "): " ++ error.message)

/-- The slot that a part of a path denotes, or the answer that tells of another text. -/
def slotOf (text : String) : Except PageAnswer Nat :=
  match Glyph.chars? (Glyph.ofBytes (Text.percentDecode text.toList)) with
  | none => .error ⟨400, .text "Invalid URL: Invalid UTF-8 in `slot`"⟩
  | some chars =>
    match Text.readIntegerChars Word.max chars with
    | .ok slot => .ok slot
    | .error _ => .error (failure 400
      ("invalid slot `" ++ String.ofList chars ++ "`: expected a non-negative integer"))

/-- The answer about the block of a slot, which `present` turns into a value.  The provider is
asked through `fetch`, if there is a provider. -/
def aboutBlock (fetch : Option (Nat → Except BlockError (Option Json)))
    (present : Nat → Json → Json) (text : String) : PageAnswer :=
  match slotOf text, fetch with
  | .error answer, _ => answer
  | .ok _, none => failure 503 "no RPC endpoint configured"
  | .ok slot, some fetch =>
    match fetch slot with
    | .ok (some found) => ⟨200, .json (present slot found)⟩
    | .ok none => failure 404 s!"no block available for slot {slot}"
    | .error error => blockFailure error

/-- The slot that the provider is asked for, if it is asked at all. -/
def wanted? : Page → Option Nat
  | .block text | .summary text => (slotOf text).toOption
  | _ => none

/-- The answer of a page. -/
def answer (metrics : List String) (fetch : Option (Nat → Except BlockError (Option Json))) :
    Page → PageAnswer
  | .health => ⟨200, .text "Healthy"⟩
  | .metrics => ⟨200, .lines metrics⟩
  | .block slot => aboutBlock fetch (fun _ found => found) slot
  | .summary slot => aboutBlock fetch Block.summary slot

end Page

namespace StatusPages

/-- Whether the character may stand in the name of a scheme. -/
def isSchemeChar (c : Char) : Bool := c.isAlphanum || c == '+' || c == '-' || c == '.'

/-- A target without the scheme and the authority in front of its path, if it has them. -/
def withoutAuthority (target : List Char) : List Char :=
  match target.dropWhile isSchemeChar with
  | ':' :: '/' :: '/' :: rest => rest.dropWhile fun c => c != '/' && c != '?' && c != '#'
  | _ => target

/-- The path of a target, without its query. -/
def pathOf (target : String) : String :=
  String.ofList ((withoutAuthority target.toList).takeWhile fun c => c != '?' && c != '#')

/-- The answer to a request.  Pages can only be read; an answer without its body can be asked
for, too. -/
def answer (metrics : List String) (fetch : Option (Nat → Except BlockError (Option Json)))
    (method target : String) : PageAnswer :=
  match Page.ofPath? (pathOf target) with
  | none => ⟨404, .empty⟩
  | some page =>
    if method = "GET" then page.answer metrics fetch
    else if method = "HEAD" then ⟨(page.answer metrics fetch).status, .empty⟩
    else ⟨405, .empty⟩

/-- The slot that the provider is asked for in a request, if it is asked at all. -/
def wanted? (method target : String) : Option Nat :=
  if method = "GET" ∨ method = "HEAD" then (Page.ofPath? (pathOf target)).bind Page.wanted?
  else none

end StatusPages

end Backfill
