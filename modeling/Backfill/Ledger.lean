import Backfill.SlotRange
import Backfill.Failure
import Backfill.Metrics

/-!
# The failure ledger

The ledger of a run says which slots failed and why.  Consecutive slots with one reason are
kept as one span, so a run that is cancelled or finds no provider costs a handful of spans
however long its range is.  A later record for a slot replaces an earlier one.

## Main definitions

* `Span` — consecutive slots with one reason.
* `Ledger` — spans in ascending order, none of which touch with one reason.
* `Ledger.recordRange`, `Ledger.record` — a range or a slot has failed.
* `Ledger.reasonOf?` — the reason of a slot.
* `Ledger.slots`, `Ledger.entries`, `Ledger.ranges`, `Ledger.size`, `Ledger.spanCount`,
  `Ledger.reasonCounts` — what it holds.
-/

namespace Backfill

/-- Consecutive slots that failed for one reason. -/
structure Span where
  first : Nat
  last : Nat
  reason : FailureReason
deriving DecidableEq, Repr, Inhabited

namespace Span

/-- The slots of the span. -/
def range (span : Span) : SlotRange := ⟨span.first, span.last⟩

/-- Number of slots of the span. -/
def count (span : Span) : Nat := span.range.count

/-- The part of the span below a slot, if there is any. -/
def below (slot : Nat) (span : Span) : Option Span :=
  if span.first < slot then some { span with last := min span.last (slot - 1) } else none

/-- The part of the span above a slot, if there is any. -/
def above (slot : Nat) (span : Span) : Option Span :=
  if slot < span.last then some { span with first := max span.first (slot + 1) } else none

/-- Two spans as one, if they touch and have the same reason. -/
def join? (left right : Span) : Option Span :=
  if left.last + 1 = right.first ∧ left.reason = right.reason then
    some ⟨left.first, right.last, left.reason⟩
  else none

end Span

/-- The failed slots of a run. -/
structure Ledger where
  spans : List Span
deriving DecidableEq, Repr

namespace Ledger

/-- No slot has failed. -/
def empty : Ledger := ⟨[]⟩

instance : Inhabited Ledger := ⟨empty⟩

/-- Puts a span in front of the spans above it, joining it with the first if they touch. -/
def joinRight (span : Span) : List Span → List Span
  | [] => [span]
  | next :: rest =>
    match span.join? next with
    | some joined => joined :: rest
    | none => span :: next :: rest

/-- Puts the spans below a list of spans in front of it, joining those at the seam if they
touch. -/
def joinLeft : List Span → List Span → List Span
  | [], spans => spans
  | [left], spans =>
    match spans with
    | [] => [left]
    | next :: rest =>
      match left.join? next with
      | some joined => joined :: rest
      | none => left :: next :: rest
  | left :: more, spans => left :: joinLeft more spans

/-- Every slot of the range has failed for this reason, whatever was recorded before. -/
def recordRange (ledger : Ledger) (range : SlotRange) (reason : FailureReason) : Ledger :=
  let below := ledger.spans.filterMap (Span.below range.first)
  let above := ledger.spans.filterMap (Span.above range.last)
  ⟨joinLeft below (joinRight ⟨range.first, range.last, reason⟩ above)⟩

/-- The slot has failed for this reason, whatever was recorded before. -/
def record (ledger : Ledger) (slot : Nat) (reason : FailureReason) : Ledger :=
  ledger.recordRange (.single slot) reason

/-- The reason of a slot, if it has failed. -/
def reasonOf? (ledger : Ledger) (slot : Nat) : Option FailureReason :=
  (ledger.spans.find? fun span => span.range.contains slot).map (·.reason)

/-- Whether no slot has failed. -/
def isEmpty (ledger : Ledger) : Bool := ledger.spans.isEmpty

/-- Number of spans. -/
def spanCount (ledger : Ledger) : Nat := ledger.spans.length

/-- The failed ranges with their reasons, in ascending order. -/
def ranges (ledger : Ledger) : List (SlotRange × FailureReason) :=
  ledger.spans.map fun span => (span.range, span.reason)

/-- Number of failed slots, held at the largest word. -/
def size (ledger : Ledger) : Nat :=
  ledger.spans.foldl (fun total span => Word.clamp (total + span.count)) 0

/-- Every failed slot, in ascending order. -/
def slots (ledger : Ledger) : List Nat := ledger.spans.flatMap fun span => span.range.slots

/-- Every failed slot with its reason, in ascending order. -/
def entries (ledger : Ledger) : List (Nat × FailureReason) :=
  ledger.spans.flatMap fun span => span.range.slots.map fun slot => (slot, span.reason)

/-- Number of failed slots by the name of the kind of their reason. -/
def reasonCounts (ledger : Ledger) : LabelCounts :=
  ledger.spans.foldl (fun counts span => counts.add span.reason.label span.count) []

end Ledger

end Backfill
