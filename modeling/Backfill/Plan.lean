import Backfill.SlotRange
import Backfill.Batch

/-!
# The plan of a run

A plan cuts a sequence of slots into batches and the batches into cycles.  Batch `k` holds
the positions from `k * batchSize` on, so every position lies in exactly one batch and only
the last batch may be short; cycles cut the sequence of batches in the same way.  Nothing is
written out before a cycle is asked for, so a plan over hundreds of millions of slots is as
small as one over ten.

## Main definitions

* `ScanOrder` — the direction in which a range is walked.
* `SlotSource` — a range with a direction, or a list; `SlotSource.slots` is the sequence of
  slots and `SlotSource.slice` a piece of it.
* `Plan` — a source with the two sizes.
* `Plan.batch?`, `Plan.cycle?` — one batch or one cycle by its position.
* `Plan.batches`, `Plan.cycles` — all of them.
* `Plan.tailRanges` — the slots from a cycle on, as ranges, without building a batch.
* `Plan.split` — the batches of a range in ascending order.

## Main results

* `SlotSource.slice_eq_take_drop` — a slice is that piece of the sequence of slots.
-/

namespace Backfill

/-- Direction in which a range is walked. -/
inductive ScanOrder
  | ascending
  /-- Newest slot first. -/
  | descending
deriving DecidableEq, Repr, Inhabited

/-- Where the slots of a plan come from. -/
inductive SlotSource
  | span (range : SlotRange) (order : ScanOrder)
  | listed (slots : List Nat)
deriving DecidableEq, Repr, Inhabited

namespace SlotSource

/-- The slots in the order in which they are asked for. -/
def slots : SlotSource → List Nat
  | .span range .ascending => range.slots
  | .span range .descending => range.slots.reverse
  | .listed slots => slots

/-- Number of slots, held at the largest word. -/
def count : SlotSource → Nat
  | .span range _ => range.count
  | .listed slots => slots.length

/-- The slots at the `length` positions from `first` on. -/
def slice (source : SlotSource) (first length : Nat) : List Nat :=
  match source with
  | .span range .ascending => List.range' (range.first + first) length
  | .span range .descending => (List.range' first length).map (range.last - ·)
  | .listed slots => (slots.drop first).take length

/-- **A slice is that piece of the sequence of slots**, as long as it stays inside. -/
theorem slice_eq_take_drop {source : SlotSource} {first length : Nat}
    (h : first + length ≤ source.slots.length) :
    source.slice first length = (source.slots.drop first).take length := by
  match source with
  | .listed slots => rfl
  | .span range .ascending =>
    simp only [slots, SlotRange.slots, List.length_range'] at h
    apply List.ext_getElem
    · simp only [slice, slots, SlotRange.slots, List.length_range', List.length_take,
        List.length_drop]
      omega
    · intro i h₁ h₂
      simp only [slice, slots, SlotRange.slots, List.getElem_range', List.getElem_take,
        List.getElem_drop]
      omega
  | .span range .descending =>
    simp only [slots, SlotRange.slots, List.length_reverse, List.length_range'] at h
    apply List.ext_getElem
    · simp only [slice, slots, SlotRange.slots, List.length_map, List.length_range',
        List.length_take, List.length_drop, List.length_reverse]
      omega
    · intro i h₁ h₂
      simp only [slice, List.length_map, List.length_range'] at h₁
      simp only [slice, slots, SlotRange.slots, List.getElem_map, List.getElem_range',
        List.getElem_take, List.getElem_drop, List.getElem_reverse, List.length_range']
      omega

end SlotSource

/-- `numerator / denominator`, rounded up. -/
def ceilDiv (numerator denominator : Nat) : Nat :=
  if numerator = 0 then 0 else (numerator - 1) / denominator + 1

/-- A sequence of slots, cut into batches and cycles. -/
structure Plan where
  source : SlotSource
  batchSize : Nat
  batchesPerCycle : Nat
deriving DecidableEq, Repr, Inhabited

namespace Plan

/-- The plan of a source; a size of zero acts as one. -/
def ofSource (source : SlotSource) (batchSize batchesPerCycle : Nat) : Plan :=
  ⟨source, max batchSize 1, max batchesPerCycle 1⟩

/-- Number of slots of the plan. -/
def slotCount (plan : Plan) : Nat := plan.source.count

/-- Number of batches of the plan. -/
def batchCount (plan : Plan) : Nat := ceilDiv plan.slotCount plan.batchSize

/-- Number of cycles of the plan. -/
def cycleCount (plan : Plan) : Nat := ceilDiv plan.batchCount plan.batchesPerCycle

/-- The batch at a position, if the plan reaches that far. -/
def batch? (plan : Plan) (index : Nat) : Option Batch :=
  let first := index * plan.batchSize
  if first < plan.slotCount then
    some ⟨index, plan.source.slice first (min plan.batchSize (plan.slotCount - first))⟩
  else none

/-- The cycle at a position, if the plan reaches that far. -/
def cycle? (plan : Plan) (index : Nat) : Option Cycle :=
  let first := index * plan.batchesPerCycle
  if first < plan.batchCount then
    let length := min plan.batchesPerCycle (plan.batchCount - first)
    some ⟨index, (List.range' first length).filterMap plan.batch?⟩
  else none

/-- Every batch of the plan, in order. -/
def batches (plan : Plan) : List Batch := (List.range plan.batchCount).filterMap plan.batch?

/-- Every cycle of the plan, in order. -/
def cycles (plan : Plan) : List Cycle := (List.range plan.cycleCount).filterMap plan.cycle?

/-- First position of a cycle, held at the number of slots. -/
def cycleStart (plan : Plan) (cycle : Nat) : Nat :=
  min (cycle * plan.batchesPerCycle * plan.batchSize) plan.slotCount

/-- The slots of every cycle from `cycle` on, as ranges: at most one range of a range plan,
and the runs of consecutive slots of a list plan. -/
def tailRanges (plan : Plan) (cycle : Nat) : List SlotRange :=
  let first := plan.cycleStart cycle
  if plan.slotCount ≤ first then []
  else match plan.source with
    | .span range .ascending => [⟨range.first + first, range.last⟩]
    | .span range .descending => [⟨range.first, range.last - first⟩]
    | .listed slots => SlotRange.runs (slots.drop first)

/-- The batches of a range in ascending order. -/
def split (range : SlotRange) (batchSize : Nat) : List Batch :=
  (ofSource (.span range .ascending) batchSize 1).batches

end Plan

end Backfill
