/-!
# Batches and cycles

A batch is a list of slots that are asked for together; a cycle is a list of batches whose
results are all gathered before the next cycle starts.

## Main definitions

* `Batch`, `Cycle` — each with its position in the plan of its run.
* `Cycle.ofBatches` — a list of batches cut into cycles, in order.
* `chunks` — a list cut into pieces of a given length, the last one possibly shorter.

## Main results

* `chunks_flatten` — the pieces of a list, put together again, are the list.
-/

namespace Backfill

/-- Slots that are asked for together. -/
structure Batch where
  /-- Position of the batch in the plan of its run. -/
  index : Nat
  slots : List Nat
deriving DecidableEq, Repr, Inhabited

/-- Batches whose results are gathered before the next cycle starts. -/
structure Cycle where
  /-- Position of the cycle in the plan of its run. -/
  index : Nat
  batches : List Batch
deriving DecidableEq, Repr, Inhabited

/-- Cuts a list into pieces of length `size`; the last piece may be shorter.  A `size` of
zero acts as one. -/
def chunks {α : Type} (size : Nat) : List α → List (List α)
  | [] => []
  | x :: rest => (x :: rest.take (size - 1)) :: chunks size (rest.drop (size - 1))
termination_by list => list.length
decreasing_by simp only [List.length_drop, List.length_cons]; omega

/-- The pieces of a list, put together again, are the list. -/
theorem chunks_flatten {α : Type} (size : Nat) (list : List α) :
    (chunks size list).flatten = list := by
  fun_induction chunks size list with
  | case1 => rfl
  | case2 x rest ih => simp [ih, List.take_append_drop]

namespace Cycle

/-- Number of slots in the cycle. -/
def slotCount (cycle : Cycle) : Nat := (cycle.batches.flatMap (·.slots)).length

/-- Cuts batches into cycles of `batchesPerCycle`, keeping their order; the last cycle may
be shorter.  A `batchesPerCycle` of zero acts as one. -/
def ofBatches (batchesPerCycle : Nat) (batches : List Batch) : List Cycle :=
  (chunks batchesPerCycle batches).zipIdx.map fun piece => ⟨piece.2, piece.1⟩

end Cycle

end Backfill
