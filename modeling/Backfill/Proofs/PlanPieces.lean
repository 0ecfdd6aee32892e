import Backfill.Plan
import Mathlib.Data.List.Nodup
import Mathlib.Data.List.Pairwise

/-!
# The pieces of a plan

A plan cuts its slots into batches and its batches into cycles, and both cuts are the same
operation on lists: the pieces at the positions `k`, `k + 1`, … of a list are the list from
position `k * size` on.  So the batches of all cycles from one on, and the slots of these batches,
are what is left of the two sequences from there on, and the ranges that a run cancels without
building a batch are the same slots once more.

## Main definitions

* `Plan.Sized` — no size of the plan is zero, and the number of its slots is a word.
* `Plan.Sound` — moreover no slot occurs twice.
* `Plan.batchesFrom` — the batches of all cycles from one on.

## Main results

* `flatMap_pieces` — consecutive pieces of a list.
* `Plan.Sized.cycle?_eq` — what there is at the position of a cycle.
* `Plan.Sized.batchesFrom_eq_append` — a cycle comes before the cycles after it.
* `Plan.Sized.flatMap_slots_batches` — **the batches of a plan hold its slots, in order.**
* `Plan.Sized.flatMap_slots_tailRanges` — the ranges from a cycle on hold the slots of these
  cycles.
-/

namespace Backfill

/-! ### Pieces of lists -/

/-- Consecutive pieces of equal size, put together again. -/
theorem flatMap_pieces {α : Type} (list : List α) (size k m : Nat) :
    (List.range' k m).flatMap (fun i => (list.drop (i * size)).take size) =
      (list.drop (k * size)).take (m * size) := by
  induction m generalizing k with
  | zero => simp
  | succ m ih =>
    have hdrop : (list.drop (k * size)).drop size = list.drop ((k + 1) * size) := by
      rw [List.drop_drop, Nat.add_mul, Nat.one_mul]
    rw [List.range'_succ, List.flatMap_cons, ih, ← hdrop, ← List.take_add, Nat.add_mul,
      Nat.one_mul, Nat.add_comm size]

theorem lt_ceilDiv {i numerator denominator : Nat} (h : 1 ≤ denominator) :
    i < ceilDiv numerator denominator ↔ i * denominator < numerator := by
  unfold ceilDiv
  split
  · next hzero => subst hzero; simp
  · next hne =>
    rw [Nat.lt_succ_iff, Nat.le_div_iff_mul_le h]
    omega

theorem flatMap_pieces_ceilDiv {α : Type} (list : List α) {size : Nat} (h : 1 ≤ size) (k : Nat) :
    (List.range' k (ceilDiv list.length size - k)).flatMap
      (fun i => (list.drop (i * size)).take size) = list.drop (k * size) := by
  rw [flatMap_pieces, List.take_of_length_le]
  have hend : ¬ceilDiv list.length size * size < list.length := by
    rw [← lt_ceilDiv h]
    exact Nat.lt_irrefl _
  rw [List.length_drop, Nat.sub_mul]
  omega

/-! ### Ranges -/

namespace SlotRange

@[simp] theorem length_slots (range : SlotRange) :
    range.slots.length = range.last + 1 - range.first := by
  simp [slots]

theorem count_eq_length {range : SlotRange} (h : range.first ≤ range.last)
    (hlength : range.slots.length ≤ Word.max) : range.count = range.slots.length := by
  rw [length_slots] at hlength ⊢
  rw [count, Word.clamp_of_le (by omega)]
  omega

theorem drop_slots (range : SlotRange) (n : Nat) :
    range.slots.drop n = slots ⟨range.first + n, range.last⟩ := by
  simp only [slots, List.drop_range', Nat.mul_one]
  congr 1
  omega

theorem take_slots {range : SlotRange} {n : Nat} (h : n < range.slots.length) :
    range.slots.take (range.slots.length - n) = slots ⟨range.first, range.last - n⟩ := by
  rw [length_slots] at h ⊢
  rw [slots, List.take_range'_of_length_ge (by omega)]
  simp only [slots]
  congr 1
  omega

end SlotRange

namespace Plan

/-- No size is zero, and the number of slots is a word. -/
structure Sized (plan : Plan) : Prop where
  one_le_batchSize : 1 ≤ plan.batchSize
  one_le_batchesPerCycle : 1 ≤ plan.batchesPerCycle
  slotCount_eq : plan.slotCount = plan.source.slots.length
  slotCount_le : plan.slotCount ≤ Word.max

/-- No size is zero, the number of slots is a word, and no slot occurs twice. -/
structure Sound (plan : Plan) : Prop extends Sized plan where
  nodup : plan.source.slots.Nodup

/-! ### Batches -/

/-- The batch at a position, as a piece of the sequence of slots. -/
def batchAt (plan : Plan) (index : Nat) : Batch :=
  ⟨index, (plan.source.slots.drop (index * plan.batchSize)).take plan.batchSize⟩

/-- The cycle at a position, as a piece of the sequence of batches. -/
def cycleAt (plan : Plan) (index : Nat) : Cycle :=
  ⟨index, (plan.batches.drop (index * plan.batchesPerCycle)).take plan.batchesPerCycle⟩

/-- The batches of all cycles from one on. -/
def batchesFrom (plan : Plan) (cycle : Nat) : List Batch :=
  (plan.cycles.drop cycle).flatMap (·.batches)

variable {plan : Plan}

theorem Sized.batch?_eq (h : plan.Sized) {index : Nat} (hindex : index < plan.batchCount) :
    plan.batch? index = some (plan.batchAt index) := by
  have hfirst : index * plan.batchSize < plan.slotCount :=
    (lt_ceilDiv h.one_le_batchSize).mp hindex
  have hslice := @SlotSource.slice_eq_take_drop plan.source (index * plan.batchSize)
    (min plan.batchSize (plan.slotCount - index * plan.batchSize))
    (by rw [← h.slotCount_eq]; omega)
  -- the last batch is cut off where the slots end
  have htake : (plan.source.slots.drop (index * plan.batchSize)).take
      (min plan.batchSize (plan.slotCount - index * plan.batchSize)) =
      (plan.source.slots.drop (index * plan.batchSize)).take plan.batchSize := by
    rw [h.slotCount_eq, ← List.length_drop, ← List.take_eq_take_min]
  rw [batch?]
  simp only [if_pos hfirst, hslice, htake, batchAt]

theorem Sized.batches_eq (h : plan.Sized) :
    plan.batches = (List.range plan.batchCount).map plan.batchAt := by
  rw [batches, ← List.filterMap_eq_map]
  exact List.filterMap_congr fun index hindex => h.batch?_eq (List.mem_range.mp hindex)

theorem Sized.length_batches (h : plan.Sized) : plan.batches.length = plan.batchCount := by
  simp [h.batches_eq]

/-- **The batches of a plan hold its slots, in order.** -/
theorem Sized.flatMap_slots_batches (h : plan.Sized) (k : Nat) :
    (plan.batches.drop k).flatMap (·.slots) = plan.source.slots.drop (k * plan.batchSize) := by
  have hdrop : (List.range plan.batchCount).drop k = List.range' k (plan.batchCount - k) := by
    rw [List.range_eq_range', List.drop_range', Nat.mul_one, Nat.zero_add]
  rw [h.batches_eq, ← List.map_drop, hdrop, List.flatMap_map, batchCount, h.slotCount_eq]
  exact flatMap_pieces_ceilDiv _ h.one_le_batchSize k

theorem Sized.mem_slots (h : plan.Sized) {slot : Nat} :
    slot ∈ plan.source.slots ↔ ∃ batch ∈ plan.batches, slot ∈ batch.slots := by
  have hslots := h.flatMap_slots_batches 0
  rw [List.drop_zero, Nat.zero_mul, List.drop_zero] at hslots
  rw [← hslots, List.mem_flatMap]

theorem Sized.map_index_batches (h : plan.Sized) :
    plan.batches.map (·.index) = List.range plan.batchCount := by
  rw [h.batches_eq, List.map_map]
  exact List.map_id' _

theorem Sound.nodup_batches (h : plan.Sound) : plan.batches.Nodup :=
  List.Nodup.of_map (·.index) (h.map_index_batches ▸ List.nodup_range)

theorem Sound.batch_eq_of_index (h : plan.Sound) {batch other : Batch}
    (hbatch : batch ∈ plan.batches) (hother : other ∈ plan.batches)
    (hindex : batch.index = other.index) : batch = other :=
  List.inj_on_of_nodup_map (h.map_index_batches ▸ List.nodup_range) hbatch hother hindex

theorem Sound.nodup_flatMap_slots (h : plan.Sound) : (plan.batches.flatMap (·.slots)).Nodup := by
  have hslots := h.flatMap_slots_batches 0
  rw [List.drop_zero, Nat.zero_mul, List.drop_zero] at hslots
  exact hslots ▸ h.nodup

theorem Sound.nodup_slots_of_mem (h : plan.Sound) {batch : Batch} (hbatch : batch ∈ plan.batches) :
    batch.slots.Nodup :=
  (List.nodup_flatMap.mp h.nodup_flatMap_slots).1 batch hbatch

theorem Sound.batch_eq_of_mem (h : plan.Sound) {batch other : Batch} (hbatch : batch ∈ plan.batches)
    (hother : other ∈ plan.batches) {slot : Nat} (hin : slot ∈ batch.slots)
    (hinOther : slot ∈ other.slots) : batch = other := by
  by_contra hne
  have hsymm : Std.Symm (Function.onFun List.Disjoint Batch.slots) :=
    ⟨fun _ _ hdisjoint _ hleft hright => hdisjoint hright hleft⟩
  exact (List.nodup_flatMap.mp h.nodup_flatMap_slots).2.forall hbatch hother hne hin hinOther

/-! ### Cycles -/

theorem Sized.cycle?_eq (h : plan.Sized) {index : Nat} (hindex : index < plan.cycleCount) :
    plan.cycle? index = some (plan.cycleAt index) := by
  have hfirst : index * plan.batchesPerCycle < plan.batchCount :=
    (lt_ceilDiv h.one_le_batchesPerCycle).mp hindex
  -- The positions of a cycle are a piece of all positions, and its batches the same piece.
  have hpositions : List.range' (index * plan.batchesPerCycle)
      (min plan.batchesPerCycle (plan.batchCount - index * plan.batchesPerCycle)) =
      ((List.range plan.batchCount).drop (index * plan.batchesPerCycle)).take
        plan.batchesPerCycle := by
    apply List.ext_getElem
    · simp
    · intro i h₁ h₂
      simp
  have hpiece : (List.range' (index * plan.batchesPerCycle)
      (min plan.batchesPerCycle (plan.batchCount - index * plan.batchesPerCycle))).filterMap
        plan.batch? =
      (plan.batches.drop (index * plan.batchesPerCycle)).take plan.batchesPerCycle := by
    rw [h.batches_eq, ← List.map_drop, ← List.map_take, ← hpositions, ← List.filterMap_eq_map]
    refine List.filterMap_congr fun k hk => h.batch?_eq ?_
    rw [List.mem_range'_1] at hk
    omega
  rw [cycle?]
  simp only [if_pos hfirst, hpiece, cycleAt]

theorem Sized.cycle?_eq_some (h : plan.Sized) {index : Nat} {cycle : Cycle} :
    plan.cycle? index = some cycle ↔ index < plan.cycleCount ∧ cycle = plan.cycleAt index := by
  by_cases hindex : index < plan.cycleCount
  · simp [h.cycle?_eq hindex, hindex, eq_comm]
  · have hfirst : ¬index * plan.batchesPerCycle < plan.batchCount := fun hlt =>
      hindex ((lt_ceilDiv h.one_le_batchesPerCycle).mpr hlt)
    simp [cycle?, hfirst, hindex]

theorem Sized.cycles_eq (h : plan.Sized) :
    plan.cycles = (List.range plan.cycleCount).map plan.cycleAt := by
  rw [cycles, ← List.filterMap_eq_map]
  exact List.filterMap_congr fun index hindex => h.cycle?_eq (List.mem_range.mp hindex)

theorem Sized.batchesFrom_eq (h : plan.Sized) (cycle : Nat) :
    plan.batchesFrom cycle = plan.batches.drop (cycle * plan.batchesPerCycle) := by
  have hdrop : (List.range plan.cycleCount).drop cycle =
      List.range' cycle (plan.cycleCount - cycle) := by
    rw [List.range_eq_range', List.drop_range', Nat.mul_one, Nat.zero_add]
  rw [batchesFrom, h.cycles_eq, ← List.map_drop, hdrop, List.flatMap_map, cycleCount,
    ← h.length_batches]
  exact flatMap_pieces_ceilDiv _ h.one_le_batchesPerCycle cycle

theorem Sized.batchesFrom_zero (h : plan.Sized) : plan.batchesFrom 0 = plan.batches := by
  rw [h.batchesFrom_eq, Nat.zero_mul, List.drop_zero]

/-- A cycle comes before the cycles after it. -/
theorem Sized.batchesFrom_eq_append (h : plan.Sized) {index : Nat} {cycle : Cycle}
    (hcycle : plan.cycle? index = some cycle) :
    plan.batchesFrom index = cycle.batches ++ plan.batchesFrom (index + 1) := by
  obtain ⟨-, rfl⟩ := h.cycle?_eq_some.mp hcycle
  rw [h.batchesFrom_eq, h.batchesFrom_eq, cycleAt, Nat.add_mul, Nat.one_mul, ← List.drop_drop,
    List.take_append_drop]

theorem batchesFrom_eq_nil {index : Nat} (hindex : plan.cycleCount ≤ index) :
    plan.batchesFrom index = [] := by
  have hlength : plan.cycles.length ≤ plan.cycleCount := by
    have := List.length_filterMap_le plan.cycle? (List.range plan.cycleCount)
    rwa [List.length_range] at this
  rw [batchesFrom, List.drop_of_length_le (Nat.le_trans hlength hindex), List.flatMap_nil]

theorem Sized.flatMap_slots_batchesFrom (h : plan.Sized) (cycle : Nat) :
    (plan.batchesFrom cycle).flatMap (·.slots) =
      plan.source.slots.drop (cycle * plan.batchesPerCycle * plan.batchSize) := by
  rw [h.batchesFrom_eq, h.flatMap_slots_batches]

/-! ### The ranges from a cycle on -/

theorem Sized.drop_cycleStart (h : plan.Sized) (cycle : Nat) :
    plan.source.slots.drop (plan.cycleStart cycle) =
      (plan.batchesFrom cycle).flatMap (·.slots) := by
  rw [h.flatMap_slots_batchesFrom, cycleStart, h.slotCount_eq]
  rcases Nat.le_total (cycle * plan.batchesPerCycle * plan.batchSize)
    plan.source.slots.length with hle | hle
  · rw [Nat.min_eq_left hle]
  · rw [Nat.min_eq_right hle, List.drop_of_length_le hle, List.drop_length]

/-- **The ranges from a cycle on hold the slots of these cycles.** -/
theorem Sized.flatMap_slots_tailRanges (h : plan.Sized) (cycle : Nat) :
    ((plan.tailRanges cycle).flatMap SlotRange.slots).Perm
      ((plan.batchesFrom cycle).flatMap (·.slots)) := by
  rw [← h.drop_cycleStart, tailRanges, h.slotCount_eq]
  generalize plan.cycleStart cycle = first
  split
  · next hle => rw [List.drop_of_length_le hle]; exact .refl _
  · next hlt =>
    cases hsource : plan.source with
    | listed slots => rw [SlotRange.flatMap_slots_runs]; exact .refl _
    | span range order =>
      -- what is left of a range is its upper end or, in a descending scan, its lower end
      rw [hsource] at hlt
      cases order with
      | ascending =>
        rw [List.flatMap_singleton, SlotSource.slots, SlotRange.drop_slots]
      | descending =>
        rw [SlotSource.slots, List.length_reverse, Nat.not_le] at hlt
        rw [List.flatMap_singleton, SlotSource.slots, List.drop_reverse, SlotRange.take_slots hlt]
        exact (List.reverse_perm _).symm

/-- None of the ranges from a cycle on is empty. -/
theorem Sized.first_le_last_of_mem_tailRanges (h : plan.Sized) {cycle : Nat} {range : SlotRange}
    (hrange : range ∈ plan.tailRanges cycle) : range.first ≤ range.last := by
  rw [tailRanges, h.slotCount_eq] at hrange
  split at hrange
  · simp at hrange
  · next hlt =>
    cases hsource : plan.source with
    | listed slots =>
      rw [hsource] at hrange
      exact SlotRange.first_le_last_of_mem_runs range hrange
    | span bounds order =>
      rw [hsource] at hrange hlt
      -- The tail of a range starts before the end of the range, from whichever side it is walked.
      cases order with
      | ascending =>
        simp only [SlotSource.slots, SlotRange.length_slots] at hlt
        obtain rfl := List.mem_singleton.mp hrange
        simp only
        omega
      | descending =>
        simp only [SlotSource.slots, List.length_reverse, SlotRange.length_slots] at hlt
        obtain rfl := List.mem_singleton.mp hrange
        simp only
        omega

end Plan

end Backfill
