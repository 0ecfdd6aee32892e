import Backfill.Proofs.PlanPartition

/-!
# Cycles by position and cycles one after the other

A plan knows its cycles by their positions: where a cycle starts is a multiple of its size, and
nothing has to be known about the cycles in front of it.  The other way to come by them is to cut
pieces off the front of the list of batches until nothing is left of it, and to number them in the
order in which they come.  The piece that is cut off after some others begins where these end, so
both ways lead to the same cycles, whatever the sizes are.

## Main definitions

* `Cycle.Groups` — batches are cut into full cycles, in order.

## Main results

* `chunks_eq_map` — the pieces that are cut off a list, by position.
* `Cycle.groups_ofBatches` — **any batches are cut into full cycles.**
* `Plan.Sized.cycles_eq_ofBatches` — the cycles of a plan are its batches, cut into cycles.
* `Plan.lazy_cycles_are_eager` — **a range leads to the same cycles in both ways.**
-/

namespace Backfill

/-! ### Pieces that are cut off -/

/-- A list that is not empty has one piece more than what is left behind its first piece. -/
theorem ceilDiv_add_one (rest : Nat) {size : Nat} (h : 1 ≤ size) :
    ceilDiv (rest + 1) size = ceilDiv (rest - (size - 1)) size + 1 := by
  -- both sides bound the positions of pieces, which are those behind the first one and its own
  have hlt : ∀ i, i < ceilDiv (rest + 1) size ↔ i < ceilDiv (rest - (size - 1)) size + 1 := by
    intro i
    rw [lt_ceilDiv h]
    cases i with
    | zero => simp
    | succ i =>
      rw [Nat.succ_lt_succ_iff, lt_ceilDiv h, Nat.add_mul, Nat.one_mul]
      omega
  have hleft := hlt (ceilDiv (rest + 1) size)
  have hright := hlt (ceilDiv (rest - (size - 1)) size + 1)
  omega

/-- **The pieces that are cut off a list are its pieces by position.** -/
theorem chunks_eq_map {α : Type} (size : Nat) (list : List α) :
    chunks size list = (List.range (ceilDiv list.length (max size 1))).map fun i =>
      (list.drop (i * max size 1)).take (max size 1) := by
  have hsize : max size 1 = size - 1 + 1 := by omega
  fun_induction chunks size list with
  | case1 => rfl
  -- The first chunk is the one at 0, and those of the rest move up by one.
  | case2 first rest ih =>
    have hfirst : first :: rest.take (size - 1) = (first :: rest).take (max size 1) := by
      rw [hsize, List.take_succ_cons]
    have hrest : rest.drop (size - 1) = (first :: rest).drop (max size 1) := by
      rw [hsize, List.drop_succ_cons]
    have hcount : ceilDiv (first :: rest).length (max size 1) =
        ceilDiv (rest.drop (size - 1)).length (max size 1) + 1 := by
      rw [List.length_cons, ceilDiv_add_one _ (Nat.le_max_right _ _), List.length_drop, hsize,
        Nat.add_sub_cancel]
    rw [ih, hcount, List.range_succ_eq_map, List.map_cons, List.map_map, Nat.zero_mul,
      List.drop_zero, hfirst]
    congr 1
    refine List.map_congr_left fun i _ => ?_
    rw [Function.comp_apply, hrest, List.drop_drop, Nat.succ_mul, Nat.add_comm]

namespace Cycle

theorem ofBatches_eq_map (size : Nat) (batches : List Batch) :
    ofBatches size batches = (List.range (ceilDiv batches.length (max size 1))).map fun i =>
      ⟨i, (batches.drop (i * max size 1)).take (max size 1)⟩ := by
  rw [ofBatches, chunks_eq_map]
  apply List.ext_getElem
  · simp
  · intro i h₁ h₂
    simp

/-- Batches are cut into cycles of the given size, in order: the cycles are numbered by their
positions, only the last one may be short, and none is empty. -/
structure Groups (size : Nat) (batches : List Batch) (cycles : List Cycle) : Prop where
  flatMap_batches : cycles.flatMap (·.batches) = batches
  map_index : cycles.map (·.index) = List.range cycles.length
  full : ∀ position cycle, cycles[position]? = some cycle → 1 ≤ cycle.batches.length ∧
    cycle.batches.length ≤ size ∧ (position + 1 < cycles.length → cycle.batches.length = size)

/-- **Any batches are cut into full cycles**, where a size of zero acts as one. -/
theorem groups_ofBatches (size : Nat) (batches : List Batch) :
    Groups (max size 1) batches (ofBatches size batches) where
  flatMap_batches := by
    -- Numbering the chunks does not change them.
    have hpieces : (ofBatches size batches).map (·.batches) = chunks size batches := by
      rw [ofBatches, List.map_map]
      exact List.zipIdx_map_fst 0 _
    rw [List.flatMap_def, hpieces, chunks_flatten]
  map_index := by
    rw [ofBatches_eq_map, List.map_map, List.length_map, List.length_range]
    exact List.map_id' _
  full position cycle hcycle := by
    rw [ofBatches_eq_map, List.getElem?_map, Option.map_eq_some_iff] at hcycle
    obtain ⟨i, hi, rfl⟩ := hcycle
    obtain ⟨hlt, rfl⟩ := List.getElem?_eq_some_iff.mp hi
    rw [List.length_range] at hlt
    rw [ofBatches_eq_map, List.length_map, List.length_range, List.getElem_range]
    exact Plan.length_piece batches (Nat.le_max_right _ _) hlt

end Cycle

namespace Plan

variable {plan : Plan}

/-- **The cycles of a plan are its batches, cut into cycles.** -/
theorem Sized.cycles_eq_ofBatches (h : plan.Sized) :
    plan.cycles = Cycle.ofBatches plan.batchesPerCycle plan.batches := by
  rw [h.cycles_eq, Cycle.ofBatches_eq_map, h.length_batches,
    Nat.max_eq_left h.one_le_batchesPerCycle]
  rfl

/-- The cycles of a plan are those that there are at their positions. -/
theorem Sized.getElem?_cycles (h : plan.Sized) (index : Nat) :
    plan.cycles[index]? = plan.cycle? index := by
  rw [h.cycles_eq, List.getElem?_map]
  by_cases hindex : index < plan.cycleCount
  · rw [List.getElem?_range hindex, h.cycle?_eq hindex]
    rfl
  · have hnone : plan.cycle? index = none := by
      refine Option.eq_none_iff_forall_ne_some.mpr fun cycle hcycle => hindex ?_
      exact (h.cycle?_eq_some.mp hcycle).1
    have hlength : (List.range plan.cycleCount).length ≤ index := by
      rw [List.length_range]
      omega
    rw [List.getElem?_eq_none hlength, hnone]
    rfl

/-- **A range leads to the same cycles in both ways.**  For every range that is accepted and all
sizes, of which zero acts as one, the cycles of its plan are the batches of the range, cut into
cycles one after the other; and working out the cycle at a position on machine words, whatever the
position, leads to the cycle at that place or, behind the last one, to none.  Whatever the batches,
cutting them into cycles keeps them in order, numbers the cycles from zero on and fills all of them
but the last, which is not empty. -/
theorem lazy_cycles_are_eager {range : SlotRange}
    (hrange : SlotSource.IsCountable (.span range .ascending)) (batchSize batchesPerCycle : Nat) :
    let plan := ofSource (.span range .ascending) batchSize batchesPerCycle
    let eager := Cycle.ofBatches batchesPerCycle (split range batchSize)
    plan.cycles = eager ∧ (∀ index, plan.cycleInWords? index = some eager[index]?) ∧
      ∀ batches, Cycle.Groups (max batchesPerCycle 1) batches
        (Cycle.ofBatches batchesPerCycle batches) := by
  intro plan eager
  have hsized : plan.Sized := sized_ofSource hrange batchSize batchesPerCycle
  have heager : plan.cycles = eager := by
    -- the batches of a plan do not depend on the size of its cycles
    have hbatches : plan.batches = split range batchSize := rfl
    show plan.cycles = Cycle.ofBatches batchesPerCycle (split range batchSize)
    rw [hsized.cycles_eq_ofBatches, hbatches, Cycle.ofBatches_eq_map, Cycle.ofBatches_eq_map]
    simp [plan, ofSource]
  refine ⟨heager, fun index => ?_, Cycle.groups_ofBatches batchesPerCycle⟩
  rw [hsized.cycleInWords?_eq hrange, ← hsized.getElem?_cycles, heager]

/-- The largest words, in batches of two and cycles of more than there are batches, and of one. -/
theorem lazy_cycles_are_eager_largest :
    let range : SlotRange := ⟨Word.max - 2, Word.max⟩
    let batches : List Batch := [⟨0, [Word.max - 2, Word.max - 1]⟩, ⟨1, [Word.max]⟩]
    SlotSource.IsCountable (.span range .ascending) ∧ split range 2 = batches ∧
      (ofSource (.span range .ascending) 2 Word.max).cycles = [⟨0, batches⟩] ∧
      (ofSource (.span range .ascending) 2 0).cycles =
        [⟨0, batches.take 1⟩, ⟨1, batches.drop 1⟩] ∧
      (ofSource (.span range .ascending) 2 0).cycleInWords? Word.max = some none := by
  intro range batches
  have hrange : SlotSource.IsCountable (.span range .ascending) := ⟨Nat.le_refl _, rfl⟩
  have hsplit : split range 2 = batches := by decide
  obtain ⟨hone, -⟩ := lazy_cycles_are_eager hrange 2 Word.max
  obtain ⟨htwo, hwords, -⟩ := lazy_cycles_are_eager hrange 2 0
  -- There is no cycle this far behind the last one, and nothing overflows on the way.
  have hfar := hwords Word.max
  rw [hsplit] at hone htwo hfar
  refine ⟨hrange, hsplit, hone.trans ?_, htwo.trans ?_, hfar.trans ?_⟩
  · rw [Cycle.ofBatches_eq_map]
    decide
  · rw [Cycle.ofBatches_eq_map]
    decide
  · rw [Cycle.ofBatches_eq_map]
    decide

end Plan

end Backfill
