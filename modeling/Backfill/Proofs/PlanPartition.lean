import Backfill.Proofs.EnginePlans

/-!
# A plan is a partition

The batches of a plan cut its slots into pieces and its cycles cut the batches into pieces, in the
order of the slots and without a gap.  All pieces have the size that was asked for, except perhaps
for the last one, which may be short but is never empty.  This holds for any list of slots, also
for one with repetitions, and for every range that is accepted, up to the largest word.

Batches and cycles are worked out on machine words.  A product that does not fit tells of a
position behind the end, a sum that does not fit is held at the largest word and then at the number
of slots, and all other sums and differences have to exist.  `Plan.batchInWords?` and
`Plan.cycleInWords?` say this step by step and give nothing as soon as one does not; they always
give the batch and the cycle of the plan.

## Main definitions

* `SlotSource.IsCountable` — the sources whose slots can be counted in a word.
* `Plan.Partitions` — a plan cuts a sequence of slots into full pieces.
* `Word.sum?`, `Word.difference?`, `Word.product?` — arithmetic that may leave the words.
* `Plan.slotInWords?`, `Plan.batchInWords?`, `Plan.cycleInWords?` — a plan on machine words.

## Main results

* `Plan.Sized.partitions` — the pieces of a plan whose sizes are not zero.
* `Plan.Sized.batchInWords?_eq`, `Plan.Sized.cycleInWords?_eq` — **no step leaves the words.**
* `Plan.plan_partitions_slots` — **every plan partitions its slots, on machine words.**
-/

namespace Backfill

/-! ### Arithmetic that may leave the words -/

namespace Word

/-- The sum of two words, if it is a word. -/
def sum? (a b : Nat) : Option Nat := if a + b ≤ max then some (a + b) else none

/-- The difference of two words, if it is a word. -/
def difference? (a b : Nat) : Option Nat := if b ≤ a then some (a - b) else none

/-- The product of two words, if it is a word. -/
def product? (a b : Nat) : Option Nat := if a * b ≤ max then some (a * b) else none

theorem sum?_of_le {a b : Nat} (h : a + b ≤ max) : sum? a b = some (a + b) := if_pos h

theorem difference?_of_le {a b : Nat} (h : b ≤ a) : difference? a b = some (a - b) := if_pos h

/-- The quotient of two words, rounded up. -/
def quotientUp? (numerator denominator : Nat) : Option Nat :=
  if numerator = 0 then some 0
  else (difference? numerator 1).bind fun below => sum? (below / denominator) 1

theorem quotientUp?_eq {numerator denominator : Nat} (hnumerator : numerator ≤ max) :
    quotientUp? numerator denominator = some (ceilDiv numerator denominator) := by
  unfold quotientUp? ceilDiv
  split
  · rfl
  · next hne =>
    have hquotient : (numerator - 1) / denominator ≤ numerator - 1 := Nat.div_le_self _ _
    rw [difference?_of_le (by omega), Option.bind_some, sum?_of_le (by omega)]

end Word

namespace SlotSource

/-- The sources whose slots can be counted in a word: ranges of words that are accepted, and
lists. -/
def IsCountable : SlotSource → Prop
  | .span range _ =>
    range.last ≤ Word.max ∧ SlotRange.ofBounds range.first range.last = .ok range
  | .listed slots => slots.length ≤ Word.max

/-- The number of slots, worked out on words. -/
def countInWords? : SlotSource → Option Nat
  | .span range _ => (Word.difference? range.last range.first).map fun gap => Word.clamp (gap + 1)
  | .listed slots => some slots.length

/-- The slot at a position, worked out on words. -/
def slotInWords? (source : SlotSource) (position : Nat) : Option Nat :=
  match source with
  | .span range .ascending => Word.sum? range.first position
  | .span range .descending => Word.difference? range.last position
  | .listed slots => slots[position]?

variable {source : SlotSource}

theorem IsCountable.count_eq (h : source.IsCountable) :
    source.count = source.slots.length ∧ source.count ≤ Word.max := by
  cases source with
  | listed slots => exact ⟨rfl, h⟩
  | span range order =>
    obtain ⟨hle, hlength⟩ := RunSetup.bounds_of_ofBounds h.1 h.2
    have hcount := SlotRange.count_eq_length hle hlength
    refine ⟨?_, Nat.le_trans (Nat.le_of_eq hcount) hlength⟩
    cases order with
    | ascending => exact hcount
    | descending => exact hcount.trans List.length_reverse.symm

theorem IsCountable.countInWords?_eq (h : source.IsCountable) :
    source.countInWords? = some source.count := by
  cases source with
  | listed slots => rfl
  | span range order =>
    obtain ⟨hle, -⟩ := RunSetup.bounds_of_ofBounds h.1 h.2
    rw [countInWords?, Word.difference?_of_le hle]
    rfl

/-- **The slot at every position is worked out without leaving the words.** -/
theorem IsCountable.slotInWords?_eq (h : source.IsCountable) {position : Nat}
    (hposition : position < source.slots.length) :
    source.slotInWords? position = some source.slots[position] := by
  cases source with
  | listed slots => exact List.getElem?_eq_getElem hposition
  | span range order =>
    have hlast := h.1
    -- Counting up never passes the last slot, counting down never passes the first.
    cases order with
    | ascending =>
      simp only [slots, SlotRange.length_slots] at hposition
      rw [slotInWords?, Word.sum?_of_le (by omega)]
      simp [slots, SlotRange.slots]
    | descending =>
      simp only [slots, List.length_reverse, SlotRange.length_slots] at hposition
      rw [slotInWords?, Word.difference?_of_le (by omega)]
      simp only [slots, SlotRange.slots, List.getElem_reverse, List.getElem_range',
        List.length_range', Option.some.injEq]
      omega

/-- Consecutive positions give a piece of the sequence of slots. -/
theorem IsCountable.mapM_slotInWords? (h : source.IsCountable) {first length : Nat}
    (hend : first + length ≤ source.slots.length) :
    (List.range' first length).mapM source.slotInWords? = some (source.slice first length) := by
  rw [slice_eq_take_drop hend]
  induction length generalizing first with
  | zero => simp
  | succ length ih =>
    have hfirst : first < source.slots.length := by omega
    have hdrop : source.slots.drop first =
        source.slots[first] :: source.slots.drop (first + 1) := List.drop_eq_getElem_cons hfirst
    rw [List.range'_succ, List.mapM_cons, h.slotInWords?_eq hfirst, ih (by omega), hdrop,
      List.take_succ_cons]
    rfl

end SlotSource

namespace Plan

/-! ### Full pieces -/

/-- A plan cuts a sequence of slots into batches of the given size and these into cycles of the
given size.  Only the last batch and the last cycle may be short, and none is empty. -/
structure Partitions (plan : Plan) (slots : List Nat) (batchSize batchesPerCycle : Nat) : Prop where
  cycles_slots : (plan.cycles.flatMap (·.batches)).flatMap (·.slots) = slots
  batches_slots : plan.batches.flatMap (·.slots) = slots
  cycles_batches : plan.cycles.flatMap (·.batches) = plan.batches
  isSome_batch? : ∀ index, (plan.batch? index).isSome ↔ index < plan.batchCount
  isSome_cycle? : ∀ index, (plan.cycle? index).isSome ↔ index < plan.cycleCount
  batch : ∀ index batch, plan.batch? index = some batch → batch.index = index ∧
    1 ≤ batch.slots.length ∧ batch.slots.length ≤ batchSize ∧
    (index + 1 < plan.batchCount → batch.slots.length = batchSize)
  cycle : ∀ index cycle, plan.cycle? index = some cycle → cycle.index = index ∧
    1 ≤ cycle.batches.length ∧ cycle.batches.length ≤ batchesPerCycle ∧
    (index + 1 < plan.cycleCount → cycle.batches.length = batchesPerCycle)

/-- The length of the piece of a list that begins at a multiple of the size of the pieces. -/
theorem length_piece {α : Type} (list : List α) {size index : Nat} (hsize : 1 ≤ size)
    (hindex : index < ceilDiv list.length size) :
    let piece := (list.drop (index * size)).take size
    1 ≤ piece.length ∧ piece.length ≤ size ∧
      (index + 1 < ceilDiv list.length size → piece.length = size) := by
  have hfirst := (lt_ceilDiv hsize).mp hindex
  simp only [List.length_take, List.length_drop]
  refine ⟨by omega, Nat.min_le_left _ _, fun hnext => ?_⟩
  -- the next piece begins inside the list, so this one ends there
  have hnextFirst := (lt_ceilDiv hsize).mp hnext
  rw [Nat.add_mul, Nat.one_mul] at hnextFirst
  omega

variable {plan : Plan}

theorem Sized.batch?_eq_some (h : plan.Sized) {index : Nat} {batch : Batch} :
    plan.batch? index = some batch ↔ index < plan.batchCount ∧ batch = plan.batchAt index := by
  by_cases hindex : index < plan.batchCount
  · simp [h.batch?_eq hindex, hindex, eq_comm]
  · have hfirst : ¬index * plan.batchSize < plan.slotCount := fun hlt =>
      hindex ((lt_ceilDiv h.one_le_batchSize).mpr hlt)
    simp [batch?, hfirst, hindex]

/-- **A plan cuts its slots into full pieces.** -/
theorem Sized.partitions (h : plan.Sized) :
    plan.Partitions plan.source.slots plan.batchSize plan.batchesPerCycle where
  cycles_slots := by
    -- What is left from the start of the plan is all of it.
    have hall := h.flatMap_slots_batchesFrom 0
    rwa [batchesFrom, List.drop_zero, Nat.zero_mul, Nat.zero_mul, List.drop_zero] at hall
  batches_slots := by
    have hall := h.flatMap_slots_batches 0
    rwa [List.drop_zero, Nat.zero_mul, List.drop_zero] at hall
  cycles_batches := by
    have hall := h.batchesFrom_zero
    rwa [batchesFrom, List.drop_zero] at hall
  isSome_batch? index := by
    rw [Option.isSome_iff_exists]
    constructor
    · rintro ⟨batch, hbatch⟩
      exact (h.batch?_eq_some.mp hbatch).1
    · intro hindex
      exact ⟨_, h.batch?_eq hindex⟩
  isSome_cycle? index := by
    rw [Option.isSome_iff_exists]
    constructor
    · rintro ⟨cycle, hcycle⟩
      exact (h.cycle?_eq_some.mp hcycle).1
    · intro hindex
      exact ⟨_, h.cycle?_eq hindex⟩
  batch index batch hbatch := by
    obtain ⟨hindex, rfl⟩ := h.batch?_eq_some.mp hbatch
    rw [batchCount, h.slotCount_eq] at hindex ⊢
    exact ⟨rfl, length_piece plan.source.slots h.one_le_batchSize hindex⟩
  cycle index cycle hcycle := by
    obtain ⟨hindex, rfl⟩ := h.cycle?_eq_some.mp hcycle
    rw [cycleCount, ← h.length_batches] at hindex ⊢
    exact ⟨rfl, length_piece plan.batches h.one_le_batchesPerCycle hindex⟩

/-! ### On machine words -/

/-- The batch at a position, worked out on words: nothing if a step leaves the words, and no batch
behind the end of the plan. -/
def batchInWords? (plan : Plan) (index : Nat) : Option (Option Batch) :=
  plan.source.countInWords?.bind fun total =>
    match Word.product? index plan.batchSize with
    | none => some none
    | some first =>
      if total ≤ first then some none
      else
        let last := min (Word.clamp (first + plan.batchSize)) total
        ((List.range' first (last - first)).mapM plan.source.slotInWords?).map fun slots =>
          some ⟨index, slots⟩

/-- The cycle at a position, worked out on words: nothing if a step leaves the words, and no cycle
behind the end of the plan. -/
def cycleInWords? (plan : Plan) (index : Nat) : Option (Option Cycle) :=
  match Word.product? index plan.batchesPerCycle with
  | none => some none
  | some first =>
    (plan.source.countInWords?.bind (Word.quotientUp? · plan.batchSize)).bind fun batches =>
      let last := min (Word.clamp (first + plan.batchesPerCycle)) batches
      if last ≤ first then some none
      else
        ((List.range' first (last - first)).mapM plan.batchInWords?).map fun found =>
          some ⟨index, found.filterMap id⟩

theorem min_clamp_sub {first size total : Nat} (htotal : total ≤ Word.max) :
    min (Word.clamp (first + size)) total - first = min size (total - first) := by
  unfold Word.clamp
  split <;> omega

/-- **No step towards a batch leaves the words.** -/
theorem Sized.batchInWords?_eq (h : plan.Sized) (hsource : plan.source.IsCountable) (index : Nat) :
    plan.batchInWords? index = some (plan.batch? index) := by
  have hcount : plan.source.count = plan.slotCount := rfl
  have hmax := h.slotCount_le
  rw [batchInWords?, hsource.countInWords?_eq, Option.bind_some, hcount, Word.product?]
  by_cases hfirst : index * plan.batchSize < plan.slotCount
  · have hslice := @SlotSource.IsCountable.mapM_slotInWords? plan.source hsource
      (index * plan.batchSize) (min plan.batchSize (plan.slotCount - index * plan.batchSize))
      (by rw [← h.slotCount_eq]; omega)
    rw [if_pos (by omega)]
    simp only [batch?, if_neg (Nat.not_le.mpr hfirst), if_pos hfirst, min_clamp_sub hmax, hslice,
      Option.map_some]
  · -- behind the end, whether or not the position is a word
    have hnone : plan.batch? index = none := by simp [batch?, hfirst]
    rw [hnone]
    by_cases hfits : index * plan.batchSize ≤ Word.max
    · simp only [if_pos hfits, if_pos (Nat.not_lt.mp hfirst)]
    · simp only [if_neg hfits]

/-- **No step towards a cycle leaves the words.** -/
theorem Sized.cycleInWords?_eq (h : plan.Sized) (hsource : plan.source.IsCountable) (index : Nat) :
    plan.cycleInWords? index = some (plan.cycle? index) := by
  have hcount : ceilDiv plan.source.count plan.batchSize = plan.batchCount := rfl
  have hmax : plan.batchCount ≤ Word.max := by
    have hslots := h.slotCount_le
    have hquotient : (plan.slotCount - 1) / plan.batchSize ≤ plan.slotCount - 1 :=
      Nat.div_le_self _ _
    rw [batchCount, ceilDiv]
    split <;> omega
  rw [cycleInWords?, hsource.countInWords?_eq, Option.bind_some,
    Word.quotientUp?_eq hsource.count_eq.2, hcount, Word.product?]
  -- A cycle that does not start before the last batch is absent, whether or not its start fits.
  by_cases hfirst : index * plan.batchesPerCycle < plan.batchCount
  · have hone := h.one_le_batchesPerCycle
    have hbatches : ∀ positions : List Nat,
        positions.mapM plan.batchInWords? = some (positions.map plan.batch?) := by
      intro positions
      induction positions with
      | nil => rfl
      | cons position rest ih =>
        rw [List.mapM_cons, h.batchInWords?_eq hsource, ih]
        rfl
    rw [if_pos (by omega)]
    simp only [Option.bind_some, min_clamp_sub hmax, hbatches, Option.map_some, cycle?,
      if_pos hfirst, List.filterMap_map, Function.id_comp]
    rw [if_neg]
    unfold Word.clamp
    split <;> omega
  · have hnone : plan.cycle? index = none := by simp [cycle?, hfirst]
    have hend : min (Word.clamp (index * plan.batchesPerCycle + plan.batchesPerCycle))
        plan.batchCount ≤ index * plan.batchesPerCycle :=
      Nat.le_trans (Nat.min_le_right _ _) (Nat.not_lt.mp hfirst)
    rw [hnone]
    by_cases hfits : index * plan.batchesPerCycle ≤ Word.max
    · simp only [if_pos hfits, Option.bind_some, if_pos hend]
    · simp only [if_neg hfits]

/-! ### Every plan -/

theorem sized_ofSource {source : SlotSource} (hsource : source.IsCountable)
    (batchSize batchesPerCycle : Nat) : (ofSource source batchSize batchesPerCycle).Sized where
  one_le_batchSize := Nat.le_max_right _ _
  one_le_batchesPerCycle := Nat.le_max_right _ _
  slotCount_eq := hsource.count_eq.1
  slotCount_le := hsource.count_eq.2

/-- **Every plan partitions its slots.**  For a range that is accepted, walked in either direction,
and for any list, the batches of the cycles are the slots in their order; there is a batch or a
cycle exactly at the positions below their numbers; and only the last of them may be short.  A size
of zero acts as one.  Working all this out on machine words never leaves them, whatever the
position. -/
theorem plan_partitions_slots {source : SlotSource} (hsource : source.IsCountable)
    (batchSize batchesPerCycle : Nat) :
    let plan := ofSource source batchSize batchesPerCycle
    plan.Partitions source.slots (max batchSize 1) (max batchesPerCycle 1) ∧
      (∀ position (hposition : position < source.slots.length),
        source.slotInWords? position = some source.slots[position]) ∧
      ∀ index, plan.batchInWords? index = some (plan.batch? index) ∧
        plan.cycleInWords? index = some (plan.cycle? index) := by
  intro plan
  have hsized : plan.Sized := sized_ofSource hsource batchSize batchesPerCycle
  refine ⟨hsized.partitions, fun _ hposition => hsource.slotInWords?_eq hposition, fun index => ?_⟩
  exact ⟨hsized.batchInWords?_eq hsource index, hsized.cycleInWords?_eq hsource index⟩

/-- All words but zero, from the largest one down, in batches of all but one of them. -/
theorem plan_partitions_slots_largest :
    let source : SlotSource := .span ⟨1, Word.max⟩ .descending
    let plan := ofSource source (Word.max - 1) 0
    source.IsCountable ∧ plan.Partitions source.slots (Word.max - 1) 1 ∧ plan.cycleCount = 2 ∧
      plan.cycleInWords? 1 = some (some ⟨1, [⟨1, [1]⟩]⟩) ∧
      plan.cycleInWords? Word.max = some none := by
  intro source plan
  have hsource : source.IsCountable := ⟨Nat.le_refl _, rfl⟩
  obtain ⟨hpartitions, -, hwords⟩ := plan_partitions_slots hsource (Word.max - 1) 0
  refine ⟨hsource, hpartitions, by decide, ?_, ?_⟩
  · exact (hwords 1).2.trans (by decide)
  · exact (hwords Word.max).2.trans (by decide)

end Plan

end Backfill
