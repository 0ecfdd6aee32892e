import Backfill.Proofs.LedgerScan
import Backfill.Proofs.PlanPartition

/-!
# What is left of a plan, as ranges

A run that is cancelled enters the slots of all cycles left without building one of them.  For a
range, what is left is one end of it; for a list, it is the runs of the rest of the list.  In both
cases the ranges are worked out from the position at which the first of these cycles would start,
and they hold the slots that the cycles would have held.

The position is a product of three words that is held at the largest word after each step, so a
cycle far behind the end of the plan still leads to a position behind its end.  The runs are built
from the front of the list, and the last of them grows for as long as the next slot follows it.

## Main definitions

* `SlotRange.growRuns?` — a slot is added behind runs, on machine words.
* `Plan.tailInWords?` — the ranges from a cycle on, on machine words.
* `Plan.LeftFrom` — ranges stand for the cycles from one on.

## Main results

* `SlotRange.runs_concat` — runs that are built from the front are the runs of the list.
* `SlotRange.isChain_runs` — no run of a list is followed by one that starts right behind it.
* `Plan.Sized.tailInWords?_eq` — **no step leaves the words.**
* `Plan.tail_replaces_cycles` — **the ranges from a cycle on hold the slots of these cycles.**
-/

namespace Backfill

/-- A product that is held at the largest word after each factor, below a total that is a word. -/
theorem Word.min_clamp_mul {a b c total : Nat} (hc : 1 ≤ c) (htotal : total ≤ max) :
    min (clamp (clamp (a * b) * c)) total = min (a * b * c) total := by
  have hgrows : ∀ n, n ≤ n * c := fun n => Nat.le_mul_of_pos_right n hc
  by_cases hfits : a * b ≤ max
  · rw [clamp_of_le hfits]
    unfold clamp
    split <;> omega
  · -- once a product is held, every further factor leaves it behind the end
    have hheld : clamp (a * b) = max := if_neg hfits
    have hmax := hgrows max
    have hproduct := hgrows (a * b)
    rw [hheld]
    unfold clamp
    split <;> omega

/-! ### Runs -/

namespace SlotRange

/-- A slot is added behind runs: the last run grows if the slot is the word after it. -/
def growRuns (slot : Nat) : List SlotRange → List SlotRange
  | [] => [single slot]
  | [run] => if Word.next? run.last = some slot then [⟨run.first, slot⟩] else [run, single slot]
  | run :: next :: rest => run :: growRuns slot (next :: rest)

theorem consRun_growRuns {first slot : Nat} (hslot : slot ≤ Word.max) (runs : List SlotRange) :
    consRun first (growRuns slot runs) = growRuns slot (consRun first runs) := by
  match runs with
  | [] =>
    by_cases hnext : first + 1 = slot <;>
      simp [growRuns, consRun, single, Word.next?_eq_some hslot, hnext]
  | [run] =>
    by_cases hfront : first + 1 = run.first <;> by_cases hnext : run.last + 1 = slot <;>
      simp [growRuns, consRun, Word.next?_eq_some hslot, hfront, hnext]
  | run :: next :: rest =>
    by_cases hfront : first + 1 = run.first <;> simp [growRuns, consRun, hfront]

/-- **Runs that are built from the front are the runs of the list.** -/
theorem runs_concat {slot : Nat} (hslot : slot ≤ Word.max) (slots : List Nat) :
    runs (slots ++ [slot]) = growRuns slot (runs slots) := by
  induction slots with
  | nil => rfl
  | cons first rest ih =>
    show consRun first (runs (rest ++ [slot])) = growRuns slot (consRun first (runs rest))
    rw [ih, consRun_growRuns hslot]

theorem foldl_growRuns {slots : List Nat} (h : ∀ slot ∈ slots, slot ≤ Word.max) :
    slots.foldl (fun runs slot => growRuns slot runs) [] = runs slots := by
  induction slots using List.reverseRecOn with
  | nil => rfl
  | append_singleton slots slot ih =>
    rw [List.foldl_concat, ih fun other hother => h other (List.mem_append_left _ hother),
      runs_concat (h slot (by simp))]

/-- **No run of a list is followed by one that starts right behind it.** -/
theorem isChain_runs (slots : List Nat) :
    (runs slots).IsChain fun run next => run.last + 1 ≠ next.first := by
  induction slots with
  | nil => exact .nil
  | cons slot rest ih =>
    show (consRun slot (runs rest)).IsChain fun run next => run.last + 1 ≠ next.first
    cases hrest : runs rest with
    | nil => exact .singleton _
    | cons run others =>
      rw [hrest] at ih
      by_cases hfront : slot + 1 = run.first
      · -- the first run grows at its lower end only
        rw [consRun, if_pos hfront]
        cases others with
        | nil => exact .singleton _
        | cons next others =>
          rw [List.isChain_cons_cons] at ih ⊢
          exact ih
      · rw [consRun, if_neg hfront]
        exact List.isChain_cons_cons.mpr ⟨hfront, ih⟩

theorem runs_eq_nil {slots : List Nat} : runs slots = [] ↔ slots = [] := by
  constructor
  · intro hruns
    rw [← flatMap_slots_runs slots, hruns, List.flatMap_nil]
  · rintro rfl
    rfl

end SlotRange

/-! ### The ranges from a cycle on -/

namespace Plan

/-- The ranges from a cycle on, worked out on words: nothing if a step leaves the words. -/
def tailInWords? (plan : Plan) (cycle : Nat) : Option (List SlotRange) :=
  plan.source.countInWords?.bind fun total =>
    let position := Word.clamp (Word.clamp (cycle * plan.batchesPerCycle) * plan.batchSize)
    let first := min position total
    if total ≤ first then some []
    else match plan.source with
      | .span range .ascending =>
        (Word.sum? range.first first).map fun start => [⟨start, range.last⟩]
      | .span range .descending =>
        (Word.difference? range.last first).map fun stop => [⟨range.first, stop⟩]
      | .listed slots =>
        some ((slots.drop first).foldl (fun runs slot => SlotRange.growRuns slot runs) [])

/-- Ranges stand for the cycles of a plan from one on. -/
structure LeftFrom (plan : Plan) (cycle : Nat) (ranges : List SlotRange) : Prop where
  slots_perm : (ranges.flatMap SlotRange.slots).Perm
    ((plan.cycles.drop cycle).flatMap fun cycle => cycle.batches.flatMap (·.slots))
  /-- The slots of a list stay in their order. -/
  slots_eq : ∀ slots, plan.source = .listed slots → ranges.flatMap SlotRange.slots =
    (plan.cycles.drop cycle).flatMap fun cycle => cycle.batches.flatMap (·.slots)
  length_le_one : ∀ range order, plan.source = .span range order → ranges.length ≤ 1
  /-- The runs of a list cannot be made longer. -/
  isChain : ∀ slots, plan.source = .listed slots →
    ranges.IsChain fun run next => run.last + 1 ≠ next.first
  first_le_last : ∀ range ∈ ranges, range.first ≤ range.last
  eq_nil_iff : ranges = [] ↔ plan.cycleCount ≤ cycle

variable {plan : Plan}

/-- **No step towards the ranges from a cycle on leaves the words.** -/
theorem Sized.tailInWords?_eq (h : plan.Sized) (hsource : plan.source.IsCountable)
    (hslots : ∀ slot ∈ plan.source.slots, slot ≤ Word.max) (cycle : Nat) :
    plan.tailInWords? cycle = some (plan.tailRanges cycle) := by
  have hcount : plan.source.count = plan.slotCount := rfl
  -- Clamped products are only compared with the slot count, and below that they are exact.
  have hposition : min (Word.clamp (Word.clamp (cycle * plan.batchesPerCycle) * plan.batchSize))
      plan.slotCount = plan.cycleStart cycle :=
    Word.min_clamp_mul h.one_le_batchSize h.slotCount_le
  rw [tailInWords?, hsource.countInWords?_eq, Option.bind_some, hcount, tailRanges]
  simp only [hposition]
  split
  · rfl
  · next hlt =>
    rw [h.slotCount_eq, Nat.not_le] at hlt
    generalize plan.cycleStart cycle = first at hlt
    cases hkind : plan.source with
    | listed slots =>
      rw [hkind] at hslots
      exact congrArg some (SlotRange.foldl_growRuns fun slot hslot =>
        hslots slot (List.mem_of_mem_drop hslot))
    | span range order =>
      rw [hkind] at hlt hsource
      obtain ⟨hlast, haccepted⟩ := hsource
      obtain ⟨hle, -⟩ := RunSetup.bounds_of_ofBounds hlast haccepted
      cases order with
      | ascending =>
        simp only [SlotSource.slots, SlotRange.length_slots] at hlt
        simp only [Word.sum?_of_le (show range.first + first ≤ Word.max by omega), Option.map_some]
      | descending =>
        simp only [SlotSource.slots, List.length_reverse, SlotRange.length_slots] at hlt
        simp only [Word.difference?_of_le (show first ≤ range.last by omega), Option.map_some]

theorem Sized.cycleStart_lt_iff (h : plan.Sized) (cycle : Nat) :
    plan.cycleStart cycle < plan.slotCount ↔ cycle < plan.cycleCount := by
  rw [cycleCount, lt_ceilDiv h.one_le_batchesPerCycle, batchCount, lt_ceilDiv h.one_le_batchSize,
    cycleStart]
  omega

/-- There are ranges from a cycle on exactly if there is such a cycle. -/
theorem Sized.tailRanges_eq_nil (h : plan.Sized) (cycle : Nat) :
    plan.tailRanges cycle = [] ↔ plan.cycleCount ≤ cycle := by
  rw [← Nat.not_lt, ← h.cycleStart_lt_iff, Nat.not_lt]
  by_cases hle : plan.slotCount ≤ plan.cycleStart cycle
  · simp [tailRanges, hle]
  · refine iff_of_false ?_ hle
    simp only [tailRanges, if_neg hle]
    cases hsource : plan.source with
    | listed slots =>
      rw [h.slotCount_eq, hsource] at hle
      rw [SlotRange.runs_eq_nil, List.drop_eq_nil_iff]
      exact hle
    | span range order => cases order <;> exact List.cons_ne_nil _ _

/-- **The ranges from a cycle on stand for the cycles.** -/
theorem Sized.leftFrom_tailRanges (h : plan.Sized) (cycle : Nat) :
    plan.LeftFrom cycle (plan.tailRanges cycle) where
  slots_perm := by
    rw [← List.flatMap_assoc]
    exact h.flatMap_slots_tailRanges cycle
  -- Only a list keeps its order: the tail of a descending range is announced from its lower end.
  slots_eq slots hsource := by
    rw [← List.flatMap_assoc]
    refine .trans ?_ (h.drop_cycleStart cycle)
    rw [tailRanges, h.slotCount_eq, hsource]
    split
    · next hle => rw [List.drop_of_length_le hle, List.flatMap_nil]
    · exact SlotRange.flatMap_slots_runs _
  length_le_one range order hsource := by
    rw [tailRanges, hsource]
    cases order <;> split <;> simp
  isChain slots hsource := by
    rw [tailRanges, hsource]
    split
    · exact .nil
    · exact SlotRange.isChain_runs _
  first_le_last _ hrange := h.first_le_last_of_mem_tailRanges hrange
  eq_nil_iff := h.tailRanges_eq_nil cycle

/-- **The ranges from a cycle on hold the slots of these cycles.**  For a range that is accepted,
walked in either direction, and for any list of words, the ranges that are entered without building
a batch hold the slots of this cycle and of those behind it, and those of a list in their order.  A
range leaves one range at most, and a list its runs; none of them is empty, and there is none
exactly if there is no such cycle.  Working this out on machine words never leaves them, also where
the position of the cycle is no word. -/
theorem tail_replaces_cycles {source : SlotSource} (hsource : source.IsCountable)
    (hslots : ∀ slot ∈ source.slots, slot ≤ Word.max) (batchSize batchesPerCycle cycle : Nat) :
    let plan := ofSource source batchSize batchesPerCycle
    plan.tailInWords? cycle = some (plan.tailRanges cycle) ∧
      plan.LeftFrom cycle (plan.tailRanges cycle) := by
  intro plan
  have hsized : plan.Sized := sized_ofSource hsource batchSize batchesPerCycle
  exact ⟨hsized.tailInWords?_eq hsource hslots cycle, hsized.leftFrom_tailRanges cycle⟩

/-- A list with repetitions that is not in order, from its second cycle on and from one on whose
position is no word. -/
theorem tail_replaces_cycles_unsorted :
    let source : SlotSource := .listed [7, 8, 8, 9, Word.max, 0, 0]
    let plan := ofSource source 2 0
    source.IsCountable ∧ (∀ slot ∈ source.slots, slot ≤ Word.max) ∧
      plan.LeftFrom 1 [⟨8, 9⟩, ⟨Word.max, Word.max⟩, ⟨0, 0⟩, ⟨0, 0⟩] ∧
      plan.tailInWords? 1 = some [⟨8, 9⟩, ⟨Word.max, Word.max⟩, ⟨0, 0⟩, ⟨0, 0⟩] ∧
      plan.tailInWords? Word.max = some [] := by
  intro source plan
  have hsource : source.IsCountable := show 7 ≤ Word.max by decide
  have hslots : ∀ slot ∈ source.slots, slot ≤ Word.max := by decide
  have hsecond : plan.tailRanges 1 = [⟨8, 9⟩, ⟨Word.max, Word.max⟩, ⟨0, 0⟩, ⟨0, 0⟩] := by decide
  obtain ⟨hwords, hleft⟩ := tail_replaces_cycles hsource hslots 2 0 1
  obtain ⟨hfar, -⟩ := tail_replaces_cycles hsource hslots 2 0 Word.max
  exact ⟨hsource, hslots, hsecond ▸ hleft, hwords.trans (congrArg some hsecond),
    hfar.trans (congrArg some (by decide))⟩

end Plan

end Backfill
