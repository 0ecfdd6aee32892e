import Backfill.Word

/-!
# Slots and slot ranges

A slot is a block height, a natural number that fits in a word.  A range is a closed
interval of slots; the slots of a range are listed in ascending order, and a list of slots
falls into its maximal runs of consecutive slots.

## Main definitions

* `SlotRange` — the closed interval from `first` to `last`.
* `SlotRange.ofBounds` — the range between two slots, refused when the bounds are the
  wrong way round or when the number of slots does not fit in a word.
* `SlotRange.count`, `SlotRange.contains`, `SlotRange.slots` — its size, its members,
  and its members as a list.
* `SlotRange.bounding` — the smallest range that covers a list.
* `SlotRange.runs` — the maximal runs of consecutive slots of a list, in list order.

## Main results

* `SlotRange.mem_slots` — the listed slots are the members.
* `SlotRange.flatMap_slots_runs` — the runs of a list, written out, are the list.
-/

namespace Backfill

/-- The closed interval of slots from `first` to `last`. -/
structure SlotRange where
  first : Nat
  last : Nat
deriving DecidableEq, Repr, Inhabited

/-- Why two slots do not bound a range. -/
inductive RangeError
  /-- The first bound is larger than the second. -/
  | inverted (first last : Nat)
  /-- The range of all slots holds one slot more than a word can count. -/
  | unbounded
deriving DecidableEq, Repr

namespace RangeError

/-- The error as it is told to the user. -/
def message : RangeError → String
  | .inverted first last => s!"start ({first}) must be <= end ({last})"
  | .unbounded => s!"range [0, {Word.max}] is too large to count"

end RangeError

namespace SlotRange

/-- The range from `first` to `last`. -/
def ofBounds (first last : Nat) : Except RangeError SlotRange :=
  if last < first then .error (.inverted first last)
  else if first = 0 ∧ last = Word.max then .error .unbounded
  else .ok ⟨first, last⟩

/-- The range of one slot. -/
def single (slot : Nat) : SlotRange := ⟨slot, slot⟩

/-- Number of slots in the range, held at the largest word. -/
def count (range : SlotRange) : Nat := Word.clamp (range.last - range.first + 1)

/-- Whether the slot lies in the range. -/
def contains (range : SlotRange) (slot : Nat) : Bool :=
  decide (range.first ≤ slot) && decide (slot ≤ range.last)

/-- The slots of the range in ascending order. -/
def slots (range : SlotRange) : List Nat :=
  List.range' range.first (range.last + 1 - range.first)

/-- The range as it is told to the user. -/
def display (range : SlotRange) : String := s!"[{range.first}, {range.last}]"

/-- The smallest range that covers every slot of the list. -/
def bounding : List Nat → Option SlotRange
  | [] => none
  | slot :: rest => some ⟨rest.foldl min slot, rest.foldl max slot⟩

/-- Puts a slot in front of runs: the first run grows if it starts right after the slot. -/
def consRun (slot : Nat) : List SlotRange → List SlotRange
  | [] => [single slot]
  | run :: runs =>
    if slot + 1 = run.first then ⟨slot, run.last⟩ :: runs else single slot :: run :: runs

/-- The maximal runs of consecutive slots, in list order. -/
def runs (slots : List Nat) : List SlotRange := slots.foldr consRun []

/-! ### Members and lists -/

@[simp] theorem contains_iff {range : SlotRange} {slot : Nat} :
    range.contains slot = true ↔ range.first ≤ slot ∧ slot ≤ range.last := by
  simp [contains]

/-- The listed slots of a range are its members. -/
@[simp] theorem mem_slots {range : SlotRange} {slot : Nat} :
    slot ∈ range.slots ↔ range.first ≤ slot ∧ slot ≤ range.last := by
  simp only [slots, List.mem_range'_1]; omega

@[simp] theorem slots_single (slot : Nat) : (single slot).slots = [slot] := by
  simp [single, slots, List.range'_succ]

theorem slots_cons {slot : Nat} {range : SlotRange} (h : slot + 1 = range.first)
    (hle : range.first ≤ range.last) :
    (⟨slot, range.last⟩ : SlotRange).slots = slot :: range.slots := by
  have hlen : range.last + 1 - slot = range.last + 1 - range.first + 1 := by omega
  simp only [slots, hlen, List.range'_succ, h]

/-- No run is empty. -/
theorem first_le_last_of_mem_runs {slots : List Nat} :
    ∀ run ∈ runs slots, run.first ≤ run.last := by
  induction slots with
  | nil => simp [runs]
  | cons slot rest ih =>
    have hrec : runs (slot :: rest) = consRun slot (runs rest) := rfl
    rw [hrec]
    cases hrest : runs rest with
    | nil => simp [consRun, single]
    | cons run others =>
      rw [hrest] at ih
      have hrun := ih run (by simp)
      have hothers : ∀ r ∈ others, r.first ≤ r.last := fun r hr => ih r (by simp [hr])
      simp only [consRun]
      split
      · intro r hr
        rcases List.mem_cons.mp hr with rfl | hr
        · simp only; omega
        · exact hothers r hr
      · intro r hr
        rcases List.mem_cons.mp hr with rfl | hr
        · exact Nat.le_refl _
        · exact ih r hr

/-- **The runs of a list, written out, are the list.** -/
theorem flatMap_slots_runs (slots : List Nat) :
    (runs slots).flatMap SlotRange.slots = slots := by
  induction slots with
  | nil => rfl
  | cons slot rest ih =>
    have hrec : runs (slot :: rest) = consRun slot (runs rest) := rfl
    have hle := @first_le_last_of_mem_runs rest
    rw [hrec]
    -- A slot goes in front of the first run if it touches it, and is a run of its own otherwise.
    cases hrest : runs rest with
    | nil => rw [hrest] at ih; simp [consRun, ← ih]
    | cons run others =>
      rw [hrest] at ih hle
      simp only [consRun]
      split
      · rename_i h
        rw [List.flatMap_cons, slots_cons h (hle run (by simp)), ← ih, List.flatMap_cons]
        rfl
      · rw [List.flatMap_cons, ih]; simp

end SlotRange

end Backfill
