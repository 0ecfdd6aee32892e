import Backfill.Engine
import Backfill.Proofs.PlanPieces
import Mathlib.Data.List.Dedup

/-!
# The plans of an engine

An engine plans a run over a range that has been accepted, or over any list of slots.  In both
cases the plan holds the slots that were asked for, each once, and the number of slots that the
run announces is the number of these slots.

## Main definitions

* `RunSetup.Asks` — the runs that an engine makes, with the slots that are asked for.

## Main results

* `RunSetup.pairwise_sorted`, `RunSetup.mem_sorted` — a list in ascending order, without
  repetitions.
* `RunSetup.Asks.sound`, `RunSetup.Asks.mem_slots` — **the plan of a run holds the slots that are
  asked for, each once.**
* `RunSetup.Asks.requested_eq` — the run announces as many slots as there are.
-/

namespace Backfill

/-! ### Lists without repetitions -/

/-- What has been gathered so far stands in front. -/
theorem eraseReps_loop (slot : Nat) (rest gathered : List Nat) :
    List.eraseRepsBy.loop (· == ·) slot rest gathered =
      gathered.reverse ++ (slot :: rest).eraseReps := by
  induction rest generalizing slot gathered with
  | nil => simp [List.eraseReps, List.eraseRepsBy, List.eraseRepsBy.loop]
  | cons next rest ih =>
    rw [List.eraseReps, List.eraseRepsBy, List.eraseRepsBy.loop, List.eraseRepsBy.loop]
    cases slot == next
    · simp only [ih]
      simp
    · simp only [ih]
      simp

theorem eraseReps_cons_cons (slot next : Nat) (rest : List Nat) :
    (slot :: next :: rest).eraseReps =
      if slot = next then (slot :: rest).eraseReps else slot :: (next :: rest).eraseReps := by
  rw [List.eraseReps, List.eraseRepsBy, List.eraseRepsBy.loop]
  by_cases heq : slot = next
  · rw [if_pos heq, beq_iff_eq.mpr heq]
    rfl
  · rw [if_neg heq, beq_eq_false_iff_ne.mpr heq]
    exact eraseReps_loop next rest [slot]

theorem mem_eraseReps {x : Nat} {slots : List Nat} : x ∈ slots.eraseReps ↔ x ∈ slots := by
  match slots with
  | [] => rfl
  | [slot] => rfl
  | slot :: next :: rest =>
    rw [eraseReps_cons_cons]
    split
    · next heq =>
      subst heq
      simp [@mem_eraseReps x (slot :: rest)]
    · simp [@mem_eraseReps x (next :: rest)]

theorem length_eraseReps_le (slots : List Nat) : slots.eraseReps.length ≤ slots.length := by
  match slots with
  | [] => exact Nat.le_refl _
  | [slot] => exact Nat.le_refl _
  | slot :: next :: rest =>
    have hfirst := length_eraseReps_le (slot :: rest)
    have hsecond := length_eraseReps_le (next :: rest)
    rw [eraseReps_cons_cons]
    split <;> simp only [List.length_cons] at * <;> omega

/-- An ascending list without repetitions is strictly ascending. -/
theorem pairwise_eraseReps {slots : List Nat} (h : slots.Pairwise (· ≤ ·)) :
    slots.eraseReps.Pairwise (· < ·) := by
  match slots, h with
  | [], _ => exact .nil
  | [slot], _ => exact List.pairwise_singleton _ _
  | slot :: next :: rest, h =>
    obtain ⟨hslot, hrest⟩ := List.pairwise_cons.mp h
    rw [eraseReps_cons_cons]
    split
    · exact pairwise_eraseReps (h.sublist (.cons_cons slot (List.sublist_cons_self next rest)))
    · next hne =>
      -- `next` is the least slot that is left, so being below it is enough.
      refine List.pairwise_cons.mpr ⟨fun other hother => ?_, pairwise_eraseReps hrest⟩
      have hnext := hslot next List.mem_cons_self
      rcases List.mem_cons.mp (mem_eraseReps.mp hother) with rfl | hother
      · omega
      · have := (List.pairwise_cons.mp hrest).1 other hother
        omega

namespace RunSetup

/-- A list in ascending order, without repetitions. -/
theorem pairwise_sorted (slots : List Nat) : (sorted slots).Pairwise (· < ·) := by
  have hle : (slots.mergeSort fun a b => decide (a ≤ b)).Pairwise fun a b => decide (a ≤ b) :=
    List.pairwise_mergeSort (fun a b c => by simpa using Nat.le_trans)
      (fun a b => by simpa using Nat.le_total a b) slots
  exact pairwise_eraseReps (hle.imp of_decide_eq_true)

@[simp] theorem mem_sorted {slot : Nat} {slots : List Nat} :
    slot ∈ sorted slots ↔ slot ∈ slots := by
  rw [sorted, mem_eraseReps, (List.mergeSort_perm _ _).mem_iff]

theorem length_sorted_le (slots : List Nat) : (sorted slots).length ≤ slots.length := by
  have := length_eraseReps_le (slots.mergeSort fun a b => decide (a ≤ b))
  rwa [List.length_mergeSort] at this

theorem sorted_eq {slots ascending : List Nat} (h : ascending.Pairwise (· < ·))
    (hmem : ∀ slot, slot ∈ ascending ↔ slot ∈ slots) : sorted slots = ascending := by
  have hnodup : ∀ {list : List Nat}, list.Pairwise (· < ·) → list.Nodup := fun hlist =>
    hlist.imp Nat.ne_of_lt
  have hperm : (sorted slots).Perm ascending := by
    refine (List.perm_ext_iff_of_nodup (hnodup (pairwise_sorted slots)) (hnodup h)).mpr ?_
    exact fun slot => mem_sorted.trans (hmem slot).symm
  exact hperm.eq_of_pairwise (fun a b _ _ hab hba => absurd hab (Nat.lt_asymm hba))
    (pairwise_sorted slots) h

/-! ### What an engine asks for -/

/-- The runs that an engine makes, with the slots that are asked for: those of a range between
two words that is accepted, or any list of slots whose length is a word. -/
inductive Asks : RunSetup → List Nat → Prop
  | overRange {first last : Nat} {range : SlotRange} (settings : Settings) (hasSink : Bool)
    (startedAt : Int) (hlast : last ≤ Word.max)
    (hrange : SlotRange.ofBounds first last = .ok range) :
    Asks (ofRange settings hasSink range startedAt) range.slots
  | overSlots {slots : List Nat} (settings : Settings) (hasSink : Bool) (startedAt : Int)
    (hlength : slots.length ≤ Word.max) : Asks (ofSlots settings hasSink slots startedAt) slots

variable {setup : RunSetup} {asked : List Nat}

/-- An accepted range is not empty, and the number of its slots is a word. -/
theorem bounds_of_ofBounds {first last : Nat} {range : SlotRange} (hlast : last ≤ Word.max)
    (hrange : SlotRange.ofBounds first last = .ok range) :
    range.first ≤ range.last ∧ range.slots.length ≤ Word.max := by
  unfold SlotRange.ofBounds at hrange
  split at hrange
  · simp at hrange
  · split at hrange
    · simp at hrange
    · cases hrange
      rw [SlotRange.length_slots]
      dsimp only
      omega

/-- **The plan of a run is sound.** -/
theorem Asks.sound (h : setup.Asks asked) : setup.plan.Sound := by
  cases h with
  | @overRange _ _ range settings _ _ hlast hrange =>
    -- A range is counted and enumerated the same way in both scan orders.
    obtain ⟨hle, hlength⟩ := bounds_of_ofBounds hlast hrange
    have hcount := SlotRange.count_eq_length hle hlength
    refine ⟨⟨Nat.le_max_right _ _, Nat.le_max_right _ _, ?_,
      Nat.le_trans (Nat.le_of_eq hcount) hlength⟩, ?_⟩
    · cases horder : settings.scanOrder <;>
        simpa [ofRange, ofPlan, Plan.ofSource, Plan.slotCount, SlotSource.slots, SlotSource.count,
          horder] using hcount
    · cases horder : settings.scanOrder <;>
        simp [ofRange, ofPlan, Plan.ofSource, SlotSource.slots, horder, SlotRange.slots,
          List.nodup_range']
  | overSlots _ _ _ hlength =>
    refine ⟨⟨Nat.le_max_right _ _, Nat.le_max_right _ _, rfl,
      Nat.le_trans (length_sorted_le asked) hlength⟩, ?_⟩
    -- The collected slots are sorted strictly, so none of them is asked for twice.
    exact (pairwise_sorted asked).imp Nat.ne_of_lt

/-- **The plan of a run holds the slots that are asked for.** -/
theorem Asks.mem_slots (h : setup.Asks asked) {slot : Nat} :
    slot ∈ setup.plan.source.slots ↔ slot ∈ asked := by
  cases h with
  | overRange settings =>
    cases horder : settings.scanOrder <;>
      simp [ofRange, ofPlan, Plan.ofSource, SlotSource.slots, horder]
  | overSlots => exact mem_sorted

/-- The run announces as many slots as its plan holds. -/
theorem Asks.requested_eq (h : setup.Asks asked) :
    setup.run.requested = setup.plan.source.slots.length := by
  rw [← h.sound.slotCount_eq]
  cases h <;> rfl

theorem Asks.requested_eq_dedup (h : setup.Asks asked) :
    setup.run.requested = asked.dedup.length := by
  rw [h.requested_eq]
  refine List.Perm.length_eq ((List.perm_ext_iff_of_nodup h.sound.nodup asked.nodup_dedup).mpr ?_)
  intro slot
  rw [h.mem_slots, List.mem_dedup]

end RunSetup

end Backfill
