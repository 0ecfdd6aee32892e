import Backfill.Proofs.LedgerMap
import Backfill.Proofs.PlanPieces
import Backfill.Proofs.RunHistory

/-!
# Entries in the accounts

Whatever path leads a slot out of a run, the accounts learn of it in one of two ways: the slot has
failed for a reason, or it was fetched.  What has to hold afterwards is the same for all paths, so
it is said once, and each operation on the accounts is shown to keep to it.

## Main definitions

* `Accounts.Settles` — the accounts after some slots have failed and others were fetched.

## Main results

* `Accounts.settles_failSlots`, `Accounts.settles_failRanges`, `Accounts.settles_deliver` —
  **what is entered is what is said to be entered**, one slot at a time or range by range.
* `Accounts.Settles.slots_perm` — the ledger grows by the slots that have failed.
* `BatchResult.mem_failures`, `BatchResult.mem_blocks` — what a result says about a slot.
* `BatchResult.slots_perm` — **a result settles every slot of its batch**, each in one way.
-/

namespace Backfill

namespace Accounts

/-- The accounts after some slots have failed and others were fetched. -/
structure Settles (before : Accounts) (failures : List (Nat × FailureReason)) (fetched : List Nat)
    (after : Accounts) : Prop where
  ordered : after.ledger.Ordered
  recorded : ∀ entry ∈ failures, after.ledger.reasonOf? entry.1 = some entry.2
  kept : ∀ slot ∉ failures.map (·.1), after.ledger.reasonOf? slot = before.ledger.reasonOf? slot
  failed : after.failed = before.failed + failures.length
  exhausted : after.exhausted = before.exhausted + failures.countP (·.2.isExhausted)
  succeeded : after.succeeded = before.succeeded + fetched.length

namespace Settles

variable {before middle after : Accounts} {first second failures : List (Nat × FailureReason)}
  {fetched : List Nat}

theorem refl (h : before.ledger.Ordered) : Settles before [] [] before :=
  ⟨h, by simp, by simp, rfl, rfl, rfl⟩

/-- What is entered first stays, as long as other slots come later. -/
theorem trans (h : Settles before first [] middle) (hnext : Settles middle second [] after)
    (hdisjoint : (first.map (·.1)).Disjoint (second.map (·.1))) :
    Settles before (first ++ second) [] after where
  ordered := hnext.ordered
  recorded entry hentry := by
    rcases List.mem_append.mp hentry with hfirst | hsecond
    · rw [hnext.kept _ (hdisjoint (List.mem_map_of_mem hfirst)), h.recorded _ hfirst]
    · exact hnext.recorded _ hsecond
  kept slot hslot := by
    rw [List.map_append, List.mem_append, not_or] at hslot
    rw [hnext.kept _ hslot.2, h.kept _ hslot.1]
  failed := by rw [hnext.failed, h.failed, List.length_append, Nat.add_assoc]
  exhausted := by rw [hnext.exhausted, h.exhausted, List.countP_append, Nat.add_assoc]
  succeeded := hnext.succeeded.trans h.succeeded

theorem of_told {told : Telemetry}
    (h : Settles { before with telemetry := told } failures fetched after) :
    Settles before failures fetched after :=
  ⟨h.ordered, h.recorded, h.kept, h.failed, h.exhausted, h.succeeded⟩

theorem told (h : Settles before failures fetched after) (telemetry : Telemetry) :
    Settles before failures fetched { after with telemetry := telemetry } :=
  ⟨h.ordered, h.recorded, h.kept, h.failed, h.exhausted, h.succeeded⟩

/-- **The ledger grows by the slots that have failed**, as long as none of them had. -/
theorem slots_perm (h : Settles before failures fetched after)
    (hnodup : (failures.map (·.1) ++ before.ledger.slots).Nodup) :
    after.ledger.slots.Perm (failures.map (·.1) ++ before.ledger.slots) := by
  refine (List.perm_ext_iff_of_nodup h.ordered.nodup_slots hnodup).mpr fun slot => ?_
  rw [Ledger.mem_slots, List.mem_append, Ledger.mem_slots]
  by_cases hslot : slot ∈ failures.map (·.1)
  · obtain ⟨entry, hentry, rfl⟩ := List.mem_map.mp hslot
    rw [h.recorded _ hentry]
    simp only [Option.isSome_some, hslot, true_or]
  · rw [h.kept _ hslot]
    simp only [hslot, false_or]

end Settles

/-! ### Slots that have failed -/

variable {accounts : Accounts}

/-- A range has failed: all its slots have. -/
theorem settles_fail (h : accounts.ledger.Ordered) {range : SlotRange}
    (hrange : range.first ≤ range.last) (hlength : range.slots.length ≤ Word.max)
    (reason : FailureReason) :
    Settles accounts (range.slots.map fun slot => (slot, reason)) []
      (accounts.fail range reason) where
  ordered := h.recordRange hrange reason
  recorded entry hentry := by
    obtain ⟨slot, hslot, rfl⟩ := List.mem_map.mp hentry
    have hcontains : range.contains slot = true := by simpa using hslot
    exact (Ledger.reasonOf?_recordRange h hrange reason slot).trans (if_pos hcontains)
  kept slot hslot := by
    have hcontains : ¬range.contains slot = true := by simpa using hslot
    exact (Ledger.reasonOf?_recordRange h hrange reason slot).trans (if_neg hcontains)
  failed := by
    rw [List.length_map, ← SlotRange.count_eq_length hrange hlength]
    rfl
  exhausted := by
    rw [List.countP_map, fail, SlotRange.count_eq_length hrange hlength]
    cases hexhausted : reason.isExhausted <;> simp [Function.comp_def, hexhausted]
  succeeded := rfl

/-- Slots have failed, each for its reason. -/
theorem settles_failSlots (h : accounts.ledger.Ordered) {failures : List (Nat × FailureReason)}
    (hnodup : (failures.map (·.1)).Nodup) :
    Settles accounts failures [] (accounts.failSlots failures) := by
  induction failures generalizing accounts with
  | nil => exact .refl h
  | cons failure rest ih =>
    rw [List.map_cons, List.nodup_cons] at hnodup
    have hfirst := @settles_fail accounts h (.single failure.1) (Nat.le_refl _)
      (by simp [Word.max]) failure.2
    rw [SlotRange.slots_single] at hfirst
    -- no later slot is the same, so the first one stays as it was entered
    refine hfirst.trans (ih hfirst.ordered hnodup.2) ?_
    intro slot hslot
    obtain rfl := List.mem_singleton.mp hslot
    exact hnodup.1

/-- Ranges of slots have failed for one reason. -/
theorem settles_failRanges (h : accounts.ledger.Ordered) {ranges : List SlotRange}
    (hranges : ∀ range ∈ ranges, range.first ≤ range.last)
    (hnodup : (ranges.flatMap SlotRange.slots).Nodup)
    (hlength : (ranges.flatMap SlotRange.slots).length ≤ Word.max) (reason : FailureReason) :
    Settles accounts ((ranges.flatMap SlotRange.slots).map fun slot => (slot, reason)) []
      (accounts.failRanges ranges reason) := by
  -- range by range; that no slot is in two of them lets the later ones keep the reasons of the
  -- first
  induction ranges generalizing accounts with
  | nil => exact .refl h
  | cons range rest ih =>
    rw [List.flatMap_cons, List.nodup_append'] at hnodup
    rw [List.flatMap_cons, List.length_append] at hlength
    have hfirst := settles_fail h (hranges range List.mem_cons_self) (by omega) reason
    have hrest := ih hfirst.ordered
      (fun other hother => hranges other (List.mem_cons_of_mem _ hother)) hnodup.2.1 (by omega)
    rw [List.flatMap_cons, List.map_append]
    refine hfirst.trans hrest ?_
    simpa [Function.comp_def] using hnodup.2.2

@[simp] theorem failSlots_forwarded (accounts : Accounts)
    (failures : List (Nat × FailureReason)) :
    (accounts.failSlots failures).forwarded = accounts.forwarded := by
  induction failures generalizing accounts with
  | nil => rfl
  | cons failure rest ih => exact ih (accounts.fail (.single failure.1) failure.2)

@[simp] theorem failSlots_skipped (accounts : Accounts) (failures : List (Nat × FailureReason)) :
    (accounts.failSlots failures).skipped = accounts.skipped := by
  induction failures generalizing accounts with
  | nil => rfl
  | cons failure rest ih => exact ih (accounts.fail (.single failure.1) failure.2)

@[simp] theorem failRanges_forwarded (accounts : Accounts) (ranges : List SlotRange)
    (reason : FailureReason) :
    (accounts.failRanges ranges reason).forwarded = accounts.forwarded := by
  induction ranges generalizing accounts with
  | nil => rfl
  | cons range rest ih => exact ih (accounts.fail range reason)

@[simp] theorem failRanges_skipped (accounts : Accounts) (ranges : List SlotRange)
    (reason : FailureReason) :
    (accounts.failRanges ranges reason).skipped = accounts.skipped := by
  induction ranges generalizing accounts with
  | nil => rfl
  | cons range rest ih => exact ih (accounts.fail range reason)

/-! ### Deliveries -/

/-- What fetched slots change in the accounts. -/
theorem foldl_succeed (accounts : Accounts) (slots : List (Nat × Nat)) :
    let after := slots.foldl (fun accounts slot => accounts.succeed slot.2) accounts
    after.ledger = accounts.ledger ∧ after.failed = accounts.failed ∧
      after.exhausted = accounts.exhausted ∧ after.forwarded = accounts.forwarded ∧
      after.skipped = accounts.skipped ∧ after.succeeded = accounts.succeeded + slots.length := by
  induction slots generalizing accounts with
  | nil => exact ⟨rfl, rfl, rfl, rfl, rfl, rfl⟩
  | cons slot rest ih =>
    obtain ⟨hledger, hfailed, hexhausted, hforwarded, hskipped, hsucceeded⟩ :=
      ih (accounts.succeed slot.2)
    refine ⟨hledger, hfailed, hexhausted, hforwarded, hskipped, hsucceeded.trans ?_⟩
    simp only [succeed, List.length_cons]
    omega

/-- **A delivery settles all its slots in one way.** -/
theorem settles_deliver (h : accounts.ledger.Ordered) {delivery : Delivery}
    (hnodup : (delivery.slots.map (·.1)).Nodup) (result : Except DispatchError Unit) :
    Settles accounts (delivery.failures result) (delivery.fetched result)
      (accounts.deliver delivery result) := by
  cases result with
  | ok =>
    -- the ledger is not touched, only the counts of fetched slots are
    obtain ⟨hledger, hfailed, hexhausted, -, -, hsucceeded⟩ := foldl_succeed
      { accounts with
        forwarded := accounts.forwarded + delivery.records.length
        skipped := accounts.skipped + delivery.skipped } delivery.slots
    refine ⟨?_, by simp [Delivery.failures], fun slot _ => ?_, hfailed, hexhausted, ?_⟩
    · exact hledger ▸ h
    · exact congrArg (Ledger.reasonOf? · slot) hledger
    · rw [Delivery.fetched, List.length_map]
      exact hsucceeded
  | error error =>
    -- every slot of the delivery fails, and the failed delivery is told on the way
    have hkeys : ((delivery.failures (.error error)).map (·.1)).Nodup := by
      simpa [Delivery.failures, Function.comp_def] using hnodup
    have htold : Ledger.Ordered
        { accounts with telemetry := accounts.telemetry.dispatchFailure }.ledger := h
    exact (settles_failSlots htold hkeys).of_told

end Accounts

/-! ### What a result says -/

namespace Accounts

/-- Outcomes of other slots do not matter for a slot. -/
theorem outcomeOf_filter {outcomes : Outcomes} {slot other : Nat} (h : other ≠ slot) :
    outcomeOf (outcomes.filter (·.1 != slot)) other = outcomeOf outcomes other := by
  suffices hlookup : (outcomes.filter (·.1 != slot)).lookup other = outcomes.lookup other by
    rw [outcomeOf, outcomeOf, hlookup]
  induction outcomes with
  | nil => rfl
  | cons pair rest ih =>
    obtain ⟨key, outcome⟩ := pair
    by_cases hkey : key = slot
    · subst hkey
      have hother : (other == key) = false := by simpa using h
      simp [List.lookup_cons, hother, ih]
    · simp [List.lookup_cons, hkey, ih]

theorem outcomesOf_eq {slots : List Nat} (h : slots.Nodup) (outcomes : Outcomes) :
    outcomesOf outcomes slots = slots.map fun slot => (slot, outcomeOf outcomes slot) := by
  induction slots generalizing outcomes with
  | nil => rfl
  | cons slot rest ih =>
    rw [List.nodup_cons] at h
    rw [outcomesOf, ih h.2, List.map_cons]
    congr 1
    refine List.map_congr_left fun other hother => ?_
    have hne : other ≠ slot := fun heq => h.1 (heq ▸ hother)
    rw [outcomeOf_filter hne]

/-- A slot that is listed, or was there with the same outcome, is there afterwards. -/
theorem lookup_foldl_insert {answer : Nat → Outcome} {slots : List Nat} {slot : Nat}
    {outcomes : Outcomes} (h : slot ∈ slots ∨ outcomes.lookup slot = some (answer slot)) :
    ((slots.map fun slot => (slot, answer slot)).foldl
      (fun outcomes pair => Outcomes.insert pair.1 pair.2 outcomes) outcomes).lookup slot =
      some (answer slot) := by
  induction slots generalizing outcomes with
  | nil => simpa using h
  | cons other rest ih =>
    refine ih ?_
    by_cases heq : slot = other
    · subst heq
      exact .inr (Outcomes.lookup_insert_self _ _ _)
    · rw [Outcomes.lookup_insert_of_ne heq]
      simpa [heq] using h

theorem outcomeOf_ofList {slots : List Nat} {slot : Nat} (h : slot ∈ slots)
    (answer : Nat → Outcome) :
    outcomeOf (.ofList (slots.map fun slot => (slot, answer slot))) slot = answer slot := by
  rw [outcomeOf, Outcomes.ofList, lookup_foldl_insert (.inl h)]
  rfl

theorem outcomeOf_uniform {slots : List Nat} {slot : Nat} (h : slot ∈ slots)
    (reason : FailureReason) : outcomeOf (.uniform slots reason) slot = .failed reason :=
  outcomeOf_ofList h fun _ => .failed reason

end Accounts

namespace BatchResult

variable {result : BatchResult}

theorem answers_eq (h : result.batch.slots.Nodup) :
    result.answers = result.batch.slots.map fun slot =>
      (slot, Accounts.outcomeOf result.outcomes slot) :=
  Accounts.outcomesOf_eq h _

/-- **The slots that have failed by a result**, with their reasons. -/
theorem mem_failures (h : result.batch.slots.Nodup) {slot : Nat} {reason : FailureReason} :
    (slot, reason) ∈ result.failures ↔
      slot ∈ result.batch.slots ∧ Accounts.outcomeOf result.outcomes slot = .failed reason := by
  rw [failures, answers_eq h, List.filterMap_map, List.mem_filterMap]
  constructor
  · rintro ⟨other, hother, hfailure⟩
    simp only [Function.comp_apply] at hfailure
    cases houtcome : Accounts.outcomeOf result.outcomes other <;>
      simp only [houtcome, Accounts.failure?, Option.some.injEq, Prod.mk.injEq, reduceCtorEq]
        at hfailure
    obtain ⟨rfl, rfl⟩ := hfailure
    exact ⟨hother, houtcome⟩
  · rintro ⟨hslot, houtcome⟩
    exact ⟨slot, hslot, by simp [houtcome, Accounts.failure?]⟩

/-- **The slots that were fetched by a result**, with their blocks. -/
theorem mem_blocks (h : result.batch.slots.Nodup) {slot : Nat} {block : Json} :
    (slot, block) ∈ result.blocks ↔
      slot ∈ result.batch.slots ∧ Accounts.outcomeOf result.outcomes slot = .fetched block := by
  rw [blocks, answers_eq h, List.filterMap_map, List.mem_filterMap]
  constructor
  · rintro ⟨other, hother, hfetched⟩
    simp only [Function.comp_apply] at hfetched
    cases houtcome : Accounts.outcomeOf result.outcomes other <;>
      simp only [houtcome, Accounts.fetched?, Option.some.injEq, Prod.mk.injEq, reduceCtorEq]
        at hfetched
    obtain ⟨rfl, rfl⟩ := hfetched
    exact ⟨hother, houtcome⟩
  · rintro ⟨hslot, houtcome⟩
    exact ⟨slot, hslot, by simp [houtcome, Accounts.fetched?]⟩

/-- **A result settles every slot of its batch**, each in one way. -/
theorem slots_perm (h : result.batch.slots.Nodup) :
    (result.failures.map (·.1) ++ result.blocks.map (·.1)).Perm result.batch.slots := by
  rw [failures, blocks, answers_eq h]
  generalize result.batch.slots = slots
  -- each slot of the batch goes to one of the two lists
  induction slots with
  | nil => exact .refl _
  | cons slot rest ih =>
    rw [List.map_cons]
    cases houtcome : Accounts.outcomeOf result.outcomes slot with
    | fetched block =>
      rw [List.filterMap_cons_none (by rfl), List.filterMap_cons_some (by rfl), List.map_cons]
      exact List.perm_middle.trans (ih.cons slot)
    | failed reason =>
      rw [List.filterMap_cons_some (by rfl), List.filterMap_cons_none (by rfl), List.map_cons]
      exact ih.cons slot

/-- **The result of a batch enters its failures.** -/
theorem settles_settle {accounts : Accounts} (h : accounts.ledger.Ordered)
    (hnodup : result.batch.slots.Nodup) :
    accounts.Settles result.failures [] (accounts.settle result).1 := by
  have hkeys : (result.failures.map (·.1)).Nodup :=
    ((slots_perm hnodup).nodup_iff.mpr hnodup).of_append_left
  have htold : Ledger.Ordered { accounts with telemetry := accounts.telemetry.batch }.ledger := h
  exact (Accounts.settles_failSlots htold hkeys).of_told

theorem flatMap_slots_delivery? (setup : RunSetup) (result : BatchResult) :
    (result.delivery? setup).toList.flatMap (fun delivery => delivery.slots.map (·.1)) =
      result.blocks.map (·.1) := by
  unfold delivery? Delivery.ofBlocks
  split
  · next hempty => rw [List.isEmpty_iff.mp hempty]; rfl
  · cases setup.hasSink <;> simp [Function.comp_def]

end BatchResult

end Backfill
