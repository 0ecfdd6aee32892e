import Backfill.Proofs.RunCounters
import Backfill.Proofs.TelemetryTellings

/-!
# What a run tells telemetry

Every move of a run tells telemetry what it does: the request that it sends, the result that comes
in, one slot or range after the other that has failed or was fetched.  The requests that are told
are those of the history, and as no slot is entered twice, the slots that are told for a label are
those that the ledger holds with that label.

A slot counts as fetched when its block has been handed on, but its transactions are counted as
the client has answered them, before the filter.  The blocks of the fetched slots can be found
among the results that have come in.

## Main definitions

* `requestsIn` — how many requests the history tells of.
* `fetchedBlocks` — the blocks of the slots that count as fetched.

## Main results

* `Run.Orderly.exists_tellings` — what a move tells.
* `Run.tellings_of_execute` — **what a run has told is what its history and its ledger say.**
* `Run.Delivered.slots_fetchedBlocks`, `Run.Delivered.transactions_fetchedBlocks` — **every fetched
  slot is counted with the transactions of its block.**
-/

namespace Backfill

open Telemetry

/-! ### Requests -/

/-- Whether a note is about a request that is sent. -/
def Note.isRequest : Note → Bool
  | .requested _ => true
  | _ => false

/-- How many requests the history tells of. -/
def requestsIn (notes : List Note) : Nat := notes.countP Note.isRequest

@[simp] theorem requestsIn_append (notes more : List Note) :
    requestsIn (notes ++ more) = requestsIn notes + requestsIn more := List.countP_append

theorem Note.IsMute.isRequest {note : Note} (h : note.IsMute) : note.isRequest = false := by
  cases note with
  | requested batch => exact absurd (h .blank).1 (by simp [Story.tell])
  | _ => rfl

/-- **A transition of a pool signals the request that it notes.** -/
theorem Pool.requests_step? {policy : RetryPolicy} {fired : Bool} {before after : Pool}
    {event : Event} {signal : Signal} (h : before.step? policy fired event = some (after, signal)) :
    requestsIn (before.note? fired event).toList = signal.requests := by
  -- Only an attempt can send a request, and it signals just that.
  by_cases hevent : ∀ worker attempt, event ≠ .attempt worker attempt
  · obtain ⟨rfl, hmute⟩ := mute_of_step? h hevent
    refine List.countP_eq_zero.mpr fun note hnote => ?_
    rw [(hmute note hnote).isRequest]
    exact Bool.false_ne_true
  · simp only [not_forall, not_not] at hevent
    obtain ⟨worker, event, rfl⟩ := hevent
    obtain rfl := signal_of_step? h
    cases turn_of_step? h with
    | @attempt worker batch attempt event next htrying =>
      simp only [note?, htrying, signalled_attempt htrying]
      cases event with
      | finish result =>
        cases result with
        | ok outcomes => rfl
        | error error =>
          simp only [signalOf]
          split <;> rfl
      | start | resume | cut => rfl

/-- What is told for a signal. -/
def Pool.Signal.telling : Pool.Signal → List Telling
  | .none => []
  | .attempt => [.attempt]
  | .retry => [.retry]

namespace Run

variable {run next : Run} {note : Option Note} {notes : List Note}
  {failures : List (Nat × FailureReason)}

theorem telemetry_count (accounts : Accounts) (signal : Pool.Signal) :
    (count accounts signal).telemetry = accounts.telemetry.tellAll signal.telling := by
  cases signal <;> rfl

/-! ### One move -/

/-- What is told is about so many requests and about these slots that have failed. -/
structure Tells (tellings : List Telling) (requests : Nat)
    (failures : List (Nat × FailureReason)) : Prop where
  requests : (tellings.map Telling.requests).sum = requests
  failed : ∀ label, (tellings.map (Telling.failed label)).sum =
    failures.countP fun failure => failure.2.label = label

theorem tells_nil : Tells [] 0 [] := ⟨rfl, fun _ => rfl⟩

theorem tells_signal (signal : Pool.Signal) : Tells signal.telling signal.requests [] := by
  cases signal <;> exact ⟨rfl, fun _ => rfl⟩

theorem tells_entering (failures : List (Nat × FailureReason)) :
    Tells (entering failures) 0 failures where
  requests := sum_requests_eq_zero fun telling htelling => by
    obtain ⟨failure, -, rfl⟩ := List.mem_map.mp htelling
    exact nofun
  failed := sum_failed_entering failures

theorem Tells.besides {tellings : List Telling} {requests : Nat}
    (h : Tells tellings requests failures) {telling : Telling} (hrequests : telling.requests = 0)
    (hfailed : ∀ label, telling.failed label = 0) :
    Tells (telling :: tellings) requests failures ∧
      Tells (tellings ++ [telling]) requests failures := by
  refine ⟨⟨?_, fun label => ?_⟩, ⟨?_, fun label => ?_⟩⟩
  · rw [List.map_cons, List.sum_cons, hrequests, Nat.zero_add, h.requests]
  · rw [List.map_cons, List.sum_cons, hfailed, Nat.zero_add, h.failed]
  · simp [hrequests, h.requests]
  · simp [hfailed, h.failed]

theorem tells_delivering (delivery : Delivery) (result : Except DispatchError Unit) :
    Tells (Accounts.delivering delivery result) 0 (delivery.failures result) := by
  cases result with
  | ok =>
    -- A delivery that worked tells of successes alone.
    have hsuccess : ∀ telling ∈ fetching delivery.slots, ∃ transactions,
        telling = .success transactions := fun telling htelling => by
      obtain ⟨slot, -, rfl⟩ := List.mem_map.mp htelling
      exact ⟨slot.2, rfl⟩
    refine ⟨sum_requests_eq_zero fun telling htelling => ?_, fun label => ?_⟩
    · obtain ⟨transactions, rfl⟩ := hsuccess telling htelling
      exact nofun
    · refine List.sum_eq_zero_iff_forall_eq_nat.mpr fun n hn => ?_
      obtain ⟨telling, htelling, rfl⟩ := List.mem_map.mp hn
      obtain ⟨transactions, rfl⟩ := hsuccess telling htelling
      rfl
  | error error => exact ((tells_entering _).besides rfl fun _ => rfl).1

/-- **What a move tells** are the request that it notes and the slots that it enters. -/
theorem Orderly.exists_tellings (h : run.Orderly) (hmove : run.Move note failures next) :
    ∃ tellings, next.accounts.telemetry = run.accounts.telemetry.tellAll tellings ∧
      Tells tellings (requestsIn note.toList) failures := by
  -- Each move is told in the order in which the accounts take it up.
  cases hmove with
  | fire | openCycle | conclude => exact ⟨[], rfl, tells_nil⟩
  | @pool cycle event pool signal hstage hpool =>
    refine ⟨signal.telling, telemetry_count run.accounts signal, ?_⟩
    rw [Pool.requests_step? hpool]
    exact tells_signal signal
  | @intake cycle result =>
    exact ⟨_, Accounts.telemetry_settle run.accounts result,
      ((tells_entering result.failures).besides rfl fun _ => rfl).1⟩
  | @deliver cycle position delivery result =>
    exact ⟨_, Accounts.telemetry_deliver run.accounts delivery result,
      tells_delivering delivery result⟩
  | @closeCycle cycle telemetry _ _ hstats hmetrics =>
    obtain ⟨resolved, percent, hmetrics⟩ := hmetrics
    obtain rfl : telemetry =
        (run.accounts.failSlots cycle.lostSlots).telemetry.cycle resolved percent := by
      obtain ⟨stats, metrics⟩ := telemetry
      exact congrArg₂ Telemetry.mk hstats hmetrics
    refine ⟨entering cycle.lostSlots ++ [.cycle resolved percent], ?_,
      ((tells_entering cycle.lostSlots).besides rfl fun _ => rfl).2⟩
    rw [tellAll_append, ← Accounts.telemetry_failSlots]
    rfl
  | cancelRest hstage =>
    refine ⟨_, Accounts.telemetry_failRanges run.accounts _ .cancelled,
      sum_requests_eq_zero fun telling htelling => ?_, ?_⟩
    · obtain ⟨range, -, rfl⟩ := List.mem_map.mp htelling
      exact nofun
    · have htail := (h.sound.flatMap_slots_tailRanges run.next).length_eq
      have hcount := h.sound.slotCount_le
      rw [h.sound.slotCount_eq] at hcount
      rw [h.sound.flatMap_slots_batchesFrom, List.length_drop] at htail
      exact sum_failed_enteringRanges
        (fun range hrange => h.sound.first_le_last_of_mem_tailRanges hrange) (by omega) .cancelled

/-! ### A whole run -/

variable {setup : RunSetup} {telemetry : Telemetry} {events : List Event}

/-- **What a run has told is what its history and its ledger say**: so many requests, and for each
label the slots of the ledger with that label. -/
theorem tellings_of_execute (h : setup.plan.Sound)
    (hrun : (start setup telemetry).execute events = some run) :
    ∃ tellings, run.accounts.telemetry = telemetry.tellAll tellings ∧
      Tells tellings (requestsIn ((start setup telemetry).notes events))
        run.accounts.ledger.entries := by
  refine (execute_induct (motive := fun run notes => run.Accounted notes ∧
    ∃ tellings, run.accounts.telemetry = telemetry.tellAll tellings ∧
      Tells tellings (requestsIn notes) run.accounts.ledger.entries) hrun
    ⟨accounted_start h telemetry, [.startRun setup.run.requested], rfl, rfl, fun _ => rfl⟩
    fun {before after event notes} ⟨haccounted, tellings, htold, htells⟩ hstep => ?_).2
  obtain ⟨failures, hmove⟩ := move_of_step? hstep
  obtain ⟨more, hmore, hnew⟩ := haccounted.orderly.exists_tellings hmove
  refine ⟨haccounted.move hmove, tellings ++ more, ?_, ?_, fun label => ?_⟩
  · rw [tellAll_append, ← htold, hmore]
  · rw [List.map_append, List.sum_append_nat, htells.requests, hnew.requests, requestsIn_append]
  · -- what is new in the ledger is what the move has entered
    have hsettles := (haccounted.settling hmove).accounts
    have hslots := haccounted.slots_move hmove
    have hentries := hsettles.entries_perm haccounted.ordered
      (hslots.nodup_iff.mp hsettles.ordered.nodup_slots)
    rw [List.map_append, List.sum_append_nat, htells.failed, hnew.failed, hentries.countP_eq,
      List.countP_append, Nat.add_comm]

end Run

/-! ### Fetched blocks -/

/-- The slots that are counted as fetched by what is noted, with the number of transactions that
is counted for each. -/
def Note.counted : Note → List (Nat × Nat)
  | .delivered delivery (.ok ()) => delivery.slots
  | _ => []

theorem Note.map_fst_counted (note : Note) : note.counted.map (·.1) = note.fetched := by
  cases note with
  | delivered delivery result => cases result <;> rfl
  | _ => rfl

theorem Note.sum_snd_counted (note : Note) : (note.counted.map (·.2)).sum = note.transactions := by
  cases note with
  | delivered delivery result => cases result <;> rfl
  | _ => rfl

/-- The blocks of the slots that count as fetched, as the client has answered them. -/
def fetchedBlocks (notes : List Note) : List (Nat × Json) :=
  ((resultsIn notes).flatMap BatchResult.blocks).filter fun block =>
    block.1 ∈ notes.flatMap Note.fetched

/-- A fetched block as it is counted. -/
def Block.counted (block : Nat × Json) : Nat × Nat := (block.1, Block.transactionCount block.2)

theorem BatchResult.flatMap_counted_delivery? (setup : RunSetup) (result : BatchResult) :
    (result.delivery? setup).toList.flatMap (·.slots) = result.blocks.map Block.counted := by
  unfold delivery? Delivery.ofBlocks
  split
  · next hempty => rw [List.isEmpty_iff.mp hempty]; rfl
  · cases setup.hasSink <;> simp [Block.counted]

namespace Run

variable {run : Run} {notes : List Note}

/-- How a delivery ends decides which of its slots count as fetched: all or none. -/
theorem Delivered.counted_eq_filter (h : run.Delivered notes) {delivery : Delivery}
    {result : Except DispatchError Unit} (hmem : .delivered delivery result ∈ notes) :
    (Note.delivered delivery result).counted =
      delivery.slots.filter fun slot => slot.1 ∈ notes.flatMap Note.fetched := by
  cases result with
  | ok =>
    refine (List.filter_eq_self.mpr fun slot hslot => decide_eq_true ?_).symm
    exact List.mem_flatMap.mpr ⟨_, hmem, List.mem_map_of_mem hslot⟩
  | error error =>
    refine (List.filter_eq_nil_iff.mpr fun slot hslot => ?_).symm
    -- the slot is in the ledger, and what is in the ledger was not fetched
    rw [decide_eq_true_iff]
    intro hfetched
    have hreason := (h.ends delivery _ hmem slot.1 (List.mem_map_of_mem hslot)).2
    have hfailed : slot.1 ∈ run.accounts.ledger.slots := by
      rw [Ledger.mem_slots, hreason]
      rfl
    exact (List.nodup_append'.mp h.accounted.nodup.of_append_left).2.2 hfetched hfailed

/-- **Every fetched slot is counted with the transactions of its block.** -/
theorem Delivered.counted_perm (h : run.Delivered notes) (hover : run.deliveries = []) :
    (notes.flatMap Note.counted).Perm ((fetchedBlocks notes).map Block.counted) := by
  let isFetched : Nat × Nat → Bool := fun slot => slot.1 ∈ notes.flatMap Note.fetched
  have hdeliveries := h.deliveries
  rw [hover, List.append_nil] at hdeliveries
  -- Both sides are the slots of the deliveries, less those that did not arrive.
  have hnotes : notes.flatMap Note.counted =
      (deliveriesOver notes).flatMap fun delivery => delivery.slots.filter isFetched := by
    rw [deliveriesOver, List.filterMap_eq_flatMap_toList, List.flatMap_assoc]
    refine List.flatMap_congr fun note hnote => ?_
    cases note with
    | delivered delivery result =>
      rw [h.counted_eq_filter hnote]
      exact (List.append_nil _).symm
    | _ => rfl
  have hresults : ((resultsIn notes).filterMap (·.delivery? run.setup)).flatMap
      (fun delivery => delivery.slots.filter isFetched) =
      (fetchedBlocks notes).map Block.counted := by
    show _ = (((resultsIn notes).flatMap BatchResult.blocks).filter
      (isFetched ∘ Block.counted)).map Block.counted
    rw [← List.filter_map, List.map_flatMap, List.filter_flatMap, List.filterMap_eq_flatMap_toList,
      List.flatMap_assoc]
    refine List.flatMap_congr fun result _ => ?_
    rw [← result.flatMap_counted_delivery? run.setup, List.filter_flatMap]
  rw [hnotes, ← hresults]
  exact hdeliveries.flatMap_right _

/-- **The fetched blocks are those of the slots that count as fetched.** -/
theorem Delivered.slots_fetchedBlocks (h : run.Delivered notes) (hover : run.deliveries = []) :
    ((fetchedBlocks notes).map (·.1)).Perm (notes.flatMap Note.fetched) := by
  have hperm := (h.counted_perm hover).symm.map (·.1)
  rw [List.map_map, List.map_flatMap] at hperm
  refine hperm.trans (.of_eq ?_)
  exact List.flatMap_congr fun note _ => note.map_fst_counted

/-- **The transactions that are counted are those of the fetched blocks.** -/
theorem Delivered.transactions_fetchedBlocks (h : run.Delivered notes)
    (hover : run.deliveries = []) :
    (notes.map Note.transactions).sum =
      ((fetchedBlocks notes).map fun block => Block.transactionCount block.2).sum := by
  have hperm := ((h.counted_perm hover).map (·.2)).sum_nat
  rw [List.map_map, List.map_flatMap, List.flatMap_def, List.sum_flatten, List.map_map] at hperm
  refine .trans (congrArg List.sum ?_) hperm
  exact List.map_congr_left fun note _ => note.sum_snd_counted.symm

end Run

end Backfill
