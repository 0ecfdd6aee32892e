import Backfill.Block
import Backfill.Dispatch
import Backfill.Ledger
import Backfill.Pool
import Backfill.Telemetry

/-!
# The accounts of a run

While a run goes on, every slot that is settled is entered into the accounts: as fetched, or
as failed for a reason.  Fetched blocks are handed on batch by batch, and count as fetched
only when that has worked.

## Main definitions

* `Accounts` — totals, ledger and telemetry.
* `Accounts.fail`, `Accounts.failSlots` — slots have failed.
* `Delivery` — the fetched blocks of a batch on their way; `Delivery.ofBlocks` prepares them.
* `Accounts.settle` — the result of a batch comes in.
* `Accounts.deliver` — a delivery is over.
-/

namespace Backfill

/-- Totals, ledger and telemetry of a run. -/
structure Accounts where
  succeeded : Nat
  failed : Nat
  forwarded : Nat
  skipped : Nat
  /-- Slots whose batch used up its attempts. -/
  exhausted : Nat
  ledger : Ledger
  telemetry : Telemetry
deriving DecidableEq, Repr, Inhabited

/-- The fetched blocks of a batch on their way. -/
structure Delivery where
  /-- The fetched slots, with the number of transactions in their blocks. -/
  slots : List (Nat × Nat)
  /-- What is handed on. -/
  records : List DispatchRecord
  /-- How many blocks there is nothing to hand on of. -/
  skipped : Nat
deriving DecidableEq, Repr, Inhabited

namespace Delivery

/-- The record of a fetched block, unless the filter leaves nothing of it. -/
def record? (filter : BlockFilter) (fetched : Nat × Json) : Option DispatchRecord :=
  (filter.apply fetched.2).map (DispatchRecord.ofBlock fetched.1)

/-- The fetched blocks of a batch.  Without anybody to hand them on to, there is nothing to
hand on and nothing is skipped. -/
def ofBlocks (filter : BlockFilter) (hasSink : Bool) (fetched : List (Nat × Json)) : Delivery :=
  let slots := fetched.map fun block => (block.1, Block.transactionCount block.2)
  let records := fetched.filterMap (record? filter)
  if hasSink then ⟨slots, records, slots.length - records.length⟩ else ⟨slots, [], 0⟩

end Delivery

namespace Accounts

/-- Nothing has been settled yet. -/
def ofTelemetry (telemetry : Telemetry) : Accounts := ⟨0, 0, 0, 0, 0, .empty, telemetry⟩

/-- Number of slots that are settled. -/
def resolved (accounts : Accounts) : Nat := accounts.succeeded + accounts.failed

/-- The slots of a range have failed for a reason. -/
def fail (accounts : Accounts) (range : SlotRange) (reason : FailureReason) : Accounts :=
  { accounts with
    failed := accounts.failed + range.count
    exhausted := accounts.exhausted + if reason.isExhausted then range.count else 0
    ledger := accounts.ledger.recordRange range reason
    telemetry := accounts.telemetry.failures reason range.count }

/-- Ranges of slots have failed for the same reason. -/
def failRanges (accounts : Accounts) (ranges : List SlotRange) (reason : FailureReason) :
    Accounts :=
  ranges.foldl (fun accounts range => accounts.fail range reason) accounts

/-- Slots have failed, each for its reason. -/
def failSlots (accounts : Accounts) (failures : List (Nat × FailureReason)) : Accounts :=
  failures.foldl (fun accounts failure => accounts.fail (.single failure.1) failure.2) accounts

/-- The outcome of a slot of a batch; a slot without one got no answer. -/
def outcomeOf (outcomes : Outcomes) (slot : Nat) : Outcome :=
  (outcomes.lookup slot).getD (.failed .noResponse)

/-- The outcomes of the slots of a batch, in the order of the batch.  The outcome of a slot
that is listed twice is used up at the first place. -/
def outcomesOf (outcomes : Outcomes) : List Nat → List (Nat × Outcome)
  | [] => []
  | slot :: rest =>
    (slot, outcomeOf outcomes slot) :: outcomesOf (outcomes.filter (·.1 != slot)) rest

/-- The block of a fetched slot. -/
def fetched? : Nat × Outcome → Option (Nat × Json)
  | (slot, .fetched block) => some (slot, block)
  | (_, .failed _) => none

/-- The reason of a failed slot. -/
def failure? : Nat × Outcome → Option (Nat × FailureReason)
  | (_, .fetched _) => none
  | (slot, .failed reason) => some (slot, reason)

/-- The result of a batch comes in: its failures are entered, its blocks are still to be
handed on. -/
def settle (accounts : Accounts) (result : BatchResult) : Accounts × List (Nat × Json) :=
  let outcomes := outcomesOf result.outcomes result.batch.slots
  let accounts := { accounts with telemetry := accounts.telemetry.batch }
  (accounts.failSlots (outcomes.filterMap failure?), outcomes.filterMap fetched?)

/-- A fetched slot is entered, with the number of transactions in its block. -/
def succeed (accounts : Accounts) (transactions : Nat) : Accounts :=
  { accounts with
    succeeded := accounts.succeeded + 1
    telemetry := accounts.telemetry.success transactions }

/-- A delivery is over: its slots are fetched, or all of them have failed. -/
def deliver (accounts : Accounts) (delivery : Delivery) (result : Except DispatchError Unit) :
    Accounts :=
  match result with
  | .ok () =>
    delivery.slots.foldl (fun accounts slot => accounts.succeed slot.2)
      { accounts with
        forwarded := accounts.forwarded + delivery.records.length
        skipped := accounts.skipped + delivery.skipped }
  | .error error =>
    let told := { accounts with telemetry := accounts.telemetry.dispatchFailure }
    let reason := FailureReason.dispatchFailed error.message
    told.failSlots (delivery.slots.map fun slot => (slot.1, reason))

end Accounts

end Backfill
