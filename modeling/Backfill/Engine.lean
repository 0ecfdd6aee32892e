import Backfill.Run
import Backfill.Settings.Lookup

/-!
# Engines

An engine has settings and telemetry; it makes one run after the other.  A run is over a
range of slots, walked in the direction of the settings, or over a list of slots, which is
sorted and freed of repetitions first.

## Main definitions

* `RunSetup.ofRange`, `RunSetup.ofSlots` — the two kinds of runs.
* `RunSetup.sorted` — a list of slots in ascending order, each slot once.
-/

namespace Backfill

namespace RunSetup

/-- A run over a plan, with the settings of the engine. -/
def ofPlan (settings : Settings) (hasSink : Bool) (run : RunMeta) (plan : Plan) : RunSetup where
  run := run
  plan := plan
  policy := settings.retryPolicy
  workers := settings.workers
  queueCapacity := settings.queueCapacity
  filter := ⟨settings.requiredAccount⟩
  hasSink := hasSink

/-- A run over a range. -/
def ofRange (settings : Settings) (hasSink : Bool) (range : SlotRange) (startedAt : Int) :
    RunSetup :=
  ofPlan settings hasSink ⟨.fetch, range, range.count, startedAt⟩
    (.ofSource (.span range settings.scanOrder) settings.batchSize settings.batchesPerCycle)

/-- A list of slots in ascending order, each slot once. -/
def sorted (slots : List Nat) : List Nat := (slots.mergeSort fun a b => decide (a ≤ b)).eraseReps

/-- A run over a list of slots. -/
def ofSlots (settings : Settings) (hasSink : Bool) (slots : List Nat) (startedAt : Int) :
    RunSetup :=
  let slots := sorted slots
  let range := (SlotRange.bounding slots).getD (.single 0)
  ofPlan settings hasSink ⟨.replay, range, slots.length, startedAt⟩
    (.ofSource (.listed slots) settings.batchSize settings.batchesPerCycle)

end RunSetup

end Backfill
