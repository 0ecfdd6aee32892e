import Backfill.Simulation.Rehearsal

/-!
# Series of runs

An engine makes one run after the other.  Its counters go on from run to run, and a run may
be asked to fetch the slots that failed in the run before.

## Main definitions

* `Series` — an engine with the script of its surroundings.
* `Series.Request` — which slots a run is asked for.
* `Series.play` — rehearses runs one after the other.
-/

namespace Backfill

/-- An engine with the script of its surroundings. -/
structure Series where
  settings : Settings
  script : Script
  sink : Option Sink

namespace Series

/-- Which slots a run is asked for. -/
inductive Request
  | bounds (first last : Nat)
  | slots (slots : List Nat)
  /-- Those that failed in the run before. -/
  | again
deriving DecidableEq, Repr

/-- The setup of a run after one with these failed slots. -/
def setup (series : Series) (failed : Ledger) : Request → Except RangeError RunSetup
  | .bounds first last =>
    (SlotRange.ofBounds first last).map fun range =>
      .ofRange series.settings series.sink.isSome range 0
  | .slots slots => .ok (.ofSlots series.settings series.sink.isSome slots 0)
  | .again => .ok (.ofSlots series.settings series.sink.isSome failed.slots 0)

/-- Rehearses runs one after the other, each with the time at which its token fires; what was
counted at the end is told too. -/
def play (series : Series) (telemetry : Telemetry) (failed : Ledger) :
    List (Request × Option Nat) → List (Except RangeError RunRehearsal) × Telemetry
  | [] => ([], telemetry)
  | (request, alarm) :: rest =>
    match series.setup failed request with
    | .error error =>
      let (others, told) := series.play telemetry failed rest
      (.error error :: others, told)
    | .ok setup =>
      let played := RunRehearsal.play series.script series.sink alarm setup telemetry
      let accounts := played.run.accounts
      let (others, told) := series.play accounts.telemetry accounts.ledger rest
      (.ok played :: others, told)

end Series

end Backfill
