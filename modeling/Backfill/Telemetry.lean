import Backfill.Stats
import Backfill.Metrics

/-!
# Telemetry

The counters of an engine and the metrics of the program are raised together.

## Main definitions

* `Telemetry` — both.
* `Telemetry.attempt`, `Telemetry.retry`, `Telemetry.batch`, `Telemetry.success`,
  `Telemetry.failures`, `Telemetry.dispatchFailure`, `Telemetry.startRun`,
  `Telemetry.cycle` — what is told.
-/

namespace Backfill

/-- The counters of an engine and the metrics of the program. -/
structure Telemetry where
  stats : Stats
  metrics : Metrics
deriving DecidableEq, Repr, Inhabited

namespace Telemetry

/-- Nothing has been told. -/
def zero : Telemetry := ⟨.zero, .zero⟩

/-- A request is sent. -/
def attempt (telemetry : Telemetry) : Telemetry :=
  ⟨telemetry.stats.addAttempt, telemetry.metrics.addRequests 1⟩

/-- A request is about to be repeated. -/
def retry (telemetry : Telemetry) : Telemetry :=
  ⟨telemetry.stats.addRetry, telemetry.metrics.addRetries 1⟩

/-- The result of a batch has come in. -/
def batch (telemetry : Telemetry) : Telemetry := ⟨telemetry.stats.addBatch, telemetry.metrics⟩

/-- A slot is done, with so many transactions in its block. -/
def success (telemetry : Telemetry) (transactions : Nat) : Telemetry :=
  ⟨telemetry.stats.addSuccess transactions, telemetry.metrics.addSucceeded 1⟩

/-- So many slots have failed for a reason. -/
def failures (telemetry : Telemetry) (reason : FailureReason) (slots : Nat) : Telemetry :=
  ⟨telemetry.stats.addFailures slots, telemetry.metrics.addFailed reason slots⟩

/-- A delivery has failed. -/
def dispatchFailure (telemetry : Telemetry) : Telemetry :=
  ⟨telemetry.stats, telemetry.metrics.addDispatchFailures 1⟩

/-- A run over so many slots starts. -/
def startRun (telemetry : Telemetry) (requested : Nat) : Telemetry :=
  ⟨telemetry.stats, telemetry.metrics.startRun requested⟩

/-- A cycle is complete; so many slots of the run are done. -/
def cycle (telemetry : Telemetry) (resolved percent : Nat) : Telemetry :=
  ⟨telemetry.stats, (telemetry.metrics.addCycles 1).progress resolved percent⟩

end Telemetry

end Backfill
