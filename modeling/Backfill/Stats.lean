import Backfill.Word

/-!
# Counters of an engine

An engine counts what it does over all its runs.  The counters are words and go round at the
upper end.  Rates are computed from them in floating-point arithmetic.

## Main definitions

* `Stats` — the counters.
* `Stats.addAttempt`, `Stats.addRetry`, `Stats.addBatch`, `Stats.addSuccess`,
  `Stats.addFailures` — what raises them.
* `Stats.resolved` — slots that are done.
* `Stats.successRate`, `Stats.averageBatch`, `Stats.throughput` — rates.
* `seconds` — a duration in seconds.
-/

namespace Backfill

/-- Counters of an engine. -/
structure Stats where
  /-- Requests sent, repeated ones included. -/
  attempts : Nat
  /-- Requests repeated after a failure. -/
  retries : Nat
  batches : Nat
  successes : Nat
  failures : Nat
  /-- Transactions in fetched blocks. -/
  transactions : Nat
deriving DecidableEq, Repr

namespace Stats

/-- All counters at zero. -/
def zero : Stats := ⟨0, 0, 0, 0, 0, 0⟩

instance : Inhabited Stats := ⟨zero⟩

/-- A request is sent. -/
def addAttempt (stats : Stats) : Stats := { stats with attempts := Word.wrap (stats.attempts + 1) }

/-- A request is about to be repeated. -/
def addRetry (stats : Stats) : Stats := { stats with retries := Word.wrap (stats.retries + 1) }

/-- The result of a batch has come in. -/
def addBatch (stats : Stats) : Stats := { stats with batches := Word.wrap (stats.batches + 1) }

/-- A slot is done, with so many transactions in its block. -/
def addSuccess (stats : Stats) (transactions : Nat) : Stats :=
  { stats with
    successes := Word.wrap (stats.successes + 1)
    transactions := Word.wrap (stats.transactions + transactions) }

/-- So many slots have failed. -/
def addFailures (stats : Stats) (slots : Nat) : Stats :=
  { stats with failures := Word.wrap (stats.failures + slots) }

/-- Slots that are done, fetched or failed. -/
def resolved (stats : Stats) : Nat := Word.wrap (stats.successes + stats.failures)

end Stats

/-- A word as a floating-point number. -/
def Word.toFloat (n : Nat) : Float := (UInt64.ofNat n).toFloat

/-- So many billionths of a second in seconds.  The whole seconds are rounded apart from the
rest. -/
def seconds (nanos : Nat) : Float :=
  Word.toFloat (nanos / 1000000000) + Word.toFloat (nanos % 1000000000) / 1000000000.0

/-- The least difference between one and a larger floating-point number. -/
def epsilon : Float := Float.ofBits 0x3CB0000000000000

/-- A number of slots per second; zero for no time at all. -/
def perSecond (slots : Nat) (elapsed : Float) : Float :=
  if elapsed <= epsilon then 0.0 else Word.toFloat slots / elapsed

/-- A part in per cent of a whole; zero of nothing. -/
def percentage (part whole : Nat) : Float :=
  if whole = 0 then 0.0 else Word.toFloat part * 100.0 / Word.toFloat whole

namespace Stats

/-- Slots done per second. -/
def throughput (stats : Stats) (elapsed : Float) : Float := perSecond stats.resolved elapsed

/-- Part of the slots done that were fetched, in per cent. -/
def successRate (stats : Stats) : Float := percentage stats.successes stats.resolved

/-- Slots done per batch. -/
def averageBatch (stats : Stats) : Float :=
  if stats.batches = 0 then 0.0 else Word.toFloat stats.resolved / Word.toFloat stats.batches

end Stats

end Backfill
