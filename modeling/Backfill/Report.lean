import Backfill.Decimal.Dyadic
import Backfill.Ledger.File
import Backfill.Stats

/-!
# The report of a run

## Main definitions

* `RunReport` — what came of a run.
* `RunReport.isFullyAccounted` — whether every slot asked for was fetched or has failed.
* `RunReport.summary` — the report as it is told to the user.
* `RunOutcome` — the report, and whether it shows that the provider cannot be reached.
-/

namespace Backfill

/-- A stretch of time. -/
structure Elapsed where
  /-- Its length in billionths of a second. -/
  nanos : Nat
deriving DecidableEq, Repr, Inhabited

/-- The stretch of time in seconds. -/
def Elapsed.inSeconds (elapsed : Elapsed) : Float := seconds elapsed.nanos

/-- What came of a run. -/
structure RunReport where
  run : RunMeta
  succeeded : Nat
  /-- Blocks that were handed on. -/
  forwarded : Nat
  /-- Blocks of which nothing was left to hand on. -/
  skipped : Nat
  ledger : Ledger
  cancelled : Bool
  elapsed : Elapsed
  /-- The counters of the engine at the end of the run. -/
  stats : Stats
deriving DecidableEq, Repr, Inhabited

namespace RunReport

/-- Number of slots that failed. -/
def failed (report : RunReport) : Nat := report.ledger.size

/-- Whether every slot asked for was fetched or has failed. -/
def isFullyAccounted (report : RunReport) : Bool :=
  report.succeeded + report.failed == report.run.requested

/-- Slots done per second. -/
def throughput (report : RunReport) : Float :=
  perSecond (report.succeeded + report.failed) report.elapsed.inSeconds

/-- Part of the slots asked for that were fetched, in per cent. -/
def successRate (report : RunReport) : Float := percentage report.succeeded report.run.requested

/-- How many slots failed, and why. -/
def failureText (report : RunReport) : String :=
  if report.failed = 0 then s!"{report.failed}"
  else s!"{report.failed} (" ++ report.ledger.reasonCounts.render ", " ++ ")"

/-- The line about blocks that were handed on, if there is anything to tell. -/
def forwardLines (report : RunReport) : List String :=
  if report.forwarded = 0 ∧ report.skipped = 0 then []
  else [s!"  forwarded:    {report.forwarded} (skipped {report.skipped} " ++
    "without matching transactions)"]

/-- The lines of the report as it is told to the user. -/
def summaryLines (report : RunReport) : List String :=
  [report.run.label.text ++ " " ++ report.run.range.display ++
      (if report.cancelled then " (cancelled)" else ""),
    s!"  requested:    {report.run.requested}",
    s!"  succeeded:    {report.succeeded}",
    "  failed:       " ++ report.failureText] ++
  report.forwardLines ++
  ["  elapsed:      " ++ Decimal.fixed 1 report.elapsed.inSeconds ++ "s",
    "  throughput:   " ++ Decimal.fixed 1 report.throughput ++ " slots/s",
    "  success rate: " ++ Decimal.fixed 2 report.successRate ++ "%",
    s!"  requests:     {report.stats.attempts} ({report.stats.retries} retries, " ++
      s!"{report.stats.transactions} transactions fetched)"]

/-- The report as it is told to the user. -/
def summary (report : RunReport) : String := String.join (report.summaryLines.map (· ++ "\n"))

end RunReport

/-- What a run leads to. -/
inductive RunOutcome
  | complete (report : RunReport)
  /-- Every request failed as a whole, so there is nobody to talk to. -/
  | unreachable (report : RunReport)
deriving DecidableEq, Repr

namespace RunOutcome

/-- The report. -/
def report : RunOutcome → RunReport
  | .complete report => report
  | .unreachable report => report

/-- The number of slots that is told to have failed when the provider cannot be reached. -/
def allFailed? : RunOutcome → Option Nat
  | .complete _ => none
  | .unreachable report => some report.run.requested

/-- Told when the provider cannot be reached. -/
def unreachableMessage (report : RunReport) : String :=
  s!"RPC provider unreachable: all {report.run.requested} requested slots exhausted retries"

end RunOutcome

end Backfill
