import Backfill.Word
import Backfill.Failure

/-!
# Metrics

What a monitoring system sees of the program: counters over all runs, and gauges that
describe the active run.  They are told as text, one line for each value, after a line with
its purpose and one with its kind.

## Main definitions

* `LabelCounts` — counts by label, sorted by label; `LabelCounts.add` raises one.
* `BuildInfo` — version and commit of the program, one of the things told.
* `Metrics` — the counters and gauges.
* `Metrics.startRun`, `Metrics.progress`, `Metrics.addFailed` — what changes them.
* `Metrics.exposition` — the lines of the text; `Metrics.buildExposition` adds the identity
  of the build.

## Main results

* `LabelCounts.get_add_of_ne` — raising a count leaves the others as they are.
-/

namespace Backfill

/-- Counts by label, sorted by label. -/
abbrev LabelCounts := List (String × Nat)

namespace LabelCounts

/-- Raises the count of a label by `n`; the label is listed from then on. -/
def add (label : String) (n : Nat) : LabelCounts → LabelCounts
  | [] => [(label, Word.wrap n)]
  | (l, count) :: rest =>
    if label < l then (label, Word.wrap n) :: (l, count) :: rest
    else if label = l then (l, Word.wrap (count + n)) :: rest
    else (l, count) :: add label n rest

/-- The count of a label; zero if it is not listed. -/
def get (counts : LabelCounts) (label : String) : Nat := (counts.lookup label).getD 0

/-- The counts written out, one after the other. -/
def render (separator : String) (counts : LabelCounts) : String :=
  separator.intercalate (counts.map fun count => s!"{count.1}={count.2}")

/-- Raising a count leaves the others as they are. -/
theorem get_add_of_ne {label other : String} (h : other ≠ label) (n : Nat)
    (counts : LabelCounts) : get (add label n counts) other = get counts other := by
  have hother : (other == label) = false := by simpa using h
  induction counts with
  | nil => simp [add, get, List.lookup_cons, hother]
  | cons count rest ih =>
    obtain ⟨l, c⟩ := count
    simp only [get] at ih
    simp only [add]
    split
    · simp [get, List.lookup_cons, hother]
    · split
      · rename_i hl
        subst hl
        simp [get, List.lookup_cons, hother]
      · simp only [get, List.lookup_cons]
        cases other == l <;> simp [ih]

end LabelCounts

/-- Version and commit of a build. -/
structure BuildInfo where
  version : String
  commit : String
deriving DecidableEq, Repr, Inhabited

namespace BuildInfo

/-- The name under which the program presents itself. -/
def service : String := "slot_fetcher"

/-- This build. -/
def current : BuildInfo := ⟨"0.1.0", "0123456789abcdef0123456789abcdef01234567"⟩

/-- Version and commit. -/
def long (info : BuildInfo) : String := info.version ++ "+" ++ info.commit

/-- The first twelve characters of the commit, or `unknown`. -/
def short (info : BuildInfo) : String :=
  if info.commit = "unknown" then info.commit else String.ofList (info.commit.toList.take 12)

/-- How the program presents itself to other services. -/
def userAgent (info : BuildInfo) : String := service ++ "/" ++ info.version ++ "+" ++ info.short

end BuildInfo

/-- Counters over all runs and gauges of the active run. -/
structure Metrics where
  requests : Nat
  retries : Nat
  succeeded : Nat
  failed : LabelCounts
  dispatchFailures : Nat
  cycles : Nat
  target : Int
  resolved : Int
  percent : Int
deriving DecidableEq, Repr

namespace Metrics

/-- Nothing counted. -/
def zero : Metrics := ⟨0, 0, 0, [], 0, 0, 0, 0, 0⟩

instance : Inhabited Metrics := ⟨zero⟩

/-- So many requests have been sent. -/
def addRequests (metrics : Metrics) (n : Nat) : Metrics :=
  { metrics with requests := Word.wrap (metrics.requests + n) }

/-- So many requests are about to be repeated. -/
def addRetries (metrics : Metrics) (n : Nat) : Metrics :=
  { metrics with retries := Word.wrap (metrics.retries + n) }

/-- So many slots have been fetched. -/
def addSucceeded (metrics : Metrics) (n : Nat) : Metrics :=
  { metrics with succeeded := Word.wrap (metrics.succeeded + n) }

/-- So many slots have failed for a reason. -/
def addFailed (metrics : Metrics) (reason : FailureReason) (n : Nat) : Metrics :=
  { metrics with failed := metrics.failed.add reason.label n }

/-- So many deliveries have failed. -/
def addDispatchFailures (metrics : Metrics) (n : Nat) : Metrics :=
  { metrics with dispatchFailures := Word.wrap (metrics.dispatchFailures + n) }

/-- So many cycles are complete. -/
def addCycles (metrics : Metrics) (n : Nat) : Metrics :=
  { metrics with cycles := Word.wrap (metrics.cycles + n) }

/-- A run over so many slots starts. -/
def startRun (metrics : Metrics) (requested : Nat) : Metrics :=
  { metrics with target := Word.signed requested, resolved := 0, percent := 0 }

/-- So many slots of the active run are done. -/
def progress (metrics : Metrics) (resolved percent : Nat) : Metrics :=
  { metrics with resolved := Word.signed resolved, percent := (min percent 100 : Nat) }

/-! ### The text -/

/-- The two lines in front of the values of a metric. -/
def heading (name kind purpose : String) : List String :=
  [s!"# HELP {name} {purpose}.", s!"# TYPE {name} {kind}"]

/-- The lines of a counter. -/
def counterLines (name purpose : String) (value : Nat) : List String :=
  heading name "counter" purpose ++ [s!"{name}_total {value}"]

/-- The lines of a gauge. -/
def gaugeLines (name purpose : String) (value : Int) : List String :=
  heading name "gauge" purpose ++ [s!"{name} {value}"]

/-- Labels in braces. -/
def labels (pairs : List (String × String)) : String :=
  "\x7b" ++ ",".intercalate (pairs.map fun pair => pair.1 ++ "=\"" ++ pair.2 ++ "\"") ++ "\x7d"

/-- The lines of the slots that failed, by reason. -/
def failedLines (name purpose : String) (counts : LabelCounts) : List String :=
  heading name "counter" purpose ++ counts.map fun count =>
    name ++ "_total" ++ labels [("reason", count.1)] ++ s!" {count.2}"

/-- The lines of all metrics, each named with the given first part. -/
def lines (metrics : Metrics) (space : String) : List String :=
  counterLines (space ++ "_batch_requests") "Total number of getBlock batch requests sent"
    metrics.requests ++
  counterLines (space ++ "_batch_retries")
    "Total number of batch requests retried after a transport failure" metrics.retries ++
  counterLines (space ++ "_slots_succeeded") "Total number of slots fetched successfully"
    metrics.succeeded ++
  failedLines (space ++ "_slots_failed")
    "Total number of slots that ended in the failure ledger, by reason" metrics.failed ++
  counterLines (space ++ "_dispatch_failures") "Total number of downstream deliveries that failed"
    metrics.dispatchFailures ++
  counterLines (space ++ "_cycles_completed") "Total number of fetch cycles completed"
    metrics.cycles ++
  gaugeLines (space ++ "_target_total_slots") "Number of slots requested by the active run"
    metrics.target ++
  gaugeLines (space ++ "_slots_resolved") "Number of slots resolved in the active run"
    metrics.resolved ++
  gaugeLines (space ++ "_progress_percent") "Integer percent complete (0-100) for the active run"
    metrics.percent

/-- The lines of the identity of the build. -/
def buildLines (info : BuildInfo) (space : String) : List String :=
  let name := space ++ "_build_info"
  heading name "gauge" "Build identity labels for this process" ++
    [name ++ labels [("service", BuildInfo.service), ("version", info.version),
      ("commit", info.short)] ++ " 1"]

/-- The last line of the text. -/
def ending : String := "# EOF"

/-- The lines of the text. -/
def exposition (metrics : Metrics) (space : String) : List String := metrics.lines space ++ [ending]

/-- The lines of the text, the identity of the build among them. -/
def buildExposition (metrics : Metrics) (info : BuildInfo) (space : String) : List String :=
  metrics.lines space ++ buildLines info space ++ [ending]

end Metrics

end Backfill
