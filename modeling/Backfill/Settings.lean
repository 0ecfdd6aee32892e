import Backfill.Settings.Word
import Backfill.Retry

/-!
# Settings

All that can be chosen about a run is gathered in one record before the run starts.  A
profile gives every field a value.

## Main definitions

* `DispatchSettings`, `Settings` — the record.
* `Settings.preset` — the values of a profile.
* `workersForRate` — how many workers keep up a rate of requests.
* `Settings.atRate` — settings for a rate, with the workers it takes.

## Main results

* `one_le_workersForRate` — at least one worker is kept.
-/

namespace Backfill

/-- Where fetched blocks are handed on: to one parser on each port of a range. -/
structure DispatchSettings where
  host : String
  portStart : Nat
  portCount : Nat
  path : String
  /-- Time limit of a request, in milliseconds. -/
  timeout : Nat
deriving DecidableEq, Repr

/-- Ten parsers on this machine. -/
instance : Inhabited DispatchSettings :=
  ⟨"localhost", 8000, 10, "/api/parse-blockdata", 30000⟩

/-- The settings of a run; times are in milliseconds. -/
structure Settings where
  url : String
  profile : Profile
  batchSize : Nat
  batchesPerCycle : Nat
  workers : Nat
  queueCapacity : Nat
  /-- Requests per second. -/
  maxRate : Nat
  burst : Nat
  retryAttempts : Nat
  retryDelay : Nat
  /-- Time limit of a request for a batch. -/
  batchTimeout : Nat
  /-- Time limit of a request for one block. -/
  requestTimeout : Nat
  poolSize : Nat
  includeRewards : Bool
  scanOrder : ScanOrder
  /-- Only transactions that name this account are handed on. -/
  requiredAccount : Option String
  dispatch : Option DispatchSettings
deriving DecidableEq, Repr, Inhabited

/-- How many workers keep up a rate of requests per second, if a request takes 150
milliseconds and four workers in nine may be busy with something else. -/
def workersForRate (rate : Nat) : Nat :=
  max (ceilDiv (max (ceilDiv (rate * 150) 1000) 1 * 9) 5) 1

/-- At least one worker is kept. -/
theorem one_le_workersForRate (rate : Nat) : 1 ≤ workersForRate rate := by
  simp only [workersForRate]; omega

namespace Settings

/-- The usual values. -/
def standard (url : String) : Settings where
  url := url
  profile := .standard
  batchSize := 50
  batchesPerCycle := 20
  workers := 15
  queueCapacity := 30
  maxRate := 100
  burst := 20
  retryAttempts := 3
  retryDelay := 1000
  batchTimeout := 60000
  requestTimeout := 30000
  poolSize := 100
  includeRewards := true
  scanOrder := .ascending
  requiredAccount := none
  dispatch := none

/-- The values of a profile. -/
def preset (profile : Profile) (url : String) : Settings :=
  match profile with
  | .standard => standard url
  | .highPerformance =>
    { standard url with
      profile := .highPerformance
      batchesPerCycle := 60
      workers := 30
      queueCapacity := 60
      maxRate := 300
      burst := 100
      retryDelay := 300
      batchTimeout := 30000
      requestTimeout := 15000
      poolSize := 300 }
  | .conservative =>
    { standard url with
      profile := .conservative
      batchSize := 25
      batchesPerCycle := 16
      workers := 8
      queueCapacity := 16
      maxRate := 50
      burst := 10
      retryAttempts := 5
      retryDelay := 2000
      batchTimeout := 90000
      requestTimeout := 60000
      poolSize := 50 }

/-- The settings for a rate of requests, with the workers it takes and a queue for two batches
each. -/
def atRate (settings : Settings) (rate : Nat) : Settings :=
  { settings with
    maxRate := rate
    workers := workersForRate rate
    queueCapacity := 2 * workersForRate rate }

/-- How requests are repeated. -/
def retryPolicy (settings : Settings) : RetryPolicy := ⟨settings.retryAttempts, settings.retryDelay⟩

end Settings

end Backfill
