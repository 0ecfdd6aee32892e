import Backfill.Simulation.Script

/-!
# Virtual time

In a simulation time stands still while anything can move, and then goes on at once to the
moment at which the next timer ends.  Which of several possible moves comes first is fixed,
so a simulation always takes the same course.

## Main definitions

* `Timer` — what a worker waits for.
* `Clock` — the time, the timers, and how often each batch was asked for.
* `Clock.advance?` — time goes on to the next timer.
* `PoolMove` — the next move in a pool; `PoolMove.next?` chooses it.
-/

namespace Backfill

/-- What a worker waits for. -/
inductive Timer
  /-- The provider acts on its request at this time. -/
  | request (due : Nat) (act : Act)
  /-- The delay after an attempt ends at this time. -/
  | delay (due : Nat)
  /-- Its request goes on for ever. -/
  | never
deriving DecidableEq, Repr

/-- When the timer ends. -/
def Timer.due? : Timer → Option Nat
  | .request due _ => some due
  | .delay due => some due
  | .never => none

/-- The time, in milliseconds, and what happens when. -/
structure Clock where
  now : Nat
  /-- When the token fires. -/
  alarm : Option Nat
  /-- How often each batch was asked for, by the key of the batch. -/
  calls : List (Nat × Nat)
  /-- The timers of the workers, by position. -/
  timers : List (Nat × Timer)
deriving DecidableEq, Repr

namespace Clock

/-- The clock at the start. -/
def ofAlarm (alarm : Option Nat) : Clock := ⟨0, alarm, [], []⟩

/-- Whether the token fires now. -/
def rings (clock : Clock) : Bool := clock.alarm.any (· ≤ clock.now)

/-- The alarm has rung. -/
def silence (clock : Clock) : Clock := { clock with alarm := none }

/-- Counts one more under a key, keeping keys in ascending order. -/
def countCall (key : Nat) : List (Nat × Nat) → List (Nat × Nat)
  | [] => [(key, 1)]
  | (k, n) :: rest =>
    if key < k then (key, 1) :: (k, n) :: rest
    else if key = k then (k, n + 1) :: rest
    else (k, n) :: countCall key rest

/-- Takes the timer of a worker away. -/
def clear (clock : Clock) (worker : Nat) : Clock :=
  { clock with timers := clock.timers.filter (·.1 != worker) }

/-- Sets the timer of a worker. -/
def set (clock : Clock) (worker : Nat) (timer : Timer) : Clock :=
  let cleared := clock.clear worker
  { cleared with timers := (worker, timer) :: cleared.timers }

/-- A worker sends the request for a batch. -/
def request (clock : Clock) (script : Script) (worker key : Nat) : Clock :=
  let calls := countCall key clock.calls
  let counted := { clock with calls := calls }
  counted.set worker
    (.request (clock.now + script.latency) (script.act key ((calls.lookup key).getD 0)))

/-- The times that are still to come. -/
def dues (clock : Clock) : List Nat :=
  (clock.alarm.toList ++ clock.timers.filterMap (·.2.due?)).filter (clock.now < ·)

/-- Time goes on to the next timer, if there is one. -/
def advance? (clock : Clock) : Option Clock :=
  (clock.dues.min?).map fun due => { clock with now := due }

end Clock

/-- A move in a pool: what happens, whether the token fires right after it, and the clock
from then on. -/
structure PoolMove where
  event : Option Pool.Event
  fires : Bool
  clock : Clock

namespace PoolMove

/-- The provider acts on the request of a worker. -/
def act (policy : RetryPolicy) (script : Script) (clock : Clock) (worker : Nat) (batch : Batch)
    (act : Act) : PoolMove :=
  match script.react batch.slots act with
  | .finish (.ok outcomes) fires =>
    ⟨some (.attempt worker (.finish (.ok outcomes))), fires, clock.clear worker⟩
  | .finish (.error error) fires =>
    ⟨some (.attempt worker (.finish (.error error))), fires,
      clock.set worker (.delay (clock.now + policy.retryDelay))⟩
  | .hang fires => ⟨none, fires, clock.set worker .never⟩
  | .breakDown => ⟨some (.breakDown worker), false, clock.clear worker⟩

/-- The timer of a worker ends, if it is time. -/
def wake? (policy : RetryPolicy) (script : Script) (clock : Clock) (worker : Nat) (batch : Batch) :
    Option PoolMove :=
  match clock.timers.lookup worker with
  | some (.request due next) =>
    if due ≤ clock.now then some (act policy script clock worker batch next) else none
  | some (.delay due) =>
    if due ≤ clock.now then some ⟨some (.attempt worker .resume), false, clock.clear worker⟩
    else none
  | _ => none

/-- The move of a worker, if it can move now. -/
def ofWorker? (policy : RetryPolicy) (script : Script) (fired : Bool) (pool : Pool) (clock : Clock)
    (worker : Nat) : Worker → Option PoolMove
  | .idle =>
    if pool.queue.isEmpty = false then some ⟨some (.take worker), false, clock⟩
    else if pool.unsent.isEmpty then some ⟨some (.leave worker), false, clock⟩
    else none
  | .trying batch attempt =>
    if fired then some ⟨some (.attempt worker .cut), false, clock.clear worker⟩
    else match attempt with
      | .waiting _ =>
        some ⟨some (.attempt worker .start), false, clock.request script worker batch.key⟩
      | _ => wake? policy script clock worker batch
  | .reporting _ =>
    if pool.results.length < pool.capacity then some ⟨some (.report worker), false, clock⟩
    else none
  | .left | .lost => none

/-- The next move in a pool, if anything can move now: the queue is filled first, then the
workers move in order of position. -/
def next? (policy : RetryPolicy) (script : Script) (fired : Bool) (pool : Pool) (clock : Clock) :
    Option PoolMove :=
  if pool.enqueue?.isSome then some ⟨some .enqueue, false, clock⟩
  else pool.workers.zipIdx.findSome? fun worker =>
    ofWorker? policy script fired pool clock worker.2 worker.1

end PoolMove

end Backfill
