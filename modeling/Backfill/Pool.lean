import Backfill.Batch
import Backfill.Failure
import Backfill.Retry
import Backfill.Transport

/-!
# Workers

The batches of a cycle are put into a queue of limited size, from which workers take them.
A worker tries its batch until there is a result, puts the result into a second queue and
goes on.  The moves of all these parties interleave freely: the pool is a transition system
whose events name the party that moves and what it is told from outside.

A worker notices that the token has fired before it does anything else; the batches that are
in the queue then are reported as cancelled without a request.

## Main definitions

* `BatchResult` — what came of a batch; `BatchResult.ofVerdict` is what the end of its
  attempts makes of it.
* `Worker` — where a worker stands.
* `Pool` — workers and queues.
* `Pool.Event`, `Pool.step?` — the transitions.
* `Pool.Signal` — what a transition adds to the counters.
* `Pool.isOver` — every worker is gone and every result has been taken.
-/

namespace Backfill

/-- What came of a batch. -/
structure BatchResult where
  batch : Batch
  outcomes : Outcomes
  /-- Number of the last attempt; zero if there was none. -/
  attempts : Nat
deriving DecidableEq, Repr, Inhabited

namespace BatchResult

/-- Every slot of the batch has failed for the same reason. -/
def uniform (batch : Batch) (reason : FailureReason) (attempts : Nat) : BatchResult :=
  ⟨batch, .uniform batch.slots reason, attempts⟩

/-- The batch was cancelled during the attempt with this number. -/
def cancelled (batch : Batch) (attempts : Nat) : BatchResult :=
  uniform batch .cancelled attempts

/-- What the end of its attempts makes of a batch. -/
def ofVerdict (batch : Batch) : Verdict Outcomes TransportError → BatchResult
  | .answered outcomes attempts => ⟨batch, outcomes, attempts⟩
  | .failed error attempts => uniform batch (.exhaustedRetries attempts error.message) attempts
  | .cancelled attempts => cancelled batch attempts

@[simp] theorem batch_ofVerdict (batch : Batch) (verdict : Verdict Outcomes TransportError) :
    (ofVerdict batch verdict).batch = batch := by
  cases verdict <;> rfl

end BatchResult

/-- Where a worker stands. -/
inductive Worker
  /-- It waits for a batch. -/
  | idle
  | trying (batch : Batch) (attempt : Attempt)
  /-- It has a result to hand over. -/
  | reporting (result : BatchResult)
  /-- It has left, because there is nothing more to do. -/
  | left
  /-- It broke down during a request. -/
  | lost
deriving DecidableEq, Repr, Inhabited

/-- Whether the worker will not move again. -/
def Worker.isGone : Worker → Bool
  | .left | .lost => true
  | _ => false

/-- Workers and queues. -/
structure Pool where
  /-- How many items each of the two queues can hold. -/
  capacity : Nat
  /-- Batches that are not in the queue yet. -/
  unsent : List Batch
  queue : List Batch
  workers : List Worker
  results : List BatchResult
deriving DecidableEq, Repr, Inhabited

namespace Pool

/-- A pool that has not started yet; there is at least one worker and room for one item. -/
def ofBatches (workers capacity : Nat) (batches : List Batch) : Pool :=
  ⟨max capacity 1, batches, [], List.replicate (max workers 1) .idle, []⟩

/-- The attempts for one batch, from the first one on, without a queue in front of them. -/
def ofAttempts (batch : Batch) : Pool := ⟨1, [], [], [.trying batch (.waiting 1)], []⟩

/-- Whether every worker is gone. -/
def isDeserted (pool : Pool) : Bool := pool.workers.all Worker.isGone

/-- Whether every worker is gone and every result has been taken: nothing more will come. -/
def isOver (pool : Pool) : Bool := pool.isDeserted && pool.results.isEmpty

/-- What can happen in a pool; workers are named by their position. -/
inductive Event
  /-- The next batch is put into the queue. -/
  | enqueue
  /-- A worker takes a batch out of the queue. -/
  | take (worker : Nat)
  /-- The attempts of a worker move on. -/
  | attempt (worker : Nat) (event : RetryPolicy.Event Outcomes TransportError)
  /-- The request of a worker breaks down, and the worker with it. -/
  | breakDown (worker : Nat)
  /-- A worker hands over its result. -/
  | report (worker : Nat)
  /-- A worker leaves, since no batch will come. -/
  | leave (worker : Nat)

/-- What a transition adds to the counters. -/
inductive Signal
  | none
  /-- A request is sent. -/
  | attempt
  /-- A request is about to be repeated. -/
  | retry
deriving DecidableEq, Repr

/-- The pool with another state of one worker. -/
def setWorker (pool : Pool) (worker : Nat) (state : Worker) : Pool :=
  { pool with workers := pool.workers.set worker state }

/-- What a worker has on its hands after its attempts have moved on. -/
def afterAttempt (batch : Batch) : Attempt.Next Outcomes TransportError → Worker
  | .inl attempt => .trying batch attempt
  | .inr verdict => .reporting (.ofVerdict batch verdict)

/-- What the attempts of a worker add to the counters when they move on. -/
def signalOf (policy : RetryPolicy) (attempt : Attempt) :
    RetryPolicy.Event Outcomes TransportError → Signal
  | .start => .attempt
  | .finish (.error error) =>
    if policy.repeats error.isRetryable attempt.number then .retry else .none
  | _ => .none

/-- The attempts of a worker move on. -/
def attemptStep? (policy : RetryPolicy) (fired : Bool) (pool : Pool) (worker : Nat) (batch : Batch)
    (attempt : Attempt) (event : RetryPolicy.Event Outcomes TransportError) :
    Option (Pool × Signal) :=
  (policy.step? TransportError.isRetryable fired attempt event).map fun next =>
    (pool.setWorker worker (afterAttempt batch next), signalOf policy attempt event)

/-- The next batch is put into the queue, if there is room and somebody to take it out. -/
def enqueue? (pool : Pool) : Option Pool :=
  match pool.unsent with
  | [] => none
  | batch :: rest =>
    if pool.queue.length < pool.capacity ∧ pool.isDeserted = false then
      some { pool with unsent := rest, queue := pool.queue ++ [batch] }
    else none

/-- A worker takes a batch; once the token has fired, the batch is cancelled. -/
def take? (fired : Bool) (pool : Pool) (worker : Nat) : Option Pool :=
  match pool.queue with
  | [] => none
  | batch :: rest =>
    let state := if fired then .reporting (.cancelled batch 0) else .trying batch (.waiting 1)
    some { pool.setWorker worker state with queue := rest }

/-- One transition, given whether the token has fired. -/
def step? (policy : RetryPolicy) (fired : Bool) (pool : Pool) : Event → Option (Pool × Signal)
  | .enqueue => pool.enqueue?.map (·, .none)
  | .take worker =>
    match pool.workers[worker]? with
    | some .idle => (pool.take? fired worker).map (·, .none)
    | _ => none
  | .attempt worker event =>
    match pool.workers[worker]? with
    | some (.trying batch attempt) => pool.attemptStep? policy fired worker batch attempt event
    | _ => none
  | .breakDown worker =>
    match pool.workers[worker]?, fired with
    | some (.trying _ (.running _)), false => some (pool.setWorker worker .lost, .none)
    | _, _ => none
  | .report worker =>
    match pool.workers[worker]? with
    | some (.reporting result) =>
      if pool.results.length < pool.capacity then
        some ({ pool.setWorker worker .idle with results := pool.results ++ [result] }, .none)
      else none
    | _ => none
  | .leave worker =>
    match pool.workers[worker]? with
    | some .idle =>
      if pool.queue.isEmpty && pool.unsent.isEmpty then some (pool.setWorker worker .left, .none)
      else none
    | _ => none

/-- The next result is taken out of the pool. -/
def takeResult? (pool : Pool) : Option (BatchResult × Pool) :=
  match pool.results with
  | [] => none
  | result :: rest => some (result, { pool with results := rest })

/-- A worker that finds nobody to hand its result to leaves with it. -/
def dropResult? (pool : Pool) (worker : Nat) : Option Pool :=
  match pool.workers[worker]? with
  | some (.reporting _) => some (pool.setWorker worker .left)
  | _ => none

end Pool

end Backfill
