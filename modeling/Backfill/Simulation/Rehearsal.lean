import Backfill.Engine
import Backfill.Simulation.Clock

/-!
# Rehearsals

A rehearsal is a run, or a part of one, against a scripted provider in virtual time.  It
makes only transitions of the system that it rehearses.

Workers and whoever reads their results take turns: the workers go on until none of them can
move without a read or the time, then everything that is there is read at once.

The token may fire at the very moment at which a request or a delay ends.  Workers of a pool
then notice the token first.  A lone operation, which is nobody's worker, first goes on as
far as it can without waiting.

## Main definitions

* `iterate` — makes moves until there is none left.
* `PoolRehearsal` — the workers alone; `PoolRehearsal.play` rehearses a pool, and
  `PoolRehearsal.playBatch` the attempts for one batch.
* `RunRehearsal` — a whole run; `RunRehearsal.play` rehearses it.
* `RetryRehearsal` — the attempts of a single operation.
-/

namespace Backfill

/-- Makes moves until there is none left, or until there have been `bound`. -/
def iterate {σ : Type} (move? : σ → Option σ) : Nat → σ → σ
  | 0, state => state
  | bound + 1, state =>
    match move? state with
    | some next => iterate move? bound next
    | none => state

/-- A bound for the moves in a pool: a batch is put into the queue, taken and reported; an
attempt starts, ends and is followed by a delay, and time may go on at each of them; a worker
leaves. -/
def poolBound (policy : RetryPolicy) (workers batches : Nat) : Nat :=
  batches * (6 * policy.maxAttempts + 8) + 2 * max workers 1 + 8

/-! ### Workers alone -/

/-- Workers in a rehearsal. -/
structure PoolRehearsal where
  policy : RetryPolicy
  script : Script
  pool : Pool
  fired : Bool
  accounts : Accounts
  clock : Clock
  /-- Whether all that can happen at the moment at which the token fires comes before it. -/
  tokenLast : Bool
  /-- Whether it is the reader's turn, in which a worker does no more than hand over a result
  for which there was no room before. -/
  reading : Bool
  /-- How many results are still read; `none` if all are. -/
  reads : Option Nat
  /-- The results that were read, the last one first. -/
  taken : List BatchResult

namespace PoolRehearsal

/-- Makes a move of the pool. -/
def move? (rehearsal : PoolRehearsal) (move : PoolMove) : Option PoolRehearsal :=
  let fired := rehearsal.fired || move.fires
  match move.event with
  | none => some { rehearsal with fired := fired, clock := move.clock }
  | some event =>
    (rehearsal.pool.step? rehearsal.policy rehearsal.fired event).map fun (pool, signal) =>
      { rehearsal with
        pool := pool
        fired := fired
        accounts := Run.count rehearsal.accounts signal
        clock := move.clock }

/-- A result is read, if there is one and it is wanted. -/
def read? (rehearsal : PoolRehearsal) : Option PoolRehearsal :=
  if rehearsal.reads = some 0 then none
  else rehearsal.pool.takeResult?.map fun (result, pool) =>
    { rehearsal with
      pool := pool
      reads := rehearsal.reads.map (· - 1)
      taken := result :: rehearsal.taken }

/-- What the first worker that can do it does. -/
def firstWorker? (rehearsal : PoolRehearsal) (act? : Nat → Option Pool) : Option PoolRehearsal :=
  ((List.range rehearsal.pool.workers.length).findSome? act?).map fun pool =>
    { rehearsal with pool := pool }

/-- Once no results are read, a worker that has one leaves. -/
def drop? (rehearsal : PoolRehearsal) : Option PoolRehearsal :=
  if rehearsal.reads = some 0 then rehearsal.firstWorker? rehearsal.pool.dropResult? else none

/-- The next move in the reader's turn: where there is room a worker hands over its result,
else a result is read; with neither the turn is over. -/
def readersMove (rehearsal : PoolRehearsal) : PoolRehearsal :=
  let report? := rehearsal.firstWorker? fun worker =>
    (rehearsal.pool.step? rehearsal.policy rehearsal.fired (.report worker)).map Prod.fst
  (report?.or rehearsal.read?).getD { rehearsal with reading := false }

/-- The next move in the workers' turn; the reader's turn follows when no worker can move. -/
def workersMove? (rehearsal : PoolRehearsal) : Option PoolRehearsal :=
  let move? := (PoolMove.next? rehearsal.policy rehearsal.script rehearsal.fired rehearsal.pool
    rehearsal.clock).bind rehearsal.move?
  let change? := rehearsal.read?.map fun _ => { rehearsal with reading := true }
  (rehearsal.drop?.or move?).or change?

/-- The token fires, if it is time. -/
def fire? (rehearsal : PoolRehearsal) : Option PoolRehearsal :=
  if !rehearsal.fired && rehearsal.clock.rings then
    some { rehearsal with fired := true, clock := rehearsal.clock.silence }
  else none

/-- The next move of the workers or the reader. -/
def work? (rehearsal : PoolRehearsal) : Option PoolRehearsal :=
  if rehearsal.reading then some rehearsal.readersMove else rehearsal.workersMove?

/-- The next move; time goes on when nothing else can happen. -/
def next? (rehearsal : PoolRehearsal) : Option PoolRehearsal :=
  let present := if rehearsal.tokenLast then rehearsal.work?.or rehearsal.fire?
    else rehearsal.fire?.or rehearsal.work?
  present.or (rehearsal.clock.advance?.map fun clock => { rehearsal with clock := clock })

/-- A rehearsal before its first move, of which all results are read; a token that fires at
the start has fired already. -/
def start (policy : RetryPolicy) (script : Script) (alarm : Option Nat) (pool : Pool) :
    PoolRehearsal :=
  ⟨policy, script, pool, alarm == some 0, .ofTelemetry .zero, .ofAlarm alarm, false, false, none,
    []⟩

/-- All moves that are left. -/
def finish (rehearsal : PoolRehearsal) : PoolRehearsal :=
  let pool := rehearsal.pool
  iterate next? (poolBound rehearsal.policy pool.workers.length
    (pool.unsent.length + pool.workers.length)) rehearsal

/-- Rehearses a pool. -/
def play (policy : RetryPolicy) (script : Script) (alarm reads : Option Nat) (pool : Pool) :
    PoolRehearsal :=
  finish { start policy script alarm pool with reads := reads }

/-- Rehearses the attempts for one batch as a lone operation. -/
def playBatch (policy : RetryPolicy) (script : Script) (alarm : Option Nat) (batch : Batch) :
    PoolRehearsal :=
  finish { start policy script alarm (.ofAttempts batch) with tokenLast := true }

/-- Whether no worker has broken down. -/
def isSound (rehearsal : PoolRehearsal) : Bool :=
  rehearsal.pool.workers.all fun worker => worker != .lost

end PoolRehearsal

/-! ### Runs -/

/-- A run in a rehearsal. -/
structure RunRehearsal where
  script : Script
  sink : Option Sink
  run : Run
  clock : Clock
  /-- What was accepted, the last delivery first. -/
  delivered : List (List DispatchRecord)

namespace RunRehearsal

/-- The run moves. -/
def step? (rehearsal : RunRehearsal) (event : Run.Event) : Option RunRehearsal :=
  (rehearsal.run.step? event).map fun run => { rehearsal with run := run }

/-- Makes a move of the pool, after which the token may fire. -/
def move? (rehearsal : RunRehearsal) (move : PoolMove) : Option RunRehearsal := do
  let moved ← match move.event with
    | none => some rehearsal
    | some event => rehearsal.step? (.pool event)
  let moved ← if move.fires && !moved.run.fired then moved.step? .fire else some moved
  return { moved with clock := move.clock }

/-- The first delivery is over. -/
def deliver? (rehearsal : RunRehearsal) (delivery : Delivery) : Option RunRehearsal := do
  let result := (rehearsal.sink.map fun sink => sink.accept delivery.records).getD (.ok ())
  let next ← rehearsal.step? (.deliver 0 result)
  return if delivery.records.isEmpty || result.toBool = false then next
    else { next with delivered := delivery.records :: next.delivered }

/-- The next move in a cycle. -/
def busy? (rehearsal : RunRehearsal) (cycle : CycleState) : Option RunRehearsal :=
  if cycle.pool.results.isEmpty = false then rehearsal.step? .intake
  else match cycle.deliveries with
    | delivery :: _ => rehearsal.deliver? delivery
    | [] =>
      match PoolMove.next? rehearsal.run.setup.policy rehearsal.script rehearsal.run.fired cycle.pool
          rehearsal.clock with
      | some move => rehearsal.move? move
      | none =>
        if cycle.isOver then rehearsal.step? .closeCycle
        else rehearsal.clock.advance?.map fun clock => { rehearsal with clock := clock }

/-- The next move. -/
def next? (rehearsal : RunRehearsal) : Option RunRehearsal :=
  let run := rehearsal.run
  if !run.fired && rehearsal.clock.rings then
    (rehearsal.step? .fire).map fun next => { next with clock := next.clock.silence }
  else match run.stage with
    | .over _ => none
    | .busy cycle => rehearsal.busy? cycle
    | .between =>
      if run.setup.plan.cycleCount ≤ run.next then rehearsal.step? .conclude
      else if run.fired then rehearsal.step? .cancelRest
      else rehearsal.step? .openCycle

/-- A bound for the moves of a run: those in its pools, an intake and a delivery for each
batch, and a start and an end for each cycle. -/
def bound (setup : RunSetup) : Nat :=
  poolBound setup.policy 1 setup.plan.batchCount +
    setup.plan.batchCount * 4 + setup.plan.cycleCount * (2 * max setup.workers 1 + 8) + 8

/-- Rehearses a run. -/
def play (script : Script) (sink : Option Sink) (alarm : Option Nat) (setup : RunSetup)
    (telemetry : Telemetry) : RunRehearsal :=
  iterate next? (bound setup) ⟨script, sink, .start setup telemetry, .ofAlarm alarm, []⟩

end RunRehearsal

/-! ### Attempts -/

/-- The attempts of an operation in a rehearsal. -/
structure RetryRehearsal (α : Type) where
  policy : RetryPolicy
  /-- The first attempt and those after it; the last one is repeated. -/
  script : List (AttemptScript α)
  state : Attempt.Next α (String × Bool)
  now : Nat
  /-- When the token fires. -/
  alarm : Option Nat
  fired : Bool
  /-- When the attempt or the delay ends. -/
  due : Nat
  /-- The attempts that were followed by another one, with their errors, the last one first. -/
  repeated : List (Nat × String)

namespace RetryRehearsal

variable {α : Type}

/-- The script of an attempt, counted from one. -/
def attemptScript? (rehearsal : RetryRehearsal α) (n : Nat) : Option (AttemptScript α) :=
  rehearsal.script[n - 1]?.or rehearsal.script.getLast?

/-- One transition of the attempts. -/
def step? (rehearsal : RetryRehearsal α) (fired : Bool) (attempt : Attempt)
    (event : RetryPolicy.Event α (String × Bool)) : Option (RetryRehearsal α) :=
  (rehearsal.policy.step? (fun error => !error.2) fired attempt event).map fun state =>
    { rehearsal with state := state }

/-- The attempt ends. -/
def finish? (rehearsal : RetryRehearsal α) (n : Nat) : Option (RetryRehearsal α) := do
  let script ← rehearsal.attemptScript? n
  let next ← rehearsal.step? false (.running n)
    (.finish (script.result.mapError fun message => (message, script.fatal)))
  match script.result with
  | .ok _ => return next
  | .error message =>
    let again := rehearsal.policy.repeats (!script.fatal) n
    return { next with
      due := rehearsal.now + rehearsal.policy.retryDelay
      repeated := if again then (n, message) :: next.repeated else next.repeated }

/-- Nothing more can happen at this moment: the token fires, if it is time, or time goes on
to the next event. -/
def wait (rehearsal : RetryRehearsal α) : RetryRehearsal α :=
  if rehearsal.alarm.any (· ≤ rehearsal.now) then { rehearsal with fired := true }
  else { rehearsal with now := (rehearsal.alarm.map (min rehearsal.due)).getD rehearsal.due }

/-- The next move: once the token has fired nothing else is noticed. -/
def next? (rehearsal : RetryRehearsal α) : Option (RetryRehearsal α) :=
  match rehearsal.state with
  | .inr _ => none
  | .inl attempt =>
    if rehearsal.fired then rehearsal.step? true attempt .cut
    else match attempt with
      | .waiting n => do
        let script ← rehearsal.attemptScript? n
        let next ← rehearsal.step? false attempt .start
        return { next with due := rehearsal.now + script.duration }
      | .running n =>
        if rehearsal.due ≤ rehearsal.now then rehearsal.finish? n else some rehearsal.wait
      | .pausing _ =>
        if rehearsal.due ≤ rehearsal.now then rehearsal.step? false attempt .resume
        else some rehearsal.wait

/-- Rehearses an operation; a token that fires at the start has fired before it. -/
def play (policy : RetryPolicy) (script : List (AttemptScript α)) (alarm : Option Nat) :
    RetryRehearsal α :=
  iterate next? (6 * policy.maxAttempts + 2)
    ⟨policy, script, .inl (.waiting 1), 0, alarm, alarm == some 0, 0, []⟩

end RetryRehearsal

end Backfill
