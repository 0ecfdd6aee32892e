import Backfill.Accounts
import Backfill.Plan
import Backfill.Report

/-!
# Runs

A run walks the cycles of its plan one after the other.  In a cycle, workers try the batches
while results come in and fetched blocks are handed on; the cycle is over when all of that is
done, and slots that were lost with a worker are entered then.  Once the token has fired, no
further cycle is started and the slots of all cycles left are cancelled.

A run is a transition system: an event says which party moves, and what it is told from
outside, such as the answer of the provider.  Whatever the order of the events, the accounts
at the end are complete.

## Main definitions

* `RunSetup` — what a run is given.
* `CycleState` — a cycle in progress.
* `Run` — a run in progress; `Run.start` is its start.
* `Run.Event`, `Run.step?` — the transitions.
* `Run.execute` — several transitions in a row.
* `Run.outcome?` — what the run leads to, when it is over.

## Main results

* `Run.execute_append` — transitions in a row can be cut into two parts.
-/

namespace Backfill

/-- What a run is given. -/
structure RunSetup where
  run : RunMeta
  plan : Plan
  policy : RetryPolicy
  workers : Nat
  queueCapacity : Nat
  filter : BlockFilter
  /-- Whether there is somebody to hand fetched blocks on to. -/
  hasSink : Bool
deriving DecidableEq, Repr

/-- A cycle in progress. -/
structure CycleState where
  pool : Pool
  /-- The batches whose results have not come in. -/
  pending : List Batch
  deliveries : List Delivery
deriving DecidableEq, Repr

namespace CycleState

/-- A cycle that has not started yet. -/
def ofCycle (setup : RunSetup) (cycle : Cycle) : CycleState :=
  ⟨.ofBatches setup.workers setup.queueCapacity cycle.batches, cycle.batches, []⟩

/-- Whether nothing more can come in. -/
def isOver (cycle : CycleState) : Bool := cycle.pool.isOver && cycle.deliveries.isEmpty

/-- The slots that were lost with a worker, once nothing more can come in. -/
def lostSlots (cycle : CycleState) : List (Nat × FailureReason) :=
  (cycle.pending.flatMap (·.slots)).map fun slot => (slot, .workerLost)

end CycleState

/-- What a run is busy with. -/
inductive Stage
  /-- It is between two cycles. -/
  | between
  | busy (cycle : CycleState)
  /-- It is over; the token had fired before that, or not. -/
  | over (cancelled : Bool)
deriving DecidableEq, Repr

/-- A run in progress. -/
structure Run where
  setup : RunSetup
  /-- Position of the cycle that is started next. -/
  next : Nat
  stage : Stage
  /-- Whether the token has fired. -/
  fired : Bool
  accounts : Accounts
deriving DecidableEq, Repr

namespace Run

/-- The start of a run. -/
def start (setup : RunSetup) (telemetry : Telemetry) : Run :=
  ⟨setup, 0, .between, false, .ofTelemetry (telemetry.startRun setup.run.requested)⟩

/-- What can happen in a run. -/
inductive Event
  /-- The token fires. -/
  | fire
  /-- The next cycle starts. -/
  | openCycle
  | pool (event : Pool.Event)
  /-- The next result comes in. -/
  | intake
  /-- The delivery at this position is over. -/
  | deliver (position : Nat) (result : Except DispatchError Unit)
  | closeCycle
  /-- The slots of all cycles left are cancelled. -/
  | cancelRest
  /-- No cycle is left. -/
  | conclude

/-- The accounts after a signal of the pool. -/
def count (accounts : Accounts) : Pool.Signal → Accounts
  | .none => accounts
  | .attempt => { accounts with telemetry := accounts.telemetry.attempt }
  | .retry => { accounts with telemetry := accounts.telemetry.retry }

/-- How much of the run is done, in per cent. -/
def percent (setup : RunSetup) (resolved : Nat) : Nat :=
  Word.clamp (resolved * 100) / max setup.run.requested 1

/-- The next cycle starts. -/
def openCycle? (run : Run) : Option Run :=
  match run.stage, run.fired, run.setup.plan.cycle? run.next with
  | .between, false, some cycle =>
    some { run with next := run.next + 1, stage := .busy (.ofCycle run.setup cycle) }
  | _, _, _ => none

/-- A party of the pool moves. -/
def pool? (run : Run) (event : Pool.Event) : Option Run :=
  match run.stage with
  | .busy cycle =>
    (cycle.pool.step? run.setup.policy run.fired event).map fun (pool, signal) =>
      { run with stage := .busy { cycle with pool := pool }, accounts := count run.accounts signal }
  | _ => none

/-- The next result comes in. -/
def intake? (run : Run) : Option Run :=
  match run.stage with
  | .busy cycle =>
    cycle.pool.takeResult?.map fun (result, pool) =>
      let (accounts, fetched) := run.accounts.settle result
      let deliveries :=
        if fetched.isEmpty then cycle.deliveries
        else cycle.deliveries ++ [.ofBlocks run.setup.filter run.setup.hasSink fetched]
      { run with
        stage := .busy
          { pool := pool
            pending := cycle.pending.filter (·.index != result.batch.index)
            deliveries := deliveries }
        accounts := accounts }
  | _ => none

/-- A delivery is over; one with nothing to hand on cannot fail. -/
def deliver? (run : Run) (position : Nat) (result : Except DispatchError Unit) : Option Run :=
  match run.stage with
  | .busy cycle =>
    match cycle.deliveries[position]? with
    | some delivery =>
      if delivery.records.isEmpty && !result.isOk then none
      else some { run with
        stage := .busy { cycle with deliveries := cycle.deliveries.eraseIdx position }
        accounts := run.accounts.deliver delivery result }
    | none => none
  | _ => none

/-- The cycle is over; what was lost with a worker is entered. -/
def closeCycle? (run : Run) : Option Run :=
  match run.stage with
  | .busy cycle =>
    if cycle.isOver then
      let accounts := run.accounts.failSlots cycle.lostSlots
      let telemetry := accounts.telemetry.cycle accounts.resolved
        (percent run.setup accounts.resolved)
      some { run with stage := .between, accounts := { accounts with telemetry := telemetry } }
    else none
  | _ => none

/-- The slots of all cycles left are cancelled. -/
def cancelRest? (run : Run) : Option Run :=
  match run.stage, run.fired with
  | .between, true =>
    if run.next < run.setup.plan.cycleCount then
      let rest := run.setup.plan.tailRanges run.next
      some { run with stage := .over true, accounts := run.accounts.failRanges rest .cancelled }
    else none
  | _, _ => none

/-- No cycle is left. -/
def conclude? (run : Run) : Option Run :=
  match run.stage with
  | .between =>
    if run.setup.plan.cycleCount ≤ run.next then some { run with stage := .over run.fired }
    else none
  | _ => none

/-- One transition. -/
def step? (run : Run) : Event → Option Run
  | .fire => if run.fired then none else some { run with fired := true }
  | .openCycle => run.openCycle?
  | .pool event => run.pool? event
  | .intake => run.intake?
  | .deliver position result => run.deliver? position result
  | .closeCycle => run.closeCycle?
  | .cancelRest => run.cancelRest?
  | .conclude => run.conclude?

/-- Transitions in a row. -/
def execute (run : Run) : List Event → Option Run
  | [] => some run
  | event :: rest => (run.step? event).bind fun next => execute next rest

@[simp] theorem execute_nil (run : Run) : run.execute [] = some run := rfl

@[simp] theorem execute_cons (run : Run) (event : Event) (rest : List Event) :
    run.execute (event :: rest) = (run.step? event).bind fun next => next.execute rest := rfl

/-- Transitions in a row can be cut into two parts. -/
theorem execute_append (run : Run) (first second : List Event) :
    run.execute (first ++ second) = (run.execute first).bind fun next => next.execute second := by
  induction first generalizing run with
  | nil => rfl
  | cons event rest ih =>
    simp only [List.cons_append, execute_cons]
    cases run.step? event with
    | none => rfl
    | some next => simp [ih]

/-! ### The end -/

/-- The report, when the run is over. -/
def report? (run : Run) (elapsed : Elapsed) : Option RunReport :=
  match run.stage with
  | .over cancelled => some
    { run := run.setup.run
      succeeded := run.accounts.succeeded
      forwarded := run.accounts.forwarded
      skipped := run.accounts.skipped
      ledger := run.accounts.ledger
      cancelled := cancelled
      elapsed := elapsed
      stats := run.accounts.telemetry.stats }
  | _ => none

/-- Whether the report shows that the provider cannot be reached: something was asked for,
nothing was cancelled or fetched, and every slot used up its attempts. -/
def showsUnreachable (run : Run) (report : RunReport) : Bool :=
  !report.cancelled && decide (0 < report.run.requested) && decide (report.succeeded = 0) &&
    decide (run.accounts.exhausted = report.run.requested)

/-- What the run leads to, when it is over. -/
def outcome? (run : Run) (elapsed : Elapsed) : Option RunOutcome :=
  (run.report? elapsed).map fun report =>
    if run.showsUnreachable report then .unreachable report else .complete report

end Run

end Backfill
