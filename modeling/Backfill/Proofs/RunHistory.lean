import Backfill.Run

/-!
# The history of a run

A run forgets how it came to its state: the accounts say that a slot has failed, but not what the
client said about it.  The history of a run is kept beside it, as a list of notes that are read
off the state before each transition and the event: which cycles were started, which requests were
sent and how each of them ended, which results came in and which deliveries were over.  Nothing in
a note comes from the accounts.

## Main definitions

* `Note` — something that happens in a run.
* `Pool.note?`, `Run.note?` — what a transition adds to the history.
* `Run.notes` — the history of a run that starts in some state.
* `BatchResult.failures`, `BatchResult.blocks` — what a result says about the slots of its batch.
* `Delivery.failures`, `Delivery.fetched` — what the end of a delivery says about its slots.
* `Run.Move` — the transitions of a run, each with its note, the slots that it enters as failed,
  and what it leads to.

## Main results

* `Run.execute_induct` — **induction over the history of a run.**
* `Run.move_of_step?` — every transition is one of the moves.
-/

namespace Backfill

/-- Something that happens in a run. -/
inductive Note
  /-- A cycle starts. -/
  | opened (cycle : Cycle)
  /-- A request for the batch is sent. -/
  | requested (batch : Batch)
  /-- The client answers the request for the batch. -/
  | answered (batch : Batch) (outcomes : Outcomes)
  /-- The request for the batch fails as a whole. -/
  | refused (batch : Batch) (error : TransportError)
  /-- The token, which has fired, is noticed before there is a result for the batch. -/
  | cut (batch : Batch)
  /-- The worker that has the batch breaks down. -/
  | broke (batch : Batch)
  /-- The result of a batch comes in. -/
  | settled (result : BatchResult)
  /-- The delivery of the fetched blocks of a batch is over. -/
  | delivered (delivery : Delivery) (result : Except DispatchError Unit)

namespace Note

/-- What is noted when the attempts for a batch move on. -/
def ofAttempt (batch : Batch) : RetryPolicy.Event Outcomes TransportError → Option Note
  | .start => some (.requested batch)
  | .finish (.ok outcomes) => some (.answered batch outcomes)
  | .finish (.error error) => some (.refused batch error)
  | .resume => none
  | .cut => some (.cut batch)

/-- The batch that a note of a worker is about. -/
def batch? : Note → Option Batch
  | .requested batch => some batch
  | .answered batch _ => some batch
  | .refused batch _ => some batch
  | .cut batch => some batch
  | .broke batch => some batch
  | _ => none

theorem batch?_of_mem_ofAttempt {batch : Batch}
    {event : RetryPolicy.Event Outcomes TransportError} {note : Note}
    (h : note ∈ (ofAttempt batch event).toList) : note.batch? = some batch := by
  cases event with
  | finish result =>
    cases result <;> (obtain rfl := List.mem_singleton.mp h; rfl)
  | resume => simp [ofAttempt] at h
  | start | cut => obtain rfl := List.mem_singleton.mp h; rfl

end Note

/-- What a transition of a pool adds to the history, given whether the token has fired. -/
def Pool.note? (fired : Bool) (pool : Pool) : Pool.Event → Option Note
  | .take _ => if fired then pool.queue.head?.map .cut else none
  | .attempt worker event =>
    match pool.workers[worker]? with
    | some (.trying batch _) => Note.ofAttempt batch event
    | _ => none
  | .breakDown worker =>
    match pool.workers[worker]? with
    | some (.trying batch _) => some (.broke batch)
    | _ => none
  | _ => none

namespace Run

/-- What a transition adds to the history. -/
def note? (run : Run) : Event → Option Note
  | .openCycle => (run.setup.plan.cycle? run.next).map .opened
  | .pool event =>
    match run.stage with
    | .busy cycle => cycle.pool.note? run.fired event
    | _ => none
  | .intake =>
    match run.stage with
    | .busy cycle => cycle.pool.results.head?.map .settled
    | _ => none
  | .deliver position result =>
    match run.stage with
    | .busy cycle => cycle.deliveries[position]?.map fun delivery => .delivered delivery result
    | _ => none
  | _ => none

/-- The history of transitions in a row. -/
def notes (run : Run) : List Event → List Note
  | [] => []
  | event :: rest =>
    (run.note? event).toList ++ ((run.step? event).map fun next => notes next rest).getD []

@[simp] theorem notes_nil (run : Run) : run.notes [] = [] := rfl

theorem notes_cons {run next : Run} {event : Event} (h : run.step? event = some next)
    (rest : List Event) :
    run.notes (event :: rest) = (run.note? event).toList ++ next.notes rest := by
  rw [notes, h]
  rfl

theorem notes_append {run middle : Run} {first second : List Event}
    (h : run.execute first = some middle) :
    run.notes (first ++ second) = run.notes first ++ middle.notes second := by
  induction first generalizing run with
  | nil =>
    obtain rfl := Option.some.inj h
    rfl
  | cons event rest ih =>
    obtain ⟨next, hstep, hrest⟩ := Option.bind_eq_some_iff.mp h
    rw [List.cons_append, notes_cons hstep, notes_cons hstep, ih hrest, List.append_assoc]

/-- **Induction over the history of a run.** -/
theorem execute_induct {motive : Run → List Note → Prop} {run final : Run} {events : List Event}
    (h : run.execute events = some final) (start : motive run [])
    (step : ∀ {before after : Run} {event : Event} {notes : List Note}, motive before notes →
      before.step? event = some after → motive after (notes ++ (before.note? event).toList)) :
    motive final (run.notes events) := by
  -- The history that has been told before the first event is arbitrary.
  suffices hall : ∀ {run : Run} {told : List Note}, run.execute events = some final →
      motive run told → motive final (told ++ run.notes events) by
    simpa using hall h start
  clear h start
  induction events with
  | nil =>
    intro run told hrun htold
    obtain rfl := Option.some.inj hrun
    rwa [notes_nil, List.append_nil]
  | cons event rest ih =>
    intro run told hrun htold
    rw [execute_cons, Option.bind_eq_some_iff] at hrun
    obtain ⟨next, hstep, hrest⟩ := hrun
    rw [notes_cons hstep, ← List.append_assoc]
    exact ih hrest (step htold hstep)

end Run

/-! ### What a result says -/

namespace BatchResult

/-- The outcomes of the slots of the batch, in the order of the batch. -/
def answers (result : BatchResult) : List (Nat × Outcome) :=
  Accounts.outcomesOf result.outcomes result.batch.slots

/-- The slots of the batch that have failed, with their reasons. -/
def failures (result : BatchResult) : List (Nat × FailureReason) :=
  result.answers.filterMap Accounts.failure?

/-- The slots of the batch that were fetched, with their blocks. -/
def blocks (result : BatchResult) : List (Nat × Json) :=
  result.answers.filterMap Accounts.fetched?

/-- The delivery of the fetched blocks, if there are any. -/
def delivery? (setup : RunSetup) (result : BatchResult) : Option Delivery :=
  if result.blocks.isEmpty then none
  else some (.ofBlocks setup.filter setup.hasSink result.blocks)

end BatchResult

namespace Delivery

/-- The slots that have failed when the delivery is over, with their reasons. -/
def failures (delivery : Delivery) : Except DispatchError Unit → List (Nat × FailureReason)
  | .ok () => []
  | .error error =>
    delivery.slots.map fun slot => (slot.1, FailureReason.dispatchFailed error.message)

/-- The slots that count as fetched when the delivery is over. -/
def fetched (delivery : Delivery) : Except DispatchError Unit → List Nat
  | .ok () => delivery.slots.map (·.1)
  | .error _ => []

end Delivery

/-- The reason that the end of a delivery gives its slots. -/
def dispatchReason? : Except DispatchError Unit → Option FailureReason
  | .ok () => none
  | .error error => some (.dispatchFailed error.message)

/-- The slots that count as fetched by what is noted. -/
def Note.fetched : Note → List Nat
  | .delivered delivery result => delivery.fetched result
  | _ => []

theorem Accounts.settle_eq (accounts : Accounts) (result : BatchResult) :
    accounts.settle result =
      (Accounts.failSlots { accounts with telemetry := accounts.telemetry.batch } result.failures,
        result.blocks) := rfl

/-! ### The moves of a run -/

namespace Run

/-- The transitions of a run, each with its note, the slots that it enters as failed, and what it
leads to. -/
inductive Move (run : Run) : Option Note → List (Nat × FailureReason) → Run → Prop
  | fire (hfired : run.fired = false) : Move run none [] { run with fired := true }
  | openCycle {cycle : Cycle} (hstage : run.stage = .between) (hfired : run.fired = false)
    (hcycle : run.setup.plan.cycle? run.next = some cycle) :
    Move run (some (.opened cycle)) []
      { run with next := run.next + 1, stage := .busy (.ofCycle run.setup cycle) }
  | pool {cycle : CycleState} {event : Pool.Event} {pool : Pool} {signal : Pool.Signal}
    (hstage : run.stage = .busy cycle)
    (hpool : cycle.pool.step? run.setup.policy run.fired event = some (pool, signal)) :
    Move run (cycle.pool.note? run.fired event) []
      { run with
        stage := .busy { cycle with pool := pool }
        accounts := count run.accounts signal }
  | intake {cycle : CycleState} {result : BatchResult} {rest : List BatchResult}
    (hstage : run.stage = .busy cycle) (hresults : cycle.pool.results = result :: rest) :
    Move run (some (.settled result)) result.failures
      { run with
        stage := .busy
          { pool := { cycle.pool with results := rest }
            pending := cycle.pending.filter (·.index != result.batch.index)
            deliveries := cycle.deliveries ++ (result.delivery? run.setup).toList }
        accounts := (run.accounts.settle result).1 }
  | deliver {cycle : CycleState} {position : Nat} {delivery : Delivery}
    {result : Except DispatchError Unit} (hstage : run.stage = .busy cycle)
    (hdelivery : cycle.deliveries[position]? = some delivery)
    (hresult : delivery.records = [] → result = .ok ()) :
    Move run (some (.delivered delivery result)) (delivery.failures result)
      { run with
        stage := .busy { cycle with deliveries := cycle.deliveries.eraseIdx position }
        accounts := run.accounts.deliver delivery result }
  | closeCycle {cycle : CycleState} {telemetry : Telemetry} (hstage : run.stage = .busy cycle)
    (hover : cycle.isOver = true)
    (hstats : telemetry.stats = (run.accounts.failSlots cycle.lostSlots).telemetry.stats)
    (hmetrics : ∃ resolved percent, telemetry.metrics =
      ((run.accounts.failSlots cycle.lostSlots).telemetry.cycle resolved percent).metrics) :
    Move run none cycle.lostSlots
      { run with
        stage := .between
        accounts := { run.accounts.failSlots cycle.lostSlots with telemetry := telemetry } }
  | cancelRest (hstage : run.stage = .between) (hfired : run.fired = true)
    (hnext : run.next < run.setup.plan.cycleCount) :
    Move run none
      (((run.setup.plan.tailRanges run.next).flatMap SlotRange.slots).map fun slot =>
        (slot, .cancelled))
      { run with
        stage := .over true
        accounts := run.accounts.failRanges (run.setup.plan.tailRanges run.next) .cancelled }
  | conclude (hstage : run.stage = .between) (hnext : run.setup.plan.cycleCount ≤ run.next) :
    Move run none [] { run with stage := .over run.fired }

variable {run next : Run}

theorem move_of_openCycle? (h : run.openCycle? = some next) :
    ∃ failures, run.Move (run.note? .openCycle) failures next := by
  unfold openCycle? at h
  split at h
  · next cycle hstage hfired hcycle =>
    obtain rfl := Option.some.inj h
    simp only [note?, hcycle, Option.map_some]
    exact ⟨_, .openCycle hstage hfired hcycle⟩
  · simp at h

theorem move_of_pool? {event : Pool.Event} (h : run.pool? event = some next) :
    ∃ failures, run.Move (run.note? (.pool event)) failures next := by
  unfold pool? at h
  split at h
  · next cycle hstage =>
    obtain ⟨⟨pool, signal⟩, hpool, rfl⟩ := Option.map_eq_some_iff.mp h
    simp only [note?, hstage]
    exact ⟨_, .pool hstage hpool⟩
  · simp at h

theorem move_of_intake? (h : run.intake? = some next) :
    ∃ failures, run.Move (run.note? .intake) failures next := by
  unfold intake? at h
  split at h
  · next cycle hstage =>
    obtain ⟨⟨result, pool⟩, htake, hnext⟩ := Option.map_eq_some_iff.mp h
    unfold Pool.takeResult? at htake
    split at htake
    · simp at htake
    · next first rest hresults =>
      obtain ⟨rfl, rfl⟩ := Prod.mk.inj (Option.some.inj htake)
      simp only [note?, hstage, hresults, List.head?_cons, Option.map_some]
      have hmove := Move.intake hstage hresults
      -- A result without a fetched block brings no delivery.
      have hdeliveries : (if first.blocks.isEmpty then cycle.deliveries
          else cycle.deliveries ++ [.ofBlocks run.setup.filter run.setup.hasSink first.blocks]) =
          cycle.deliveries ++ (first.delivery? run.setup).toList := by
        unfold BatchResult.delivery?
        split <;> simp
      rw [← hdeliveries] at hmove
      rw [← hnext]
      exact ⟨_, hmove⟩
  · simp at h

theorem move_of_deliver? {position : Nat} {result : Except DispatchError Unit}
    (h : run.deliver? position result = some next) :
    ∃ failures, run.Move (run.note? (.deliver position result)) failures next := by
  unfold deliver? at h
  split at h
  · next cycle hstage =>
    split at h
    · next delivery hdelivery =>
      split at h
      · simp at h
      · next hresult =>
        obtain rfl := Option.some.inj h
        simp only [note?, hstage, hdelivery, Option.map_some]
        -- Without records nobody was called, so the delivery cannot have failed.
        refine ⟨_, .deliver hstage hdelivery fun hempty => ?_⟩
        rw [hempty] at hresult
        cases result with
        | ok => rfl
        | error error => simp [Except.isOk, Except.toBool] at hresult
    · simp at h
  · simp at h

theorem move_of_closeCycle? (h : run.closeCycle? = some next) :
    ∃ failures, run.Move none failures next := by
  unfold closeCycle? at h
  split at h
  · next cycle hstage =>
    split at h
    · next hover =>
      obtain rfl := Option.some.inj h
      exact ⟨_, .closeCycle hstage hover rfl ⟨_, _, rfl⟩⟩
    · simp at h
  · simp at h

theorem move_of_cancelRest? (h : run.cancelRest? = some next) :
    ∃ failures, run.Move none failures next := by
  unfold cancelRest? at h
  split at h
  · next hstage hfired =>
    split at h
    · next hnext =>
      obtain rfl := Option.some.inj h
      exact ⟨_, .cancelRest hstage hfired hnext⟩
    · simp at h
  · simp at h

theorem move_of_conclude? (h : run.conclude? = some next) :
    ∃ failures, run.Move none failures next := by
  unfold conclude? at h
  split at h
  · next hstage =>
    split at h
    · next hnext =>
      obtain rfl := Option.some.inj h
      exact ⟨_, .conclude hstage hnext⟩
    · simp at h
  · simp at h

/-- **Every transition is one of the moves.** -/
theorem move_of_step? {event : Event} (h : run.step? event = some next) :
    ∃ failures, run.Move (run.note? event) failures next := by
  cases event with
  | fire =>
    simp only [step?] at h
    split at h
    · simp at h
    · -- The token fires once.
      next hfired =>
      obtain rfl := Option.some.inj h
      exact ⟨_, .fire (Bool.eq_false_iff.mpr hfired)⟩
  | openCycle => exact move_of_openCycle? h
  | pool event => exact move_of_pool? h
  | intake => exact move_of_intake? h
  | deliver position result => exact move_of_deliver? h
  | closeCycle => exact move_of_closeCycle? h
  | cancelRest => exact move_of_cancelRest? h
  | conclude => exact move_of_conclude? h

end Run

end Backfill
