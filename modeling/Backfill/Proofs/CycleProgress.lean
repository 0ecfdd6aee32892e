import Backfill.Proofs.PoolProgress
import Backfill.Proofs.RunBreakdowns

/-!
# A cycle comes to its end

In an open cycle, batches are put into a queue, workers try them and hand their results over through
a second queue, and whoever takes the results starts deliveries from them and looks after these as
well.  Every transition leaves less to do, so there are only so many of them.  And there is one as
long as the cycle is not over: if the second queue is not empty, a result can be taken out of it; if
it is empty, no worker has to wait before it hands its result over; and without a worker, nobody has
to wait for a place in the first queue.  What a run may have to wait for is outside of it: the
limiter, the client, the delay between two attempts, and whoever the blocks are handed on to.

## Main definitions

* `CycleState.work`, `Run.work` — how many transitions may still follow.
* `Run.Awaits` — what a run waits for from outside, with the ways in which the wait can end.
* `CycleState.IsDone` — nothing is left of a cycle.
* `Run.FinishesCycle` — what may follow in an open cycle.

## Main results

* `Run.Move.work_lt` — **every move leaves less to do.**
* `Run.not_exists_infinite` — no run goes on for ever.
* `Run.exists_step?` — an open cycle that waits for nothing outside moves on.
* `Run.cycle_always_finishes` — every open cycle comes to its end.
-/

namespace Backfill

/-! ### Less and less to do -/

/-- How many transitions may follow in a cycle before it is closed. -/
def CycleState.work (policy : RetryPolicy) (cycle : CycleState) : Nat :=
  cycle.pool.work policy + cycle.deliveries.length

/-- How many transitions may follow before the next cycle starts. -/
def Stage.work (policy : RetryPolicy) : Stage → Nat
  | .between => 1
  | .busy cycle => cycle.work policy + 2
  | .over _ => 0

theorem CycleState.work_ofCycle (setup : RunSetup) (planned : Cycle) :
    (ofCycle setup planned).work setup.policy =
      planned.batches.length * setup.policy.batchWork + max setup.workers 1 :=
  Pool.work_ofBatches ..

theorem CycleState.work_intake (policy : RetryPolicy) {cycle : CycleState} {result : BatchResult}
    {rest : List BatchResult} (hresults : cycle.pool.results = result :: rest)
    (pending : List Batch) (delivery? : Option Delivery) :
    work policy
        { pool := { cycle.pool with results := rest }
          pending := pending
          deliveries := cycle.deliveries ++ delivery?.toList } < cycle.work policy := by
  have hdelivery : delivery?.toList.length ≤ 1 := Option.length_toList_le
  simp only [work, Pool.work, hresults, List.length_cons, List.length_append]
  omega

theorem CycleState.work_deliver (policy : RetryPolicy) {cycle : CycleState} {position : Nat}
    {delivery : Delivery} (hdelivery : cycle.deliveries[position]? = some delivery) :
    work policy { cycle with deliveries := cycle.deliveries.eraseIdx position } <
      cycle.work policy := by
  obtain ⟨hlt, -⟩ := List.getElem?_eq_some_iff.mp hdelivery
  simp only [work, List.length_eraseIdx_of_lt hlt]
  omega

namespace Run

/-- How many transitions may follow in a run: each batch that is ahead goes through its
transitions, and each cycle that is ahead is started and closed, and left by its workers. -/
def work (run : Run) : Nat :=
  run.ahead.length * run.setup.policy.batchWork +
    (run.setup.plan.cycleCount - run.next) * (max run.setup.workers 1 + 2) +
    run.stage.work run.setup.policy + if run.fired then 0 else 1

variable {setup : RunSetup} {asked : List Nat} {telemetry : Telemetry} {run next final : Run}
  {event : Event} {events : List Event} {note : Option Note}
  {failures : List (Nat × FailureReason)} {planned : Cycle} {cycle later : CycleState}

/-- **Every move leaves less to do.** -/
theorem Move.work_lt (hsound : run.setup.plan.Sound) (hmove : run.Move note failures next) :
    next.work < run.work := by
  -- in an open cycle, what is ahead stays as it is
  have hbusy : ∀ {cycle after : CycleState} {accounts : Accounts}, run.stage = .busy cycle →
      after.work run.setup.policy < cycle.work run.setup.policy →
        work { run with stage := .busy after, accounts := accounts } < run.work := by
    intro cycle after accounts hstage hless
    simp only [work, ahead, hstage, Stage.work]
    omega
  cases hmove with
  | fire hfired =>
    simp only [work, ahead, hfired, if_true, Bool.false_eq_true, if_false]
    exact Nat.lt_succ_self _
  | @openCycle planned hstage hfired hcycle =>
    obtain ⟨hindex, -⟩ := hsound.cycle?_eq_some.mp hcycle
    obtain ⟨cycles, hcycles⟩ : ∃ cycles, run.setup.plan.cycleCount - run.next = cycles + 1 :=
      ⟨run.setup.plan.cycleCount - run.next - 1, by omega⟩
    have hrest : run.setup.plan.cycleCount - (run.next + 1) = cycles := by omega
    simp only [work, ahead, hstage, hsound.batchesFrom_eq_append hcycle, List.length_append,
      Stage.work, CycleState.work_ofCycle, hcycles, hrest, Nat.add_mul, Nat.one_mul]
    omega
  | pool hstage hpool =>
    refine hbusy hstage ?_
    exact Nat.add_lt_add_right (Pool.turn_of_step? hpool).work_lt _
  | intake hstage hresults => exact hbusy hstage (CycleState.work_intake _ hresults _ _)
  | deliver hstage hdelivery => exact hbusy hstage (CycleState.work_deliver _ hdelivery)
  | closeCycle hstage =>
    simp only [work, ahead, hstage, Stage.work]
    omega
  | cancelRest hstage =>
    simp only [work, ahead, hstage, Stage.work, List.length_nil]
    omega
  | conclude hstage =>
    simp only [work, ahead, hstage, Stage.work, List.length_nil]
    omega

/-- **Transitions in a row use up what is left to do.** -/
theorem work_of_execute (hsound : run.setup.plan.Sound) (h : run.execute events = some final) :
    events.length + final.work ≤ run.work := by
  induction events generalizing run with
  | nil =>
    obtain rfl := Option.some.inj h
    exact Nat.le_of_eq (Nat.zero_add _)
  | cons event rest ih =>
    obtain ⟨next, hstep, hrest⟩ := Option.bind_eq_some_iff.mp h
    obtain ⟨failures, hmove⟩ := move_of_step? hstep
    have hless := hmove.work_lt hsound
    have hbound := ih (hmove.setup_eq ▸ hsound) hrest
    rw [List.length_cons]
    omega

/-- **No run goes on for ever.** -/
theorem not_exists_infinite (hsound : run.setup.plan.Sound) :
    ¬∃ states : Nat → Run, states 0 = run ∧
      ∀ n, ∃ event, (states n).step? event = some (states (n + 1)) := by
  rintro ⟨states, hstart, hsteps⟩
  -- after `n` transitions at least `n` less is left to do, which ends below zero
  have hbound : ∀ n, (states n).setup = run.setup ∧ n + (states n).work ≤ run.work := by
    intro n
    induction n with
    | zero =>
      rw [hstart, Nat.zero_add]
      exact ⟨rfl, Nat.le_refl _⟩
    | succ n ih =>
      obtain ⟨event, hstep⟩ := hsteps n
      obtain ⟨failures, hmove⟩ := move_of_step? hstep
      have hless := hmove.work_lt (ih.1 ▸ hsound)
      exact ⟨hmove.setup_eq.trans ih.1, by omega⟩
  have hlast := (hbound (run.work + 1)).2
  omega

/-- As long as no other cycle is started, an open cycle makes no more transitions than it has left,
and one of the token. -/
theorem cycle_work_of_execute (hsound : run.setup.plan.Sound) (hstage : run.stage = .busy cycle)
    (h : run.execute events = some final) (hnext : final.next = run.next)
    (hlater : final.stage = .busy later) :
    events.length + later.work run.setup.policy ≤ cycle.work run.setup.policy + 1 := by
  have hbound := work_of_execute hsound h
  have htoken : (if run.fired then 0 else 1) ≤ 1 := by split <;> omega
  simp only [work, ahead, hstage, hlater, hnext, setup_eq_of_execute h, Stage.work] at hbound
  omega

/-! ### What an open cycle has from its start -/

/-- An open cycle is the one that was started last; it has the room in its queues that it was
started with, and no more to do than then. -/
def Limited (run : Run) : Prop :=
  ∀ cycle, run.stage = .busy cycle → cycle.pool.capacity = max run.setup.queueCapacity 1 ∧
    ∃ planned, run.setup.plan.cycle? (run.next - 1) = some planned ∧
      cycle.work run.setup.policy ≤
        planned.batches.length * run.setup.policy.batchWork + max run.setup.workers 1

/-- Every move keeps an open cycle limited. -/
theorem Limited.move (h : run.Limited) (hmove : run.Move note failures next) : next.Limited := by
  intro after hafter
  -- only within an open cycle does anything remain to be kept
  cases hmove with
  | fire => exact h after hafter
  | openCycle _ _ hcycle =>
    obtain rfl := Stage.busy.inj hafter
    exact ⟨rfl, _, hcycle, Nat.le_of_eq (CycleState.work_ofCycle ..)⟩
  | @pool cycle event pool signal hstage hpool =>
    obtain rfl := Stage.busy.inj hafter
    obtain ⟨hcapacity, planned, hplanned, hwork⟩ := h cycle hstage
    have hturn := Pool.turn_of_step? hpool
    refine ⟨hturn.capacity_eq.trans hcapacity, planned, hplanned, Nat.le_trans ?_ hwork⟩
    exact Nat.add_le_add_right (Nat.le_of_lt hturn.work_lt) _
  | @intake cycle result rest hstage hresults =>
    obtain rfl := Stage.busy.inj hafter
    obtain ⟨hcapacity, planned, hplanned, hwork⟩ := h cycle hstage
    exact ⟨hcapacity, planned, hplanned,
      Nat.le_trans (Nat.le_of_lt (CycleState.work_intake _ hresults _ _)) hwork⟩
  | @deliver cycle position delivery result hstage hdelivery =>
    obtain rfl := Stage.busy.inj hafter
    obtain ⟨hcapacity, planned, hplanned, hwork⟩ := h cycle hstage
    exact ⟨hcapacity, planned, hplanned,
      Nat.le_trans (Nat.le_of_lt (CycleState.work_deliver _ hdelivery)) hwork⟩
  | closeCycle | cancelRest | conclude => simp at hafter

theorem limited_of_execute (h : (start setup telemetry).execute events = some run) :
    run.Limited := by
  refine execute_induct (motive := fun now _ => now.Limited) h
    (fun cycle hstage => by simp [start] at hstage) fun hnow hstep => ?_
  obtain ⟨failures, hmove⟩ := move_of_step? hstep
  exact hnow.move hmove

/-! ### What a run waits for -/

/-- What a run waits for from outside, with the events that can end the wait: as long as the token
has not fired, whatever a worker waits for; and the end of a delivery that has something to hand
on. -/
inductive Awaits (run : Run) : Event → Prop
  | worker {cycle : CycleState} {worker : Nat} {batch : Batch} {attempt : Attempt}
    {event : Pool.Event} (hstage : run.stage = .busy cycle) (hfired : run.fired = false)
    (htrying : cycle.pool.workers[worker]? = some (.trying batch attempt))
    (hends : attempt.Ends worker event) : Awaits run (.pool event)
  | delivery {cycle : CycleState} {position : Nat} {delivery : Delivery}
    (hstage : run.stage = .busy cycle) (hdelivery : cycle.deliveries[position]? = some delivery)
    (hrecords : delivery.records ≠ []) (result : Except DispatchError Unit) :
    Awaits run (.deliver position result)

theorem exists_step?_of_turn (hstage : run.stage = .busy cycle) {event : Pool.Event} {after : Pool}
    (hturn : cycle.pool.Turn run.setup.policy run.fired event after) :
    ∃ next, run.step? (.pool event) = some next := by
  simp only [step?, pool?, hstage, hturn.step?, Option.map_some]
  exact ⟨_, rfl⟩

/-- **However a wait ends, the run takes it up.** -/
theorem Awaits.exists_step? (h : run.Awaits event) : ∃ next, run.step? event = some next := by
  cases h with
  | @worker cycle worker batch attempt event hstage hfired htrying hends =>
    obtain ⟨after, hturn⟩ := Pool.turn_of_ends run.setup.policy htrying hends
    rw [← hfired] at hturn
    exact exists_step?_of_turn hstage hturn
  | @delivery cycle position delivery hstage hdelivery hrecords result =>
    have hfilled : delivery.records.isEmpty = false := by
      rwa [List.isEmpty_eq_false_iff]
    simp only [step?, deliver?, hstage, hdelivery, hfilled, Bool.false_and, Bool.false_eq_true,
      if_false]
    exact ⟨_, rfl⟩

theorem exists_step?_intake (hstage : run.stage = .busy cycle)
    (hresults : cycle.pool.results ≠ []) : ∃ next, run.step? .intake = some next := by
  obtain ⟨result, rest, hcons⟩ := List.exists_cons_of_ne_nil hresults
  simp only [step?, intake?, hstage, Pool.takeResult?, hcons, Option.map_some]
  exact ⟨_, rfl⟩

theorem exists_step?_closeCycle (hstage : run.stage = .busy cycle) (hover : cycle.isOver = true) :
    ∃ closed, run.step? .closeCycle = some closed := by
  simp only [step?, closeCycle?, hstage, hover, if_true]
  exact ⟨_, rfl⟩

theorem exists_step?_deliver (hstage : run.stage = .busy cycle) {position : Nat}
    {delivery : Delivery} (hdelivery : cycle.deliveries[position]? = some delivery) :
    ∃ next, run.step? (.deliver position (.ok ())) = some next := by
  simp only [step?, deliver?, hstage, hdelivery, Except.isOk, Except.toBool, Bool.not_true,
    Bool.and_false, Bool.false_eq_true, if_false]
  exact ⟨_, rfl⟩

/-! ### An open cycle moves on -/

/-- **An open cycle that waits for nothing outside moves on**, and not only because the token
fires. -/
theorem exists_step? (hstage : run.stage = .busy cycle) (hcapacity : 1 ≤ cycle.pool.capacity)
    (hnone : ∀ event, ¬run.Awaits event) :
    ∃ event next, event ≠ .fire ∧ run.step? event = some next := by
  by_cases hresults : cycle.pool.results = []
  case neg =>
    obtain ⟨next, hstep⟩ := exists_step?_intake hstage hresults
    exact ⟨.intake, next, by simp, hstep⟩
  cases hdeserted : cycle.pool.isDeserted with
  | false =>
    -- somebody is there, and the second queue is empty
    rcases Pool.exists_turn run.setup.policy run.fired hcapacity hdeserted
      with ⟨worker, result, hreporting⟩ | ⟨hfired, worker, batch, attempt, htrying⟩ |
        ⟨event, after, -, hturn⟩
    · have hroom : cycle.pool.results.length < cycle.pool.capacity := by
        rw [hresults]
        exact hcapacity
      obtain ⟨next, hstep⟩ := exists_step?_of_turn hstage (.report hreporting hroom)
      exact ⟨.pool (.report worker), next, by simp, hstep⟩
    · obtain ⟨event, hends⟩ := attempt.exists_ends worker
      exact absurd (.worker hstage hfired htrying hends) (hnone _)
    · obtain ⟨next, hstep⟩ := exists_step?_of_turn hstage hturn
      exact ⟨.pool event, next, by simp, hstep⟩
  | true =>
    cases hdeliveries : cycle.deliveries with
    | cons delivery rest =>
      have hfirst : cycle.deliveries[0]? = some delivery := by rw [hdeliveries]; rfl
      obtain ⟨next, hstep⟩ := exists_step?_deliver hstage hfirst
      exact ⟨.deliver 0 (.ok ()), next, by simp, hstep⟩
    | nil =>
      have hover : cycle.isOver = true := by
        simp [CycleState.isOver, Pool.isOver, hdeserted, hresults, hdeliveries]
      obtain ⟨closed, hclose⟩ := exists_step?_closeCycle hstage hover
      exact ⟨.closeCycle, closed, by simp, hclose⟩

/-- When an open cycle can only be closed, it is over. -/
theorem isOver_of_stuck (hstage : run.stage = .busy cycle) (hcapacity : 1 ≤ cycle.pool.capacity)
    (hstuck : ∀ event, event ≠ .fire → event ≠ .closeCycle → run.step? event = none) :
    cycle.isOver = true := by
  have hnone : ∀ event, ¬run.Awaits event := by
    intro event hawaits
    obtain ⟨next, hstep⟩ := hawaits.exists_step?
    cases hawaits <;> simp [hstuck] at hstep
  obtain ⟨event, next, hfire, hstep⟩ := exists_step? hstage hcapacity hnone
  by_cases hclose : event = .closeCycle
  · subst hclose
    exact (isOver_of_closeCycle hstage hstep).1
  · simp [hstuck event hfire hclose] at hstep

end Run

/-! ### The end of a cycle -/

/-- Nothing is left of a cycle: every worker is gone, both queues are empty and no delivery is under
way.  Batches that nobody has taken may be left in the first queue, if all workers have broken
down. -/
structure CycleState.IsDone (workers : Nat) (cycle : CycleState) : Prop where
  deserted : cycle.pool.isDeserted = true
  results : cycle.pool.results = []
  deliveries : cycle.deliveries = []
  untried : cycle.pool.untried = [] ∨ cycle.pool.workers = List.replicate workers .lost

/-- Nothing is left of a cycle that is over. -/
theorem CycleState.isDone_of_isOver {cycle : CycleState} {workers : Nat} {planned : Cycle}
    {notes : List Note} (hstaffed : cycle.pool.Staffed workers planned notes)
    (hover : cycle.isOver = true) : cycle.IsDone workers := by
  rw [isOver, Bool.and_eq_true] at hover
  have hpool := hover.1
  rw [Pool.isOver, Bool.and_eq_true] at hpool
  refine ⟨hpool.1, List.isEmpty_iff.mp hpool.2, List.isEmpty_iff.mp hover.2, ?_⟩
  rcases List.eq_nil_or_concat cycle.pool.untried with hnil | ⟨rest, batch, hconcat⟩
  · exact .inl hnil
  · -- somebody who has left would have taken the batch
    have hbatch : batch ∈ cycle.pool.untried := by simp [hconcat]
    have hlost := hstaffed.lostWorkers_eq hover.1 hbatch
    rw [← hstaffed.length, Pool.lostWorkers, List.countP_eq_length] at hlost
    refine .inr (List.eq_replicate_iff.mpr ⟨hstaffed.length, fun worker hworker => ?_⟩)
    exact of_decide_eq_true (hlost worker hworker)

namespace Run

variable {setup : RunSetup} {asked : List Nat} {telemetry : Telemetry} {run : Run}
  {events : List Event} {cycle : CycleState}

/-- What may follow in the open cycle of a run. -/
structure FinishesCycle (run : Run) (planned : Cycle) (cycle : CycleState) : Prop where
  /-- The transitions that are left are limited by what the cycle has to do. -/
  work_le : cycle.work run.setup.policy ≤
    planned.batches.length * run.setup.policy.batchWork + max run.setup.workers 1
  /-- Until another cycle is started, there are no more transitions than are left, and one of the
  token. -/
  bounded : ∀ {events final later}, run.execute events = some final → final.next = run.next →
    final.stage = .busy later →
      events.length + later.work run.setup.policy ≤ cycle.work run.setup.policy + 1
  /-- However a wait for something outside ends, the run takes it up. -/
  answered : ∀ {event}, run.Awaits event → ∃ next, run.step? event = some next
  /-- When the second queue is full, somebody can empty it. -/
  emptied : cycle.pool.capacity ≤ cycle.pool.results.length → ∃ next, run.step? .intake = some next
  /-- A cycle that waits for nothing outside moves on, and not only because the token fires. -/
  moves : (∀ event, ¬run.Awaits event) → ∃ event next, event ≠ .fire ∧ run.step? event = some next
  /-- When nothing is possible any more but to close the cycle, nothing is left of it. -/
  done : (∀ event, event ≠ .fire → event ≠ .closeCycle → run.step? event = none) →
    cycle.IsDone (max run.setup.workers 1)
  /-- A cycle of which nothing is left is closed: no batch is pending then, and every slot of the
  cycle is settled. -/
  closes : cycle.IsDone (max run.setup.workers 1) → ∃ closed, run.step? .closeCycle = some closed ∧
    closed.stage = .between ∧ closed.pending = [] ∧
      ∀ batch ∈ planned.batches, ∀ slot ∈ batch.slots, slot ∉ closed.unsettled
  /-- When a delivery breaks down, the cycle goes with it; what is left of its pool comes to its end
  as well. -/
  stranded : ∀ {events final},
    (StrandedPool.ofPool run.setup.policy run.fired cycle.pool).execute events = some final →
      events.length ≤ cycle.work run.setup.policy + 1 ∧
        (final.pool.isDeserted = false → ∃ event, final.step? (.pool event) ≠ none)

/-- **Every cycle comes to its end.**  Whatever the plan, the number of workers, the room in the
queues and the sink, whenever the token fires, and however producer, workers, reader and deliveries
have taken turns so far:

* There is no infinite sequence of transitions, and until the cycle is closed there are at most
  `3 * attempts + 4` for each of its batches, and one for each worker and for the token.
* As long as the cycle is not over, some party can move, or the run waits for something outside and
  takes up whatever comes of it, be it an answer, an error or a breakdown.  So full queues never
  make the parties wait for one another, with any number of workers that have broken down.
* When no party can move and nothing outside is waited for, both queues are empty and no delivery is
  under way, except for batches in the first queue that are given up because all workers have broken
  down; then the cycle is closed, nothing is pending, and every slot of it is settled. -/
theorem cycle_always_finishes (hasks : setup.Asks asked)
    (h : (start setup telemetry).execute events = some run) (hstage : run.stage = .busy cycle) :
    (¬∃ states : Nat → Run, states 0 = run ∧
      ∀ n, ∃ event, (states n).step? event = some (states (n + 1))) ∧
      ∃ planned, setup.plan.cycle? (run.next - 1) = some planned ∧
        run.FinishesCycle planned cycle := by
  have hsetup := setup_of_execute h
  have hsound : run.setup.plan.Sound := hsetup ▸ hasks.sound
  obtain ⟨hroom, planned, hplanned, hwork⟩ := limited_of_execute h cycle hstage
  have hcapacity : 1 ≤ cycle.pool.capacity := hroom ▸ Nat.le_max_right _ _
  obtain ⟨-, hstaffed⟩ := explained_of_execute hasks.sound h
  -- the staff of the pool tells apart who has left and who was lost
  obtain ⟨other, -, hpool⟩ := hstaffed.busy cycle hstage
  refine ⟨not_exists_infinite hsound, planned, hsetup ▸ hplanned, ?_⟩
  refine {
    work_le := hwork
    bounded := cycle_work_of_execute hsound hstage
    answered := Awaits.exists_step?
    emptied := fun hfull => exists_step?_intake hstage fun hnil => ?_
    moves := exists_step? hstage hcapacity
    done := fun hstuck => ?_
    closes := fun hdone => ?_
    stranded := fun hexecute => ?_ }
  · rw [hnil] at hfull
    exact absurd (Nat.le_trans hcapacity hfull) (by decide)
  · exact CycleState.isDone_of_isOver hpool (isOver_of_stuck hstage hcapacity hstuck)
  · -- with nothing left the cycle can be closed, and every slot of it has been entered
    have hover : cycle.isOver = true := by
      simp [CycleState.isOver, Pool.isOver, hdone.deserted, hdone.results, hdone.deliveries]
    obtain ⟨closed, hclose⟩ := exists_step?_closeCycle hstage hover
    obtain ⟨-, hbetween, -⟩ := isOver_of_closeCycle hstage hclose
    refine ⟨closed, hclose, hbetween, by rw [pending, hbetween], fun batch hbatch slot => ?_⟩
    obtain ⟨same, hsame, hbatches⟩ := cycling_of_execute hasks.sound h cycle hstage
    obtain rfl := Option.some.inj (hplanned.symm.trans hsame)
    exact (delivered_of_execute hasks.sound h).not_mem_unsettled hstage hclose
      (hbatches batch hbatch)
  · obtain ⟨hlength, hmoves⟩ := StrandedPool.comes_to_end hcapacity hexecute
    refine ⟨Nat.le_trans hlength ?_, hmoves⟩
    exact Nat.add_le_add_right (Nat.le_add_right _ _) 1

/-- Both queues are full, one of the two workers has broken down and the other one has a result to
hand over.  Nothing outside is waited for, but the reader can move; and however the five batches of
the cycle fare from here on, there are at most 38 more transitions. -/
theorem cycle_always_finishes_between_full_queues :
    let settings : Settings := { (default : Settings) with batchesPerCycle := 5, workers := 2 }
    let setup := RunSetup.ofRange settings true ⟨5, 9⟩ 0
    let events : List Event :=
      [.openCycle, .pool .enqueue, .pool (.take 0), .pool .enqueue, .pool (.take 1), .pool .enqueue,
        .pool (.attempt 0 .start), .pool (.attempt 0 (.finish (.ok []))), .pool (.report 0),
        .pool (.take 0), .pool .enqueue, .pool (.attempt 1 .start), .pool (.breakDown 1),
        .pool (.attempt 0 .start), .pool (.attempt 0 (.finish (.ok [(7, .fetched .null)])))]
    let cycle : CycleState :=
      { pool := ⟨1, [⟨4, [9]⟩], [⟨3, [8]⟩],
          [.reporting ⟨⟨2, [7]⟩, [(7, .fetched .null)], 1⟩, .lost], [⟨⟨0, [5]⟩, [], 1⟩]⟩
        pending := [⟨0, [5]⟩, ⟨1, [6]⟩, ⟨2, [7]⟩, ⟨3, [8]⟩, ⟨4, [9]⟩]
        deliveries := [] }
    setup.Asks [5, 6, 7, 8, 9] ∧ ∃ run planned,
      (start setup .zero).execute events = some run ∧ run.stage = .busy cycle ∧
        run.FinishesCycle planned cycle ∧ (∀ event, ¬run.Awaits event) ∧
        (∃ next, run.step? .intake = some next) ∧
        ∀ more final later, run.execute more = some final → final.next = run.next →
          final.stage = .busy later → more.length ≤ 38 := by
  intro settings setup events cycle
  have hasks : setup.Asks [5, 6, 7, 8, 9] :=
    @RunSetup.Asks.overRange 5 9 ⟨5, 9⟩ settings true 0 (by decide) rfl
  obtain ⟨run, hrun⟩ : ∃ run, (start setup .zero).execute events = some run :=
    Option.isSome_iff_exists.mp (by decide)
  have hbusy : ((start setup .zero).execute events).map (·.stage) = some (.busy cycle) := by decide
  rw [hrun] at hbusy
  have hstage := Option.some.inj hbusy
  obtain ⟨-, planned, hplanned, hfinishes⟩ := cycle_always_finishes hasks hrun hstage
  -- the bound of the theorem, computed for this state
  have hwork : cycle.work run.setup.policy ≤ 37 := by
    rw [setup_of_execute hrun]
    decide
  refine ⟨hasks, run, planned, hrun, hstage, hfinishes, fun event hawaits => ?_,
    hfinishes.emptied (by decide), fun more final later hmore hnext hlater => ?_⟩
  · cases hawaits with
    | worker hstage' _ htrying =>
      obtain rfl := Stage.busy.inj (hstage.symm.trans hstage')
      have hmem := List.mem_of_getElem? htrying
      simp [cycle] at hmem
    | delivery hstage' hdelivery =>
      obtain rfl := Stage.busy.inj (hstage.symm.trans hstage')
      simp [cycle] at hdelivery
  · have hbound := hfinishes.bounded hmore hnext hlater
    omega

end Run

end Backfill
