import Backfill.Proofs.BatchStories
import Mathlib.Algebra.BigOperators.Group.List.Basic
import Mathlib.Data.Nat.Cast.Basic

/-!
# A pool comes to its end

The queues of a pool are of limited size, and whoever puts something into one waits as long as it
is full.  A batch goes through both queues in one direction only, and a worker that has a result to
hand over can do so as soon as somebody takes one out; so nobody waits in a circle.  As to the end,
the pool counts down: each batch that is not in the queue yet, each place in a queue, each attempt
that is left and each worker stands for a number of transitions that may follow from it, and every
transition uses up at least one of them.

When somebody who takes the results breaks down, the pool is stranded: nobody empties the second
queue any more, and a worker that has a result leaves with it.  Such a pool comes to its end too.

## Main definitions

* `RetryPolicy.rest`, `Worker.work`, `Pool.work` — how many transitions may still follow.
* `Attempt.Ends` — the ways in which the wait of a worker for something outside can end.
* `StrandedPool` — a pool whose results nobody takes.

## Main results

* `Pool.Turn.work_lt` — **every transition leaves less to do.**
* `Pool.exists_turn` — a pool in which nobody waits for something outside moves on, or is over.
* `StrandedPool.comes_to_end` — also without anybody who takes the results.
-/

namespace Backfill

/-! ### Attempts -/

namespace RetryPolicy

/-- How many transitions an operation goes through at most until it ends. -/
def rest (policy : RetryPolicy) : Attempt → Nat
  | .waiting n => 3 * (policy.maxAttempts - n) + 2
  | .running n => 3 * (policy.maxAttempts - n) + 1
  | .pausing n => 3 * (policy.maxAttempts - (n + 1)) + 3

/-- How many transitions a batch and its result go through at most. -/
def batchWork (policy : RetryPolicy) : Nat := 3 * policy.maxAttempts + 4

variable {policy : RetryPolicy} {fired : Bool} {attempt next : Attempt}
  {event : Event Outcomes TransportError}

/-- An operation that goes on has less to go through. -/
theorem rest_lt
    (h : policy.step? TransportError.isRetryable fired attempt event = some (.inl next)) :
    policy.rest next < policy.rest attempt := by
  rcases cases_of_inl h with ⟨n, -, rfl, rfl⟩ | ⟨n, error, -, rfl, hless, rfl | rfl⟩ |
    ⟨n, -, rfl, rfl⟩
  · exact Nat.lt_succ_self _
  -- one attempt less is left after a failure, with a delay or without one
  · simp only [rest]
    omega
  · simp only [rest]
    omega
  · exact Nat.lt_succ_self _

theorem step?_cut (policy : RetryPolicy) (attempt : Attempt) :
    policy.step? TransportError.isRetryable true attempt (.cut : Event Outcomes TransportError) =
      some (.inr (.cancelled attempt.number)) := by
  cases attempt <;> rfl

end RetryPolicy

/-- How many transitions may follow from where a worker stands. -/
def Worker.work (policy : RetryPolicy) : Worker → Nat
  | .idle => 1
  | .trying _ attempt => policy.rest attempt + 4
  | .reporting _ => 4
  | .left => 0
  | .lost => 0

namespace Pool

/-! ### Transitions -/

variable {policy : RetryPolicy} {fired : Bool} {pool before after : Pool} {event : Event}

theorem Turn.capacity_eq (h : before.Turn policy fired event after) :
    after.capacity = before.capacity := by
  cases h <;> rfl

/-! ### Less and less to do -/

/-- How many transitions may follow in a pool whose results are taken. -/
def work (policy : RetryPolicy) (pool : Pool) : Nat :=
  pool.unsent.length * policy.batchWork + pool.queue.length * (policy.batchWork - 1) +
    (pool.workers.map (Worker.work policy)).sum + 2 * pool.results.length

/-- What may follow in a pool that has not started: each batch goes through its transitions, and
each worker leaves. -/
theorem work_ofBatches (policy : RetryPolicy) (workers capacity : Nat) (batches : List Batch) :
    (ofBatches workers capacity batches).work policy =
      batches.length * policy.batchWork + max workers 1 := by
  simp [work, ofBatches, Worker.work]

theorem work_setWorker (policy : RetryPolicy) {worker : Nat} {old : Worker}
    (h : pool.workers[worker]? = some old) (new : Worker) :
    old.work policy + (pool.setWorker worker new).work policy =
      new.work policy + pool.work policy := by
  have hperm := filterMap_set_perm (fun state => some (Worker.work policy state)) h new
  simp only [Option.toList_some, List.filterMap_eq_map', List.singleton_append] at hperm
  have hsum := hperm.sum_eq
  rw [List.sum_cons, List.sum_cons] at hsum
  simp only [work, setWorker]
  omega

theorem work_setWorker_lt {worker : Nat} {old new : Worker}
    (h : pool.workers[worker]? = some old) (hless : new.work policy < old.work policy) :
    (pool.setWorker worker new).work policy < pool.work policy := by
  have hset := work_setWorker policy h new
  omega

theorem work_afterAttempt_lt {batch : Batch} {attempt : Attempt}
    {event : RetryPolicy.Event Outcomes TransportError}
    {next : Attempt.Next Outcomes TransportError}
    (hstep : policy.step? TransportError.isRetryable fired attempt event = some next) :
    Worker.work policy (afterAttempt batch next) <
      Worker.work policy (.trying batch attempt) := by
  cases next with
  | inl next => exact Nat.add_lt_add_right (RetryPolicy.rest_lt hstep) 4
  | inr verdict => cases attempt <;> simp [afterAttempt, Worker.work, RetryPolicy.rest]

/-- The place of a batch in the queue outweighs all of its attempts. -/
theorem work_taken_lt (policy : RetryPolicy) (fired : Bool) (batch : Batch) :
    Worker.work policy
        (if fired then .reporting (.cancelled batch 0) else .trying batch (.waiting 1)) <
      Worker.work policy .idle + (policy.batchWork - 1) := by
  have hone := policy.one_le_maxAttempts
  cases fired with
  | true =>
    rw [if_pos rfl]
    simp only [Worker.work, RetryPolicy.batchWork]
    omega
  | false =>
    rw [if_neg Bool.false_ne_true]
    simp only [Worker.work, RetryPolicy.rest, RetryPolicy.batchWork]
    omega

/-- **Every transition leaves less to do.** -/
theorem Turn.work_lt (h : before.Turn policy fired event after) :
    after.work policy < before.work policy := by
  cases h with
  | @enqueue batch rest hunsent =>
    simp only [work, hunsent, List.length_cons, List.length_append, List.length_nil, Nat.add_mul,
      Nat.one_mul, RetryPolicy.batchWork]
    omega
  | @take worker batch rest hidle hqueue =>
    have hless := work_taken_lt policy fired batch
    have hset := work_setWorker policy hidle
      (if fired then .reporting (.cancelled batch 0) else .trying batch (.waiting 1))
    simp only [work, setWorker, hqueue, List.length_cons, Nat.add_mul, Nat.one_mul] at hset ⊢
    omega
  | attempt htrying hstep => exact work_setWorker_lt htrying (work_afterAttempt_lt hstep)
  | breakDown htrying => exact work_setWorker_lt htrying (Nat.succ_pos _)
  | report hreporting =>
    -- the worker has gone three transitions on, and the result has two before it
    have hset := work_setWorker policy hreporting .idle
    simp only [work, setWorker, Worker.work, List.length_append, List.length_cons,
      List.length_nil] at hset ⊢
    omega
  | leave hidle => exact work_setWorker_lt hidle Nat.zero_lt_one

/-! ### Nobody waits in a circle -/

end Pool

/-- The ways in which the wait of a worker for something outside can end: the request is let
through, the client answers or breaks down, or the delay is over. -/
inductive Attempt.Ends (worker : Nat) : Attempt → Pool.Event → Prop
  | permit (n : Nat) : Ends worker (.waiting n) (.attempt worker .start)
  | answer (n : Nat) (result : Except TransportError Outcomes) :
    Ends worker (.running n) (.attempt worker (.finish result))
  | breakDown (n : Nat) : Ends worker (.running n) (.breakDown worker)
  | delay (n : Nat) : Ends worker (.pausing n) (.attempt worker .resume)

theorem Attempt.exists_ends (worker : Nat) (attempt : Attempt) :
    ∃ event, attempt.Ends worker event := by
  cases attempt with
  | waiting n => exact ⟨_, .permit n⟩
  | running n => exact ⟨_, .breakDown n⟩
  | pausing n => exact ⟨_, .delay n⟩

namespace Pool

variable {policy : RetryPolicy} {fired : Bool} {pool : Pool} {worker : Nat}

theorem turn_of_ends (policy : RetryPolicy) {batch : Batch} {attempt : Attempt} {event : Event}
    (htrying : pool.workers[worker]? = some (.trying batch attempt))
    (hends : attempt.Ends worker event) : ∃ after, pool.Turn policy false event after := by
  cases hends with
  | permit => exact ⟨_, .attempt htrying rfl⟩
  | answer n result =>
    cases result with
    | ok => exact ⟨_, .attempt htrying rfl⟩
    | error => exact ⟨_, .attempt htrying rfl⟩
  | breakDown => exact ⟨_, .breakDown htrying rfl⟩
  | delay => exact ⟨_, .attempt htrying rfl⟩

/-- A worker that waits for a batch finds one, can be given one, or can leave. -/
theorem exists_turn_of_idle (hcapacity : 1 ≤ pool.capacity)
    (hidle : pool.workers[worker]? = some .idle) :
    ∃ event after, (∀ other, event ≠ .report other) ∧ pool.Turn policy fired event after := by
  cases hqueue : pool.queue with
  | cons batch rest => exact ⟨.take worker, _, by simp, .take hidle hqueue⟩
  | nil =>
    cases hunsent : pool.unsent with
    | nil => exact ⟨.leave worker, _, by simp, .leave hidle hqueue hunsent⟩
    | cons batch rest =>
      refine ⟨.enqueue, _, by simp, .enqueue hunsent ?_ ?_⟩
      · rw [hqueue]
        exact hcapacity
      · -- the worker itself is still there
        refine Bool.eq_false_iff.mpr fun hdeserted => ?_
        rw [isDeserted, List.all_eq_true] at hdeserted
        exact Bool.false_ne_true (hdeserted .idle (List.mem_of_getElem? hidle))

/-- **In a pool with a worker that is not gone, somebody can move**: a worker has a result to hand
over, or waits for something outside, or there is a transition that neither of them makes. -/
theorem exists_turn (policy : RetryPolicy) (fired : Bool) (hcapacity : 1 ≤ pool.capacity)
    (hstaffed : pool.isDeserted = false) :
    (∃ (worker : Nat) (result : BatchResult), pool.workers[worker]? = some (.reporting result)) ∨
      (fired = false ∧ ∃ (worker : Nat) (batch : Batch) (attempt : Attempt),
        pool.workers[worker]? = some (.trying batch attempt)) ∨
      ∃ event after, (∀ worker, event ≠ .report worker) ∧ pool.Turn policy fired event after := by
  rw [isDeserted, List.all_eq_false] at hstaffed
  obtain ⟨state, hmem, hstays⟩ := hstaffed
  obtain ⟨worker, hworker⟩ := List.getElem?_of_mem hmem
  -- With an idle worker there is always a turn; any other one waits for an answer or has a result.
  cases state with
  | idle => exact .inr (.inr (exists_turn_of_idle hcapacity hworker))
  | trying batch attempt =>
    cases fired with
    | false => exact .inr (.inl ⟨rfl, worker, batch, attempt, hworker⟩)
    | true =>
      have hturn : pool.Turn policy true (.attempt worker .cut) _ :=
        .attempt hworker (policy.step?_cut attempt)
      exact .inr (.inr ⟨.attempt worker .cut, _, by simp, hturn⟩)
  | reporting result => exact .inl ⟨worker, result, hworker⟩
  | left | lost => exact absurd rfl hstays

end Pool

/-! ### Nobody takes the results -/

/-- A pool whose results nobody takes any more. -/
structure StrandedPool where
  policy : RetryPolicy
  pool : Pool
  /-- Whether the token has fired. -/
  fired : Bool

namespace StrandedPool

/-- What is left of a pool when whoever takes its results has broken down: the results are gone
with it. -/
def ofPool (policy : RetryPolicy) (fired : Bool) (pool : Pool) : StrandedPool :=
  ⟨policy, { pool with results := [] }, fired⟩

/-- What can happen in a stranded pool. -/
inductive Event
  /-- The token fires. -/
  | fire
  /-- A party of the pool moves. -/
  | pool (event : Pool.Event)

/-- One transition; a worker that has a result leaves with it. -/
def step? (stranded : StrandedPool) : Event → Option StrandedPool
  | .fire => if stranded.fired then none else some { stranded with fired := true }
  | .pool (.report worker) =>
    (stranded.pool.dropResult? worker).map fun pool => { stranded with pool := pool }
  | .pool event =>
    (stranded.pool.step? stranded.policy stranded.fired event).map fun (pool, _) =>
      { stranded with pool := pool }

/-- Transitions in a row. -/
def execute (stranded : StrandedPool) : List Event → Option StrandedPool
  | [] => some stranded
  | event :: rest => (stranded.step? event).bind fun next => execute next rest

/-- How many transitions may follow. -/
def work (stranded : StrandedPool) : Nat :=
  stranded.pool.work stranded.policy + if stranded.fired then 0 else 1

variable {stranded next final : StrandedPool} {event : Event} {events : List Event}

theorem work_ofPool_le (policy : RetryPolicy) (fired : Bool) (pool : Pool) :
    (ofPool policy fired pool).work ≤ pool.work policy + 1 := by
  have hpool : ({ pool with results := [] } : Pool).work policy ≤ pool.work policy := by
    simp only [Pool.work, List.length_nil]
    omega
  exact Nat.add_le_add hpool (by split <;> omega)

theorem step?_pool {event : Pool.Event} (h : ∀ worker, event ≠ .report worker) :
    stranded.step? (.pool event) =
      (stranded.pool.step? stranded.policy stranded.fired event).map fun (pool, _) =>
        { stranded with pool := pool } := by
  cases event with
  | report worker => exact absurd rfl (h worker)
  | _ => rfl

/-- Every transition leaves less to do, and the room in the queues as it is. -/
theorem work_lt_of_step? (h : stranded.step? event = some next) :
    next.work < stranded.work ∧ next.pool.capacity = stranded.pool.capacity := by
  have hpool : ∀ {pool : Pool}, pool.work stranded.policy < stranded.pool.work stranded.policy →
      work { stranded with pool := pool } < stranded.work := fun hless =>
    Nat.add_lt_add_right hless _
  cases event with
  | fire =>
    simp only [step?] at h
    split at h
    · simp at h
    · next hfired =>
      obtain rfl := Option.some.inj h
      exact ⟨by simp [work, hfired], rfl⟩
  | pool event =>
    -- A report is dropped here instead of sent on, so it is not the pool's own step.
    by_cases hreport : ∃ worker, event = .report worker
    · obtain ⟨worker, rfl⟩ := hreport
      obtain ⟨pool, hdrop, rfl⟩ := Option.map_eq_some_iff.mp h
      unfold Pool.dropResult? at hdrop
      split at hdrop
      · next result hreporting =>
        obtain rfl := Option.some.inj hdrop
        exact ⟨hpool (Pool.work_setWorker_lt hreporting (by simp [Worker.work])), rfl⟩
      · simp at hdrop
    · rw [step?_pool fun worker heq => hreport ⟨worker, heq⟩] at h
      obtain ⟨⟨pool, signal⟩, hstep, rfl⟩ := Option.map_eq_some_iff.mp h
      have hturn := Pool.turn_of_step? hstep
      exact ⟨hpool hturn.work_lt, hturn.capacity_eq⟩

/-- Transitions in a row use up what is left to do. -/
theorem work_of_execute (h : stranded.execute events = some final) :
    events.length + final.work ≤ stranded.work ∧
      final.pool.capacity = stranded.pool.capacity := by
  induction events generalizing stranded with
  | nil =>
    obtain rfl := Option.some.inj h
    exact ⟨Nat.le_of_eq (Nat.zero_add _), rfl⟩
  | cons event rest ih =>
    obtain ⟨next, hstep, hrest⟩ := Option.bind_eq_some_iff.mp h
    obtain ⟨hless, hcapacity⟩ := work_lt_of_step? hstep
    obtain ⟨hbound, hsame⟩ := ih hrest
    rw [List.length_cons]
    exact ⟨by omega, hsame.trans hcapacity⟩

/-- As long as a worker is not gone, a stranded pool can move without the token. -/
theorem exists_step? (hcapacity : 1 ≤ stranded.pool.capacity)
    (hstaffed : stranded.pool.isDeserted = false) :
    ∃ event, stranded.step? (.pool event) ≠ none := by
  -- What blocks the pool, a full queue of results, does not block one whose results are dropped.
  rcases Pool.exists_turn stranded.policy stranded.fired hcapacity hstaffed with
    ⟨worker, result, hreporting⟩ | ⟨hfired, worker, batch, attempt, htrying⟩ |
    ⟨event, after, hreport, hturn⟩
  · exact ⟨.report worker, by simp [step?, Pool.dropResult?, hreporting]⟩
  · obtain ⟨event, hends⟩ := attempt.exists_ends worker
    obtain ⟨after, hturn⟩ := Pool.turn_of_ends stranded.policy htrying hends
    have hreport : ∀ other, event ≠ .report other := by
      intro other heq
      cases hends <;> simp at heq
    exact ⟨event, by simp [step?_pool hreport, hfired, hturn.step?]⟩
  · exact ⟨event, by simp [step?_pool hreport, hturn.step?]⟩

/-- **A stranded pool comes to its end**: it makes no more transitions than are left in the pool
and one of the token, and as long as a worker is not gone, there is one without the token. -/
theorem comes_to_end {policy : RetryPolicy} {fired : Bool} {pool : Pool}
    (hcapacity : 1 ≤ pool.capacity)
    (h : (ofPool policy fired pool).execute events = some final) :
    events.length ≤ pool.work policy + 1 ∧
      (final.pool.isDeserted = false → ∃ event, final.step? (.pool event) ≠ none) := by
  obtain ⟨hbound, hsame⟩ := work_of_execute h
  refine ⟨?_, exists_step? (hsame ▸ hcapacity)⟩
  have hstart := work_ofPool_le policy fired pool
  omega

end StrandedPool

end Backfill
