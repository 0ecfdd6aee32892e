import Backfill.Proofs.RunHistory
import Mathlib.Data.List.Perm.Basic
import Mathlib.Data.List.Perm.Subperm

/-!
# Where the batches of a cycle are

A batch of a cycle waits until a worker takes it; the worker tries it until there is a result; the
result is with the worker until there is room for it, and then among the results.  So there are
three places where a batch can be, and all that a transition of the pool does is to move one batch
on, or to lose it with its worker.  The order inside a place says nothing about a batch, and what
is said here is said up to the order.

## Main definitions

* `Pool.Turn` — the transitions of a pool, each with what it needs and what it leads to.
* `Pool.signalled` — what a transition signals.
* `Pool.untried`, `Pool.tried`, `Pool.finished` — the three places.
* `Pool.batches` — the batches in all of them.
* `Pool.Shift` — what a transition does to the three places, and what is noted.

## Main results

* `Pool.turn_of_step?`, `Pool.Turn.step?`, `Pool.signal_of_step?` — the transitions are the turns,
  and each signals what it should.
* `Pool.Turn.shift` — **every transition moves one batch on, or none.**
* `Pool.Shift.batches_perm` — no batch is added, and only a broken worker takes one away.
-/

namespace Backfill

/-- What one place of a list contributes is exchanged when the place is overwritten. -/
theorem filterMap_set_perm {α β : Type} (f : α → Option β) {list : List α} {i : Nat} {old : α}
    (h : list[i]? = some old) (new : α) :
    ((f old).toList ++ (list.set i new).filterMap f).Perm
      ((f new).toList ++ list.filterMap f) := by
  induction list generalizing i with
  | nil => simp at h
  | cons first rest ih =>
    -- The entry at hand shows in front of the others, whatever `f` makes of them.
    have hcons : ∀ x : α, ∀ xs : List α, (x :: xs).filterMap f = (f x).toList ++ xs.filterMap f :=
      fun x xs => by cases hx : f x <;> simp [hx]
    cases i with
    | zero =>
      obtain rfl := Option.some.inj h
      rw [List.set_cons_zero, hcons, hcons, ← List.append_assoc, ← List.append_assoc]
      exact List.perm_append_comm.append_right _
    | succ i =>
      have hrest := (ih h).append_left (f first).toList
      rw [List.set_cons_succ, hcons, hcons]
      exact (List.perm_append_comm_assoc _ _ _).trans
        (hrest.trans (List.perm_append_comm_assoc _ _ _))

namespace Worker

/-- The batch that the worker tries. -/
def trying? : Worker → Option (Batch × Attempt)
  | .trying batch attempt => some (batch, attempt)
  | _ => none

/-- The result that the worker has to hand over. -/
def reporting? : Worker → Option BatchResult
  | .reporting result => some result
  | _ => none

end Worker

namespace Pool

/-! ### Transitions -/

/-- The transitions of a pool, each with what it needs and what it leads to. -/
inductive Turn (policy : RetryPolicy) (fired : Bool) (pool : Pool) : Event → Pool → Prop
  | enqueue {batch : Batch} {rest : List Batch} (hunsent : pool.unsent = batch :: rest)
    (hroom : pool.queue.length < pool.capacity) (hstaffed : pool.isDeserted = false) :
    Turn policy fired pool .enqueue { pool with unsent := rest, queue := pool.queue ++ [batch] }
  | take {worker : Nat} {batch : Batch} {rest : List Batch}
    (hidle : pool.workers[worker]? = some .idle) (hqueue : pool.queue = batch :: rest) :
    Turn policy fired pool (.take worker)
      { pool.setWorker worker
          (if fired then .reporting (.cancelled batch 0) else .trying batch (.waiting 1)) with
        queue := rest }
  | attempt {worker : Nat} {batch : Batch} {attempt : Attempt}
    {event : RetryPolicy.Event Outcomes TransportError}
    {next : Attempt.Next Outcomes TransportError}
    (htrying : pool.workers[worker]? = some (.trying batch attempt))
    (hstep : policy.step? TransportError.isRetryable fired attempt event = some next) :
    Turn policy fired pool (.attempt worker event)
      (pool.setWorker worker (afterAttempt batch next))
  | breakDown {worker : Nat} {batch : Batch} {n : Nat}
    (htrying : pool.workers[worker]? = some (.trying batch (.running n)))
    (hfired : fired = false) : Turn policy fired pool (.breakDown worker)
      (pool.setWorker worker .lost)
  | report {worker : Nat} {result : BatchResult}
    (hreporting : pool.workers[worker]? = some (.reporting result))
    (hroom : pool.results.length < pool.capacity) :
    Turn policy fired pool (.report worker)
      { pool.setWorker worker .idle with results := pool.results ++ [result] }
  | leave {worker : Nat} (hidle : pool.workers[worker]? = some .idle) (hqueue : pool.queue = [])
    (hunsent : pool.unsent = []) :
    Turn policy fired pool (.leave worker) (pool.setWorker worker .left)

variable {policy : RetryPolicy} {fired : Bool} {before after : Pool} {event : Event}

/-- Every transition is one of the turns. -/
theorem turn_of_step? {signal : Signal}
    (h : before.step? policy fired event = some (after, signal)) :
    before.Turn policy fired event after := by
  -- Each event asks for a worker in one state, and for room or a batch besides.
  cases event with
  | enqueue =>
    obtain ⟨next, hnext, heq⟩ := Option.map_eq_some_iff.mp h
    obtain ⟨rfl, -⟩ := Prod.mk.inj heq
    unfold enqueue? at hnext
    split at hnext
    · simp at hnext
    · next batch rest hunsent =>
      split at hnext
      · next hroom =>
        obtain rfl := Option.some.inj hnext
        exact .enqueue hunsent hroom.1 hroom.2
      · simp at hnext
  | take worker =>
    simp only [step?] at h
    split at h
    · next hidle =>
      obtain ⟨next, hnext, heq⟩ := Option.map_eq_some_iff.mp h
      obtain ⟨rfl, -⟩ := Prod.mk.inj heq
      unfold take? at hnext
      split at hnext
      · simp at hnext
      · next batch rest hqueue =>
        obtain rfl := Option.some.inj hnext
        exact .take hidle hqueue
    · simp at h
  | attempt worker event =>
    simp only [step?] at h
    split at h
    · next batch attempt htrying =>
      obtain ⟨next, hstep, heq⟩ := Option.map_eq_some_iff.mp h
      obtain ⟨rfl, -⟩ := Prod.mk.inj heq
      exact .attempt htrying hstep
    · simp at h
  | breakDown worker =>
    simp only [step?] at h
    split at h
    · next batch n htrying =>
      obtain ⟨rfl, -⟩ := Prod.mk.inj (Option.some.inj h)
      exact .breakDown htrying rfl
    · simp at h
  | report worker =>
    simp only [step?] at h
    split at h
    · next result hreporting =>
      split at h
      · next hroom =>
        obtain ⟨rfl, -⟩ := Prod.mk.inj (Option.some.inj h)
        exact .report hreporting hroom
      · simp at h
    · simp at h
  | leave worker =>
    simp only [step?] at h
    split at h
    · next hidle =>
      split at h
      · next hnone =>
        obtain ⟨rfl, -⟩ := Prod.mk.inj (Option.some.inj h)
        rw [Bool.and_eq_true, List.isEmpty_iff, List.isEmpty_iff] at hnone
        exact .leave hidle hnone.1 hnone.2
      · simp at h
    · simp at h

/-- What a transition signals: it is for the attempts alone to do so. -/
def signalled (policy : RetryPolicy) (pool : Pool) : Event → Signal
  | .attempt worker event =>
    match pool.workers[worker]? with
    | some (.trying _ attempt) => signalOf policy attempt event
    | _ => .none
  | _ => .none

theorem signalled_attempt {pool : Pool} {worker : Nat} {batch : Batch} {attempt : Attempt}
    (htrying : pool.workers[worker]? = some (.trying batch attempt))
    (event : RetryPolicy.Event Outcomes TransportError) :
    pool.signalled policy (.attempt worker event) = signalOf policy attempt event := by
  rw [signalled, htrying]

/-- Every turn is a transition. -/
theorem Turn.step? (h : before.Turn policy fired event after) :
    before.step? policy fired event = some (after, before.signalled policy event) := by
  cases h with
  | enqueue hunsent hroom hstaffed =>
    simp only [Pool.step?, enqueue?, hunsent, if_pos (And.intro hroom hstaffed), Option.map_some,
      signalled]
  | take hidle hqueue => simp only [Pool.step?, hidle, take?, hqueue, Option.map_some, signalled]
  | attempt htrying hstep =>
    simp only [Pool.step?, htrying, attemptStep?, hstep, Option.map_some, signalled]
  | breakDown htrying hfired => simp only [Pool.step?, htrying, hfired, signalled]
  | report hreporting hroom => simp only [Pool.step?, hreporting, if_pos hroom, signalled]
  | leave hidle hqueue hunsent => simp [Pool.step?, hidle, hqueue, hunsent, signalled]

theorem signal_of_step? {signal : Signal}
    (h : before.step? policy fired event = some (after, signal)) :
    signal = before.signalled policy event :=
  (Prod.mk.inj (Option.some.inj (h.symm.trans (turn_of_step? h).step?))).2

/-! ### The three places -/

/-- The batches that no worker has taken. -/
def untried (pool : Pool) : List Batch := pool.queue ++ pool.unsent

/-- The batches that are tried by a worker. -/
def tried (pool : Pool) : List (Batch × Attempt) := pool.workers.filterMap Worker.trying?

/-- The results that have not been taken out of the pool. -/
def finished (pool : Pool) : List BatchResult :=
  pool.workers.filterMap Worker.reporting? ++ pool.results

/-- The batches in a pool. -/
def batches (pool : Pool) : List Batch :=
  pool.untried ++ pool.tried.map (·.1) ++ pool.finished.map (·.batch)

theorem tried_ofBatches (workers capacity : Nat) (batches : List Batch) :
    (ofBatches workers capacity batches).tried = [] := by
  simp [tried, ofBatches, Worker.trying?]

theorem finished_ofBatches (workers capacity : Nat) (batches : List Batch) :
    (ofBatches workers capacity batches).finished = [] := by
  simp [finished, ofBatches, Worker.reporting?]

theorem untried_ofBatches (workers capacity : Nat) (batches : List Batch) :
    (ofBatches workers capacity batches).untried = batches := rfl

@[simp] theorem batches_ofBatches (workers capacity : Nat) (batches : List Batch) :
    (ofBatches workers capacity batches).batches = batches := by
  simp [Pool.batches, tried_ofBatches, finished_ofBatches, untried_ofBatches]

theorem tried_setWorker {pool : Pool} {worker : Nat} {old : Worker}
    (h : pool.workers[worker]? = some old) (new : Worker) :
    (old.trying?.toList ++ (pool.setWorker worker new).tried).Perm
      (new.trying?.toList ++ pool.tried) :=
  filterMap_set_perm Worker.trying? h new

theorem finished_setWorker {pool : Pool} {worker : Nat} {old : Worker}
    (h : pool.workers[worker]? = some old) (new : Worker) :
    (old.reporting?.toList ++ (pool.setWorker worker new).finished).Perm
      (new.reporting?.toList ++ pool.finished) := by
  have hset := (filterMap_set_perm Worker.reporting? h new).append_right pool.results
  rwa [List.append_assoc, List.append_assoc] at hset

theorem finished_eq_cons {pool : Pool} {result : BatchResult} {rest : List BatchResult}
    (h : pool.results = result :: rest) :
    pool.finished.Perm (result :: finished { pool with results := rest }) := by
  rw [finished, h]
  exact List.perm_middle

theorem batches_eq_cons {pool : Pool} {result : BatchResult} {rest : List BatchResult}
    (h : pool.results = result :: rest) :
    pool.batches.Perm (result.batch :: batches { pool with results := rest }) := by
  refine (((finished_eq_cons h).map (·.batch)).append_left _).trans ?_
  exact List.perm_middle

/-- When every worker is gone and every result has been taken, what is left was never tried. -/
theorem batches_of_isOver {pool : Pool} (h : pool.isOver = true) : pool.batches = pool.untried := by
  rw [isOver, Bool.and_eq_true, isDeserted, List.all_eq_true] at h
  have hgone : ∀ worker ∈ pool.workers, worker.trying? = none ∧ worker.reporting? = none := by
    intro worker hworker
    have := h.1 worker hworker
    cases worker <;> simp_all [Worker.isGone, Worker.trying?, Worker.reporting?]
  have htried : pool.tried = [] := List.filterMap_eq_nil_iff.mpr fun worker hworker =>
    (hgone worker hworker).1
  have hfinished : pool.finished = [] := by
    rw [finished, List.isEmpty_iff.mp h.2, List.append_nil]
    exact List.filterMap_eq_nil_iff.mpr fun worker hworker => (hgone worker hworker).2
  rw [batches, htried, hfinished]
  simp

/-! ### What a transition does -/

/-- What a transition does to the three places, and what is noted. -/
inductive Shift (policy : RetryPolicy) (fired : Bool) (before after : Pool) : Option Note → Prop
  /-- Every batch stays where it is. -/
  | still (huntried : before.untried.Perm after.untried) (htried : before.tried.Perm after.tried)
    (hfinished : before.finished.Perm after.finished) : Shift policy fired before after none
  /-- A worker takes a batch. -/
  | taken {batch : Batch} (hfired : fired = false)
    (huntried : before.untried.Perm (batch :: after.untried))
    (htried : after.tried.Perm ((batch, .waiting 1) :: before.tried))
    (hfinished : before.finished.Perm after.finished) : Shift policy fired before after none
  /-- A worker takes a batch when the token has fired. -/
  | dropped {batch : Batch} (hfired : fired = true)
    (huntried : before.untried.Perm (batch :: after.untried))
    (htried : before.tried.Perm after.tried)
    (hfinished : after.finished.Perm (.cancelled batch 0 :: before.finished)) :
    Shift policy fired before after (some (.cut batch))
  /-- The attempts for a batch move on. -/
  | advanced {batch : Batch} {attempt next : Attempt} {others : List (Batch × Attempt)}
    {event : RetryPolicy.Event Outcomes TransportError}
    (hstep : policy.step? TransportError.isRetryable fired attempt event = some (.inl next))
    (huntried : before.untried.Perm after.untried)
    (htried : before.tried.Perm ((batch, attempt) :: others))
    (htriedAfter : after.tried.Perm ((batch, next) :: others))
    (hfinished : before.finished.Perm after.finished) :
    Shift policy fired before after (Note.ofAttempt batch event)
  /-- The attempts for a batch end. -/
  | ended {batch : Batch} {attempt : Attempt} {verdict : Verdict Outcomes TransportError}
    {event : RetryPolicy.Event Outcomes TransportError}
    (hstep : policy.step? TransportError.isRetryable fired attempt event = some (.inr verdict))
    (huntried : before.untried.Perm after.untried)
    (htried : before.tried.Perm ((batch, attempt) :: after.tried))
    (hfinished : after.finished.Perm (.ofVerdict batch verdict :: before.finished)) :
    Shift policy fired before after (Note.ofAttempt batch event)
  /-- A batch is lost with its worker. -/
  | broken {batch : Batch} {n : Nat} (huntried : before.untried.Perm after.untried)
    (htried : before.tried.Perm ((batch, .running n) :: after.tried))
    (hfinished : before.finished.Perm after.finished) :
    Shift policy fired before after (some (.broke batch))

theorem setWorker_perm {pool : Pool} {worker : Nat} {old new : Worker}
    (h : pool.workers[worker]? = some old) (htrying : old.trying? = new.trying?)
    (hreporting : old.reporting? = new.reporting?) :
    pool.tried.Perm (pool.setWorker worker new).tried ∧
      pool.finished.Perm (pool.setWorker worker new).finished := by
  have htried := tried_setWorker h new
  have hfinished := finished_setWorker h new
  rw [htrying] at htried
  rw [hreporting] at hfinished
  exact ⟨((List.perm_append_left_iff _).mp htried).symm,
    ((List.perm_append_left_iff _).mp hfinished).symm⟩

theorem shift_of_take {worker : Nat} {batch : Batch} {rest : List Batch}
    (hidle : before.workers[worker]? = some .idle) (hqueue : before.queue = batch :: rest) :
    Shift policy fired before
      { before.setWorker worker
          (if fired then .reporting (.cancelled batch 0) else .trying batch (.waiting 1)) with
        queue := rest }
      (before.note? fired (.take worker)) := by
  have huntried : before.untried = batch :: (rest ++ before.unsent) := by
    rw [untried, hqueue, List.cons_append]
  simp only [note?, hqueue, List.head?_cons, Option.map_some]
  -- After the token fired a batch is answered as cancelled without a request.
  cases fired with
  | false =>
    exact .taken rfl (.of_eq huntried) (tried_setWorker hidle (.trying batch (.waiting 1)))
      (finished_setWorker hidle (.trying batch (.waiting 1))).symm
  | true =>
    exact .dropped rfl (.of_eq huntried)
      (tried_setWorker hidle (.reporting (.cancelled batch 0))).symm
      (finished_setWorker hidle (.reporting (.cancelled batch 0)))

theorem shift_of_attempt {worker : Nat} {batch : Batch} {attempt : Attempt}
    {event : RetryPolicy.Event Outcomes TransportError}
    {next : Attempt.Next Outcomes TransportError}
    (htrying : before.workers[worker]? = some (.trying batch attempt))
    (hstep : policy.step? TransportError.isRetryable fired attempt event = some next) :
    Shift policy fired before (before.setWorker worker (afterAttempt batch next))
      (Note.ofAttempt batch event) := by
  cases next with
  | inl next =>
    -- What the other workers try is what is left when this one is taken away.
    obtain ⟨others, hothers⟩ : ∃ others, before.tried.Perm ((batch, attempt) :: others) := by
      have hmem : (batch, attempt) ∈ before.tried :=
        List.mem_filterMap.mpr ⟨_, List.mem_of_getElem? htrying, rfl⟩
      exact ⟨_, List.perm_cons_erase hmem⟩
    have htried := tried_setWorker htrying (.trying batch next)
    have hafter : (before.setWorker worker (.trying batch next)).tried.Perm
        ((batch, next) :: others) := by
      refine ((List.perm_cons (batch, attempt)).mp (htried.trans ?_))
      exact (hothers.cons _).trans (.swap _ _ _)
    exact .advanced hstep (.refl _) hothers hafter
      (finished_setWorker htrying (.trying batch next)).symm
  | inr verdict =>
    exact .ended hstep (.refl _) (tried_setWorker htrying (.reporting _)).symm
      (finished_setWorker htrying (.reporting _))

theorem shift_of_report {worker : Nat} {result : BatchResult}
    (hreporting : before.workers[worker]? = some (.reporting result)) :
    Shift policy fired before
      { before.setWorker worker .idle with results := before.results ++ [result] } none := by
  refine .still (.refl _) (tried_setWorker hreporting .idle).symm ?_
  have hfinished := finished_setWorker hreporting .idle
  refine hfinished.symm.trans (List.perm_append_comm.trans ?_)
  rw [finished, finished, List.append_assoc]
  exact .refl _

/-- **Every transition moves one batch on, or none.** -/
theorem Turn.shift (h : before.Turn policy fired event after) :
    Shift policy fired before after (before.note? fired event) := by
  cases h with
  | enqueue hunsent =>
    refine .still ?_ (.refl _) (.refl _)
    simp [untried, hunsent]
  | take hidle hqueue => exact shift_of_take hidle hqueue
  | attempt htrying hstep =>
    simp only [note?, htrying]
    exact shift_of_attempt htrying hstep
  | breakDown htrying =>
    simp only [note?, htrying]
    exact .broken (.refl _) (tried_setWorker htrying .lost).symm
      (finished_setWorker htrying .lost).symm
  | report hreporting => exact shift_of_report hreporting
  | @leave worker hidle =>
    obtain ⟨htried, hfinished⟩ := @setWorker_perm before worker .idle .left hidle rfl rfl
    exact .still (.refl _) htried hfinished

theorem shift_of_step? {signal : Signal}
    (h : before.step? policy fired event = some (after, signal)) :
    Shift policy fired before after (before.note? fired event) := (turn_of_step? h).shift

/-- What a transition notes is about a batch of the pool. -/
theorem Shift.exists_batch {note : Option Note} (h : Shift policy fired before after note)
    {told : Note} (htold : told ∈ note.toList) :
    ∃ batch ∈ before.batches, told.batch? = some batch := by
  have htried : ∀ {batch attempt} {others : List (Batch × Attempt)},
      before.tried.Perm ((batch, attempt) :: others) → batch ∈ before.batches := by
    intro batch attempt others hperm
    refine List.mem_append_left _ (List.mem_append_right _ ?_)
    exact List.mem_map.mpr ⟨(batch, attempt), hperm.mem_iff.mpr List.mem_cons_self, rfl⟩
  -- Only a batch that moves is told about, and it was in the pool before.
  cases h with
  | still | taken => simp at htold
  | @dropped batch _ huntried =>
    obtain rfl := List.mem_singleton.mp htold
    refine ⟨batch, List.mem_append_left _ (List.mem_append_left _ ?_), rfl⟩
    exact huntried.mem_iff.mpr List.mem_cons_self
  | advanced _ _ hperm => exact ⟨_, htried hperm, Note.batch?_of_mem_ofAttempt htold⟩
  | ended _ _ hperm => exact ⟨_, htried hperm, Note.batch?_of_mem_ofAttempt htold⟩
  | broken _ hperm =>
    obtain rfl := List.mem_singleton.mp htold
    exact ⟨_, htried hperm, rfl⟩

theorem Shift.fetched {note : Option Note} (h : Shift policy fired before after note) :
    note.toList.flatMap Note.fetched = [] := by
  refine List.flatMap_eq_nil_iff.mpr fun told htold => ?_
  obtain ⟨batch, -, hbatch⟩ := h.exists_batch htold
  cases told with
  | delivered => simp [Note.batch?] at hbatch
  | _ => rfl

/-! ### No batch is added -/

/-- **A transition leaves all batches in the pool**, except for one that breaks down with its
worker. -/
theorem Shift.batches_perm {note : Option Note} (h : Shift policy fired before after note) :
    before.batches.Perm after.batches ∨ ∃ batch n, note = some (.broke batch) ∧
      (batch, Attempt.running n) ∈ before.tried ∧ before.batches.Perm (batch :: after.batches) := by
  -- Counted batch by batch: what leaves one place arrives in another, unless its worker is lost.
  simp only [List.perm_iff_count, List.count_cons, batches, List.count_append]
  cases h with
  | still huntried htried hfinished =>
    refine .inl fun batch => ?_
    rw [huntried.count_eq, (htried.map _).count_eq, (hfinished.map _).count_eq]
  | taken _ huntried htried hfinished =>
    refine .inl fun batch => ?_
    rw [huntried.count_eq, (htried.map _).count_eq, (hfinished.map _).count_eq]
    simp only [List.map_cons, List.count_cons]
    omega
  | dropped _ huntried htried hfinished =>
    refine .inl fun batch => ?_
    rw [huntried.count_eq, (htried.map _).count_eq, (hfinished.map _).count_eq]
    simp only [List.map_cons, List.count_cons, BatchResult.cancelled, BatchResult.uniform]
    omega
  | advanced _ huntried htried htriedAfter hfinished =>
    refine .inl fun batch => ?_
    rw [huntried.count_eq, (htried.map _).count_eq, (htriedAfter.map _).count_eq,
      (hfinished.map _).count_eq]
    simp
  | ended _ huntried htried hfinished =>
    refine .inl fun batch => ?_
    rw [huntried.count_eq, (htried.map _).count_eq, (hfinished.map _).count_eq]
    simp only [List.map_cons, List.count_cons, BatchResult.batch_ofVerdict]
    omega
  | @broken lost n huntried htried hfinished =>
    refine .inr ⟨lost, n, rfl, htried.mem_iff.mpr List.mem_cons_self, fun batch => ?_⟩
    rw [huntried.count_eq, (htried.map _).count_eq, (hfinished.map _).count_eq]
    simp only [List.map_cons, List.count_cons]
    omega

/-- **No batch is ever added to a pool.** -/
theorem Shift.batches_subperm {note : Option Note} (h : Shift policy fired before after note) :
    after.batches.Subperm before.batches := by
  rcases h.batches_perm with hperm | ⟨batch, n, -, -, hperm⟩
  · exact hperm.symm.subperm
  · exact (List.sublist_cons_self batch _).subperm.trans hperm.symm.subperm

end Pool

end Backfill
