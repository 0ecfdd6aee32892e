import Backfill.Proofs.AccountEntries
import Backfill.Proofs.PoolStaff
import Backfill.Proofs.RunReasons

/-!
# A pool whose results are read

The results of a pool are read one after the other while its workers go on, and the token may fire
at any moment in between.  Whoever asks for the next result waits as long as there is none and a
worker is left that could bring one; when the last worker is gone and nothing is left to read, it
is told so.  A batch of the pool was read, is still in the pool, or was lost with its worker.  As
long as no request breaks down, workers leave only when no batch waits, so nothing is in the pool
any more when no result will come, and every batch was read.

## Main definitions

* `Pool.nextResult?` — what whoever asks for the next result is told.
* `PoolRun`, `PoolRun.step?`, `PoolRun.execute` — workers, token and reader move in any order.
* `BatchResult.Founded` — where the outcomes of a result come from.
* `PoolRun.Complete` — every batch is in one place.

## Main results

* `PoolRun.Complete.step` — every transition keeps every batch in one place.
* `PoolRun.every_batch_read_once` — **when no result will come any more, every batch has been read
  once.**
-/

namespace Backfill

/-! ### What is noted about broken workers -/

/-- The batch that was lost with its worker. -/
def Note.broke? : Note → Option Batch
  | .broke batch => some batch
  | _ => none

/-- The batches that were lost with their workers. -/
def brokenBatches (notes : List Note) : List Batch := notes.filterMap Note.broke?

@[simp] theorem brokenBatches_append (notes more : List Note) :
    brokenBatches (notes ++ more) = brokenBatches notes ++ brokenBatches more :=
  List.filterMap_append

theorem brokenBatches_ofAttempt (batch : Batch)
    (event : RetryPolicy.Event Outcomes TransportError) :
    brokenBatches (Note.ofAttempt batch event).toList = [] := by
  cases event with
  | finish result => cases result <;> rfl
  | start | resume | cut => rfl

theorem breakdowns_le_length (cycle : Cycle) (notes : List Note) :
    breakdowns cycle notes ≤ (brokenBatches notes).length := by
  rw [breakdowns, brokenBatches, List.length_filterMap_eq_countP]
  refine List.countP_mono_left fun note _ hbreaks => ?_
  cases note with
  | broke => rfl
  | _ => simp [Note.breaksIn] at hbreaks

/-! ### Results and where they come from -/

/-- Where the outcomes of a result come from: the client has answered so for the batch, or every
slot of the batch has failed for the same reason. -/
inductive BatchResult.Founded (notes : List Note) (result : BatchResult) : Prop
  | answered (hanswered : .answered result.batch result.outcomes ∈ notes)
  | uniform (reason : FailureReason)
    (hreason : reason = .cancelled ∨ ∃ attempts lastError,
      reason = .exhaustedRetries attempts lastError)
    (houtcomes : result.outcomes = .uniform result.batch.slots reason)

namespace BatchResult

variable {notes : List Note} {result : BatchResult}

theorem Founded.append (h : result.Founded notes) (more : List Note) :
    result.Founded (notes ++ more) := by
  cases h with
  | answered hanswered => exact .answered (List.mem_append_left _ hanswered)
  | uniform reason hreason houtcomes => exact .uniform reason hreason houtcomes

theorem founded_ofVerdict {policy : RetryPolicy} {fired : Bool} {attempt : Attempt}
    {event : RetryPolicy.Event Outcomes TransportError} {verdict : Verdict Outcomes TransportError}
    (h : policy.step? TransportError.isRetryable fired attempt event = some (.inr verdict))
    (batch : Batch) :
    (ofVerdict batch verdict).Founded (notes ++ (Note.ofAttempt batch event).toList) := by
  rcases RetryPolicy.cases_of_inr h with ⟨rfl, rfl⟩ | ⟨n, outcomes, rfl, -, rfl⟩ |
    ⟨n, error, rfl, -, -, rfl⟩
  · exact .uniform .cancelled (.inl rfl) rfl
  · exact .answered (List.mem_append_right _ List.mem_cons_self)
  · exact .uniform _ (.inr ⟨n, error.message, rfl⟩) rfl

end BatchResult

theorem Outcomes.lookup_uniform {slots : List Nat} {slot : Nat} (h : slot ∈ slots)
    (reason : FailureReason) : (uniform slots reason).lookup slot = some (.failed reason) :=
  Accounts.lookup_foldl_insert (.inl h)

namespace Pool

variable {policy : RetryPolicy} {fired : Bool} {before after : Pool} {note : Option Note}

/-! ### One transition -/

/-- **A transition leaves every batch in the pool**, or notes that it was lost with its worker. -/
theorem Shift.perm_broken (h : Shift policy fired before after note) :
    before.batches.Perm (after.batches ++ brokenBatches note.toList) := by
  rcases h.batches_perm with hperm | ⟨batch, n, rfl, -, hperm⟩
  · suffices hnone : brokenBatches note.toList = [] by rwa [hnone, List.append_nil]
    cases h with
    | still | taken | dropped => rfl
    | advanced | ended => exact brokenBatches_ofAttempt _ _
    | broken huntried htried hfinished =>
      -- the pool has lost a batch, so it cannot have as many as before
      have hlength := hperm.length_eq
      simp only [batches, List.length_append, List.length_map, huntried.length_eq,
        htried.length_eq, hfinished.length_eq, List.length_cons] at hlength
      omega
  · exact hperm.trans (List.perm_append_singleton _ _).symm

/-- What is finished comes from what is noted. -/
theorem Shift.founded {notes : List Note} (h : Shift policy fired before after note)
    (hbefore : ∀ result ∈ before.finished, result.Founded notes) :
    ∀ result ∈ after.finished, result.Founded (notes ++ note.toList) := by
  intro result hresult
  -- Only a batch that was dropped or that ended adds a result; the others have theirs from before.
  cases h with
  | still _ _ hfinished => exact (hbefore result (hfinished.mem_iff.mpr hresult)).append _
  | taken _ _ _ hfinished => exact (hbefore result (hfinished.mem_iff.mpr hresult)).append _
  | advanced _ _ _ _ hfinished =>
    exact (hbefore result (hfinished.mem_iff.mpr hresult)).append _
  | broken _ _ hfinished => exact (hbefore result (hfinished.mem_iff.mpr hresult)).append _
  | dropped _ _ _ hfinished =>
    rcases List.mem_cons.mp (hfinished.mem_iff.mp hresult) with rfl | hold
    · exact .uniform .cancelled (.inl rfl) rfl
    · exact (hbefore result hold).append _
  | ended hstep _ _ hfinished =>
    rcases List.mem_cons.mp (hfinished.mem_iff.mp hresult) with rfl | hold
    · exact BatchResult.founded_ofVerdict hstep _
    · exact (hbefore result hold).append _

/-- A batch is lost only in a breakdown. -/
theorem exists_breakDown_of_mem_note? {pool : Pool} {event : Event} {batch : Batch}
    (h : .broke batch ∈ (pool.note? fired event).toList) : ∃ worker, event = .breakDown worker := by
  cases event with
  | breakDown worker => exact ⟨worker, rfl⟩
  | take worker =>
    simp only [note?] at h
    split at h <;> simp at h
  | attempt worker event =>
    simp only [note?] at h
    split at h
    · next batch' attempt htrying =>
      -- What an attempt notes is about requests, never about a lost worker.
      have hbroken := brokenBatches_ofAttempt batch' event
      rw [brokenBatches, List.filterMap_eq_nil_iff] at hbroken
      simpa [Note.broke?] using hbroken _ h
    · simp at h
  | enqueue | report worker | leave worker => simp [note?] at h

/-! ### Reading -/

/-- What whoever asks for the next result is told: a result, or that no result will come any more.
As long as neither is the case, there is no answer. -/
def nextResult? (pool : Pool) : Option (Option BatchResult × Pool) :=
  match pool.takeResult? with
  | some (result, rest) => some (some result, rest)
  | none => if pool.isDeserted then some (none, pool) else none

/-- A result that is read was finished. -/
theorem results_of_nextResult? {result : BatchResult}
    (h : before.nextResult? = some (some result, after)) :
    ∃ rest, before.results = result :: rest ∧ after = { before with results := rest } := by
  unfold nextResult? takeResult? at h
  split at h
  · next first rest htake =>
    split at htake
    · simp at htake
    · next head tail hresults =>
      simp only [Option.some.injEq, Prod.mk.injEq] at h htake
      obtain ⟨rfl, rfl⟩ := htake
      obtain ⟨rfl, rfl⟩ := h
      exact ⟨tail, hresults, rfl⟩
  · split at h <;> simp at h

/-- **No result will come any more only when every worker is gone** and nothing is left to read. -/
theorem isOver_of_nextResult? (h : before.nextResult? = some (none, after)) :
    before.isOver = true ∧ after = before := by
  unfold nextResult? takeResult? at h
  split at h
  · simp at h
  · next htake =>
    split at htake
    · next hresults =>
      split at h
      · next hdeserted =>
        refine ⟨by simp [isOver, hdeserted, hresults], ?_⟩
        exact (Prod.mk.inj (Option.some.inj h)).2.symm
      · simp at h
    · simp at htake

end Pool

/-! ### Workers, token and reader -/

/-- A pool whose results are read. -/
structure PoolRun where
  policy : RetryPolicy
  pool : Pool
  /-- Whether the token has fired. -/
  fired : Bool
  /-- The results that were read, in order. -/
  emitted : List BatchResult
  /-- The history of the pool. -/
  notes : List Note

namespace PoolRun

/-- A pool of whose results none has been read. -/
def start (policy : RetryPolicy) (workers capacity : Nat) (batches : List Batch) : PoolRun :=
  ⟨policy, .ofBatches workers capacity batches, false, [], []⟩

/-- What can happen in a pool whose results are read. -/
inductive Event
  /-- The token fires. -/
  | fire
  /-- A party of the pool moves. -/
  | pool (event : Pool.Event)
  /-- The next result is asked for, and there is an answer. -/
  | read

/-- One transition. -/
def step? (run : PoolRun) : Event → Option PoolRun
  | .fire => if run.fired then none else some { run with fired := true }
  | .pool event =>
    (run.pool.step? run.policy run.fired event).map fun (pool, _) =>
      { run with pool := pool, notes := run.notes ++ (run.pool.note? run.fired event).toList }
  | .read =>
    run.pool.nextResult?.map fun (result, pool) =>
      { run with pool := pool, emitted := run.emitted ++ result.toList }

/-- Transitions in a row. -/
def execute (run : PoolRun) : List Event → Option PoolRun
  | [] => some run
  | event :: rest => (run.step? event).bind fun next => execute next rest

/-- Every batch is in one place: it was read, is in the pool or was lost with its worker.  The pool
has its workers, and every result comes from what is noted. -/
structure Complete (workers : Nat) (batches : List Batch) (run : PoolRun) : Prop where
  perm : (run.emitted.map (·.batch) ++ run.pool.batches ++ brokenBatches run.notes).Perm batches
  staffed : run.pool.Staffed workers ⟨0, batches⟩ run.notes
  founded : ∀ result ∈ run.pool.finished ++ run.emitted, result.Founded run.notes

variable {policy : RetryPolicy} {workers capacity : Nat} {batches : List Batch}
  {run next final : PoolRun} {events : List Event}

theorem complete_start (policy : RetryPolicy) (workers capacity : Nat) (batches : List Batch) :
    (start policy workers capacity batches).Complete (max workers 1) batches where
  perm := by simp [start, brokenBatches]
  staffed := Pool.staffed_ofBatches workers capacity ⟨0, batches⟩ []
  founded result hresult := by
    simp [start, Pool.finished_ofBatches] at hresult

namespace Complete

/-- A transition of the pool keeps every batch in one place. -/
theorem pool (h : run.Complete workers batches) {event : Pool.Event} {pool : Pool}
    {signal : Pool.Signal}
    (hstep : run.pool.step? run.policy run.fired event = some (pool, signal)) :
    Complete workers batches
      { run with pool := pool, notes := run.notes ++ (run.pool.note? run.fired event).toList } := by
  have hshift := Pool.shift_of_step? hstep
  refine ⟨?_, h.staffed.step hstep, fun result hresult => ?_⟩
  · -- A batch that left the pool's places was noted as broken.
    rw [List.perm_iff_count]
    intro batch
    have hbefore := h.perm.count_eq batch
    have hafter := hshift.perm_broken.count_eq batch
    simp only [brokenBatches_append, List.count_append] at hbefore hafter ⊢
    omega
  · rcases List.mem_append.mp hresult with hfinished | hemitted
    · exact hshift.founded (fun other hother => h.founded other (List.mem_append_left _ hother))
        result hfinished
    · exact (h.founded result (List.mem_append_right _ hemitted)).append _

/-- A result that is read takes its batch out of the pool. -/
theorem read (h : run.Complete workers batches) {result : Option BatchResult} {pool : Pool}
    (hnext : run.pool.nextResult? = some (result, pool)) :
    Complete workers batches
      { run with pool := pool, emitted := run.emitted ++ result.toList } := by
  cases result with
  | none =>
    obtain ⟨-, rfl⟩ := Pool.isOver_of_nextResult? hnext
    simpa using h
  | some result =>
    obtain ⟨rest, hresults, rfl⟩ := Pool.results_of_nextResult? hnext
    have hbatches := Pool.batches_eq_cons hresults
    have hfinished := Pool.finished_eq_cons hresults
    refine ⟨?_, ?_, fun other hother => h.founded other ?_⟩
    · -- The result that is read moves from the pool to those emitted.
      rw [List.perm_iff_count]
      intro batch
      have hbefore := h.perm.count_eq batch
      have hafter := hbatches.count_eq batch
      simp only [Option.toList_some, List.map_append, List.map_cons, List.map_nil,
        List.count_append, List.count_cons, List.count_nil] at hbefore hafter ⊢
      omega
    · have hstaffed : Pool.Staffed workers ⟨0, batches⟩ (run.notes ++ [])
          { run.pool with results := rest } :=
        Run.Staffed.busy_of_same h.staffed rfl
          (fun batch hbatch => hbatches.mem_iff.mpr (List.mem_cons_of_mem _ hbatch)) rfl
      rwa [List.append_nil] at hstaffed
    · rcases List.mem_append.mp hother with hold | hread
      · exact List.mem_append_left _ (hfinished.mem_iff.mpr (List.mem_cons_of_mem _ hold))
      · rcases List.mem_append.mp hread with hold | hnew
        · exact List.mem_append_right _ hold
        · obtain rfl := List.mem_singleton.mp hnew
          exact List.mem_append_left _ (hfinished.mem_iff.mpr List.mem_cons_self)

/-- **Every transition keeps every batch in one place.** -/
theorem step (h : run.Complete workers batches) {event : Event}
    (hstep : run.step? event = some next) : next.Complete workers batches := by
  -- Firing the token touches neither the places nor the notes.
  cases event with
  | fire =>
    simp only [step?] at hstep
    split at hstep
    · simp at hstep
    · obtain rfl := Option.some.inj hstep
      exact ⟨h.perm, h.staffed, h.founded⟩
  | pool event =>
    obtain ⟨⟨pool, signal⟩, hpool, rfl⟩ := Option.map_eq_some_iff.mp hstep
    exact h.pool hpool
  | read =>
    obtain ⟨⟨result, pool⟩, hread, rfl⟩ := Option.map_eq_some_iff.mp hstep
    exact h.read hread

/-- **Transitions in a row keep every batch in one place.** -/
theorem execute (h : run.Complete workers batches) (hrun : run.execute events = some final) :
    final.Complete workers batches := by
  induction events generalizing run with
  | nil =>
    obtain rfl := Option.some.inj hrun
    exact h
  | cons event rest ih =>
    obtain ⟨next, hstep, hrest⟩ := Option.bind_eq_some_iff.mp hrun
    exact ih (h.step hstep) hrest

end Complete

/-- Without a breakdown, no batch is lost. -/
theorem brokenBatches_of_execute (hrun : run.execute events = some final)
    (hsound : ∀ worker, .pool (.breakDown worker) ∉ events) :
    brokenBatches final.notes = brokenBatches run.notes := by
  induction events generalizing run with
  | nil =>
    obtain rfl := Option.some.inj hrun
    rfl
  | cons event rest ih =>
    obtain ⟨next, hstep, hrest⟩ := Option.bind_eq_some_iff.mp hrun
    rw [ih hrest fun worker hmem => hsound worker (List.mem_cons_of_mem _ hmem)]
    cases event with
    | fire =>
      simp only [step?] at hstep
      split at hstep
      · simp at hstep
      · obtain rfl := Option.some.inj hstep
        rfl
    | pool event =>
      obtain ⟨⟨pool, signal⟩, -, rfl⟩ := Option.map_eq_some_iff.mp hstep
      -- Without a breakdown no step notes a broken batch.
      suffices hnone : brokenBatches (run.pool.note? run.fired event).toList = [] by
        rw [brokenBatches_append, hnone, List.append_nil]
      refine List.filterMap_eq_nil_iff.mpr fun note hnote => ?_
      cases note with
      | broke batch =>
        obtain ⟨worker, rfl⟩ := Pool.exists_breakDown_of_mem_note? hnote
        exact absurd List.mem_cons_self (hsound worker)
      | _ => rfl
    | read =>
      obtain ⟨⟨result, pool⟩, -, rfl⟩ := Option.map_eq_some_iff.mp hstep
      rfl

/-- **When no result will come any more, every batch has been read once.**  Whatever the number of
workers and the room in the queues, whenever the token fires, and however workers, producer and
reader take turns, as long as no request breaks down: the results that were read are one for each
batch, every worker has left, and a result is what the client has answered for its batch, or says
of every slot of its batch that it has failed for the same reason. -/
theorem every_batch_read_once (hsound : ∀ worker, .pool (.breakDown worker) ∉ events)
    (hrun : (start policy workers capacity batches).execute events = some run) {rest : Pool}
    (hnone : run.pool.nextResult? = some (none, rest)) :
    (run.emitted.map (·.batch)).Perm batches ∧
      run.pool.workers = List.replicate (max workers 1) .left ∧
      run.pool.batches = [] ∧
      ∀ result ∈ run.emitted, .answered result.batch result.outcomes ∈ run.notes ∨
        ∃ reason, (reason = .cancelled ∨ ∃ attempts lastError,
            reason = .exhaustedRetries attempts lastError) ∧
          result.outcomes = .uniform result.batch.slots reason ∧
          ∀ slot ∈ result.batch.slots, result.outcomes.lookup slot = some (.failed reason) := by
  have hcomplete := (complete_start policy workers capacity batches).execute hrun
  have hbroken : brokenBatches run.notes = [] := brokenBatches_of_execute hrun hsound
  obtain ⟨hover, -⟩ := Pool.isOver_of_nextResult? hnone
  have hbreakdowns : breakdowns ⟨0, batches⟩ run.notes = 0 := by
    have hle := breakdowns_le_length ⟨0, batches⟩ run.notes
    rw [hbroken] at hle
    exact Nat.le_zero.mp hle
  -- a batch that is left behind would need workers that all broke down
  have hbatches : run.pool.batches = [] := by
    rw [Pool.batches_of_isOver hover]
    refine List.eq_nil_iff_forall_not_mem.mpr fun batch hbatch => ?_
    have hle := hcomplete.staffed.le_breakdowns hover hbatch
    omega
  refine ⟨?_, ?_, hbatches, fun result hresult => ?_⟩
  · have hperm := hcomplete.perm
    rwa [hbroken, hbatches, List.append_nil, List.append_nil] at hperm
  · refine List.eq_replicate_iff.mpr ⟨hcomplete.staffed.length, fun worker hworker => ?_⟩
    have hlost := hcomplete.staffed.lost
    rw [hbreakdowns, Nat.le_zero, Pool.lostWorkers, List.countP_eq_zero] at hlost
    rw [Pool.isOver, Bool.and_eq_true, Pool.isDeserted, List.all_eq_true] at hover
    have hgone := hover.1 worker hworker
    cases worker with
    | left => rfl
    | lost => exact absurd (decide_eq_true rfl) (hlost .lost hworker)
    | _ => simp [Worker.isGone] at hgone
  · cases hcomplete.founded result (List.mem_append_right _ hresult) with
    | answered hanswered => exact .inl hanswered
    | uniform reason hreason houtcomes =>
      exact .inr ⟨reason, hreason, houtcomes, fun slot hslot =>
        houtcomes ▸ Outcomes.lookup_uniform hslot reason⟩

/-- Two workers and room for one item, even though none is asked for.  The token fires while one
worker waits for an answer and a batch is in the queue, and both are cancelled; the first batch had
its answer before. -/
theorem every_batch_read_once_cancelled :
    let batches : List Batch := [⟨0, [5, 6]⟩, ⟨1, [7]⟩, ⟨2, [8, 9]⟩]
    let events : List Event := [.pool .enqueue, .pool (.take 0), .pool (.attempt 0 .start),
      .pool .enqueue, .pool (.take 1), .pool (.attempt 1 .start), .pool .enqueue,
      .pool (.attempt 0 (.finish (.ok [(5, .fetched .null)]))), .pool (.report 0), .fire,
      .pool (.attempt 1 .cut), .pool (.take 0), .read, .pool (.report 0), .pool (.leave 0), .read,
      .pool (.report 1), .pool (.leave 1), .read]
    (∀ worker, .pool (.breakDown worker) ∉ events) ∧
      ∃ run rest, (start default 2 0 batches).execute events = some run ∧
        run.pool.nextResult? = some (none, rest) ∧
        (run.emitted.map (·.batch)).Perm batches ∧
        run.pool.workers = [.left, .left] ∧
        run.emitted.map (·.outcomes) = [[(5, .fetched .null)],
          [(8, .failed .cancelled), (9, .failed .cancelled)], [(7, .failed .cancelled)]] := by
  intro batches events
  -- The token fires with one batch answered, one under way and one still waiting.
  have hsound : ∀ worker, .pool (.breakDown worker) ∉ events := by simp [events]
  obtain ⟨run, hrun⟩ : ∃ run, (start default 2 0 batches).execute events = some run :=
    Option.isSome_iff_exists.mp (by decide)
  have hnext : (((start default 2 0 batches).execute events).bind fun run =>
      run.pool.nextResult?).map (·.1) = some none := by decide
  have houtcomes : ((start default 2 0 batches).execute events).map
      (fun run => run.emitted.map (·.outcomes)) = some [[(5, .fetched .null)],
        [(8, .failed .cancelled), (9, .failed .cancelled)], [(7, .failed .cancelled)]] := by decide
  rw [hrun] at hnext houtcomes
  obtain ⟨⟨result, rest⟩, hrest, hresult⟩ := Option.map_eq_some_iff.mp hnext
  obtain rfl : result = none := hresult
  obtain ⟨hperm, hworkers, -, -⟩ := every_batch_read_once hsound hrun hrest
  exact ⟨hsound, run, rest, hrun, hrest, hperm, hworkers, Option.some.inj houtcomes⟩

end PoolRun

end Backfill
