import Backfill.Proofs.PoolPlaces

/-!
# The workers of a cycle

A worker leaves only when no batch waits any more, so a batch that waits when every worker is gone
has been left behind by workers that all broke down.  The breakdowns are in the history: each of
them is noted with the batch that the worker had, which is a batch of the same cycle.

## Main definitions

* `breakdowns` — how many workers broke down with a batch of a cycle.
* `Pool.Staffed` — a pool has its workers, and the ones that it lost are noted.

## Main results

* `Pool.Staffed.step` — every transition keeps a pool staffed.
* `Pool.Staffed.le_breakdowns` — **a batch is left behind only by workers that all broke down.**
-/

namespace Backfill

/-- Whether a note tells that a worker broke down with a batch of the cycle. -/
def Note.breaksIn (cycle : Cycle) : Note → Bool
  | .broke batch => decide (batch ∈ cycle.batches)
  | _ => false

/-- How many workers broke down with a batch of the cycle. -/
def breakdowns (cycle : Cycle) (notes : List Note) : Nat := notes.countP (·.breaksIn cycle)

theorem breakdowns_le_append (cycle : Cycle) (notes more : List Note) :
    breakdowns cycle notes ≤ breakdowns cycle (notes ++ more) := by
  rw [breakdowns, breakdowns, List.countP_append]
  exact Nat.le_add_right _ _

/-- Overwriting one place adds one hit at most. -/
theorem countP_set_le {α : Type} (p : α → Bool) (list : List α) (i : Nat) (new : α) :
    (list.set i new).countP p ≤ list.countP p + if p new then 1 else 0 := by
  induction list generalizing i with
  | nil => exact Nat.zero_le _
  | cons first rest ih =>
    cases i with
    | zero =>
      simp only [List.set_cons_zero, List.countP_cons]
      omega
    | succ i =>
      have := ih i
      simp only [List.set_cons_succ, List.countP_cons]
      omega

namespace Pool

/-- Number of workers that broke down. -/
def lostWorkers (pool : Pool) : Nat := pool.workers.countP fun worker => decide (worker = .lost)

/-- A pool has its workers, works on the batches of its cycle, and has noted the workers that it
lost; a worker leaves only when no batch waits. -/
structure Staffed (workers : Nat) (cycle : Cycle) (notes : List Note) (pool : Pool) : Prop where
  length : pool.workers.length = workers
  subset : pool.batches ⊆ cycle.batches
  left : .left ∈ pool.workers → pool.untried = []
  lost : pool.lostWorkers ≤ breakdowns cycle notes

theorem staffed_ofBatches (workers capacity : Nat) (cycle : Cycle) (notes : List Note) :
    (ofBatches workers capacity cycle.batches).Staffed (max workers 1) cycle notes where
  length := List.length_replicate
  subset := (batches_ofBatches ..).symm ▸ fun _ => id
  left h := by simp [ofBatches] at h
  lost := by
    have hnone : (ofBatches workers capacity cycle.batches).lostWorkers = 0 := by
      simp [lostWorkers, ofBatches, List.countP_replicate]
    rw [hnone]
    exact Nat.zero_le _

variable {policy : RetryPolicy} {fired : Bool} {before after : Pool} {workers : Nat}
  {cycle : Cycle} {notes : List Note}

/-- A worker that goes on working changes nothing about the staff. -/
theorem Staffed.setWorker (h : before.Staffed workers cycle notes) {more : List Note} {worker : Nat}
    {new : Worker} (hnewLeft : new ≠ .left) (hnewLost : new ≠ .lost)
    (hworkers : after.workers = before.workers.set worker new)
    (hsubset : after.batches ⊆ before.batches)
    (huntried : before.untried = [] → after.untried = []) :
    after.Staffed workers cycle (notes ++ more) where
  length := by rw [hworkers, List.length_set, h.length]
  subset := fun _ hbatch => h.subset (hsubset hbatch)
  -- The one worker that changed has not left, so a worker that has left did so before.
  left hleft := by
    rw [hworkers] at hleft
    rcases List.mem_or_eq_of_mem_set hleft with hold | hnew
    · exact huntried (h.left hold)
    · exact absurd hnew.symm hnewLeft
  lost := by
    have hcount := countP_set_le (fun worker => decide (worker = .lost)) before.workers worker new
    rw [if_neg (by simpa using hnewLost)] at hcount
    rw [lostWorkers, hworkers]
    exact Nat.le_trans hcount (Nat.le_trans h.lost (breakdowns_le_append _ _ _))

/-- Putting a batch into the queue changes nothing about the staff: there is such a batch, so
nobody has left. -/
theorem Staffed.enqueue (h : before.Staffed workers cycle notes) {more : List Note} {batch : Batch}
    {rest : List Batch} (hunsent : before.unsent = batch :: rest)
    (hsubset : after.batches ⊆ before.batches) (hworkers : after.workers = before.workers) :
    after.Staffed workers cycle (notes ++ more) := by
  refine ⟨hworkers ▸ h.length, fun _ hbatch => h.subset (hsubset hbatch), fun hleft => ?_, ?_⟩
  · have hnone := h.left (hworkers ▸ hleft)
    simp [untried, hunsent] at hnone
  · rw [lostWorkers, hworkers]
    exact Nat.le_trans h.lost (breakdowns_le_append _ _ _)

/-- A worker that breaks down is noted, with a batch of the cycle. -/
theorem Staffed.breakDown (h : before.Staffed workers cycle notes) {worker : Nat} {batch : Batch}
    {attempt : Attempt} (hsubset : (before.setWorker worker .lost).batches ⊆ before.batches)
    (htrying : before.workers[worker]? = some (.trying batch attempt)) :
    (before.setWorker worker .lost).Staffed workers cycle (notes ++ [.broke batch]) := by
  have hbatch : batch ∈ cycle.batches := by
    refine h.subset (List.mem_append_left _ (List.mem_append_right _ ?_))
    refine List.mem_map.mpr ⟨(batch, attempt), ?_, rfl⟩
    exact List.mem_filterMap.mpr ⟨_, List.mem_of_getElem? htrying, rfl⟩
  -- The lost worker and the note about its batch keep pace.
  have hnoted : breakdowns cycle (notes ++ [.broke batch]) = breakdowns cycle notes + 1 := by
    simp [breakdowns, List.countP_append, Note.breaksIn, hbatch]
  have hcount := countP_set_le (fun worker => decide (worker = .lost)) before.workers worker .lost
  have hlost := h.lost
  refine ⟨List.length_set.trans h.length, fun _ hother => h.subset (hsubset hother),
    fun hleft => ?_, ?_⟩
  · rcases List.mem_or_eq_of_mem_set hleft with hold | hnew
    · exact h.left hold
    · simp at hnew
  · simp only [decide_true, if_true, lostWorkers, Pool.setWorker] at *
    omega

theorem Staffed.leave (h : before.Staffed workers cycle notes) {more : List Note} {worker : Nat}
    (hsubset : (before.setWorker worker .left).batches ⊆ before.batches)
    (huntried : before.untried = []) :
    (before.setWorker worker .left).Staffed workers cycle (notes ++ more) := by
  have hcount := countP_set_le (fun worker => decide (worker = .lost)) before.workers worker .left
  refine ⟨List.length_set.trans h.length, fun _ hother => h.subset (hsubset hother),
    fun _ => huntried, ?_⟩
  exact Nat.le_trans hcount (Nat.le_trans h.lost (breakdowns_le_append _ _ _))

/-- **Every transition keeps a pool staffed.** -/
theorem Staffed.step {event : Event} {signal : Signal} (h : before.Staffed workers cycle notes)
    (hstep : before.step? policy fired event = some (after, signal)) :
    after.Staffed workers cycle (notes ++ (before.note? fired event).toList) := by
  have hsubset := (shift_of_step? hstep).batches_subperm.subset
  -- No turn but a breakdown makes a worker lost, and none but leaving makes one leave.
  cases turn_of_step? hstep with
  | enqueue hunsent => exact h.enqueue hunsent hsubset rfl
  | take _ hqueue =>
    refine h.setWorker ?_ ?_ rfl hsubset fun hnone => ?_
    · split <;> simp
    · split <;> simp
    · simp [untried, hqueue] at hnone
  | @attempt _ _ _ _ next =>
    refine h.setWorker ?_ ?_ rfl hsubset id
    · cases next <;> simp [afterAttempt]
    · cases next <;> simp [afterAttempt]
  | breakDown htrying =>
    simp only [note?, htrying, Option.toList_some]
    exact h.breakDown hsubset htrying
  | report => exact h.setWorker (by simp) (by simp) rfl hsubset id
  | leave _ hqueue hunsent =>
    exact h.leave hsubset (by rw [untried, hqueue, hunsent, List.append_nil])

/-- When every worker is gone and a batch waits, all of them broke down. -/
theorem Staffed.lostWorkers_eq {pool : Pool} (h : pool.Staffed workers cycle notes)
    (hover : pool.isOver = true) {batch : Batch} (hbatch : batch ∈ pool.untried) :
    pool.lostWorkers = workers := by
  rw [isOver, Bool.and_eq_true, isDeserted, List.all_eq_true] at hover
  -- A worker leaves only when nothing is untried, so with a batch left over all of them were lost.
  have hall : ∀ worker ∈ pool.workers, decide (worker = .lost) = true := by
    intro worker hworker
    have hgone := hover.1 worker hworker
    cases worker with
    | left =>
      rw [h.left hworker] at hbatch
      simp at hbatch
    | lost => rfl
    | _ => simp [Worker.isGone] at hgone
  rw [← h.length]
  exact List.countP_eq_length.mpr hall

/-- **A batch is left behind only by workers that all broke down.** -/
theorem Staffed.le_breakdowns {pool : Pool} (h : pool.Staffed workers cycle notes)
    (hover : pool.isOver = true) {batch : Batch} (hbatch : batch ∈ pool.untried) :
    workers ≤ breakdowns cycle notes :=
  h.lostWorkers_eq hover hbatch ▸ h.lost

end Pool

end Backfill
