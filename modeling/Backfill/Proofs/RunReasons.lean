import Backfill.Proofs.PoolStaff
import Backfill.Proofs.RunExplained

/-!
# The reason of every slot

As soon as a slot is settled, its entry in the ledger is the one that the history of the run calls
for, and it stays.  Where the history calls for a lost worker, there was nobody left to end the
attempts for the batch: its worker broke down, or all workers of its cycle did before one of them
took the batch.

## Main definitions

* `Run.LeftBehind` — nobody was left to end the attempts for a batch.
* `Run.Staffed` — the open cycle has its workers, and batches without a result were left behind.

## Main results

* `Run.Staffed.move` — every move keeps a run staffed.
* `Run.Accounted.kept_of_execute` — what is settled stays settled.
* `Run.ledger_follows_history` — **the ledger holds the reason that the history calls for**, for
  every slot that is settled, and no later move changes it.
-/

namespace Backfill

namespace Run

variable {run next : Run} {note : Option Note} {notes : List Note}
  {failures : List (Nat × FailureReason)}

/-! ### Batches that nobody was left for -/

/-- Nobody was left to end the attempts for a batch: its worker broke down, or no worker took it
and all workers of its cycle broke down. -/
def LeftBehind (setup : RunSetup) (notes : List Note) (batch : Batch) : Prop :=
  (storyOf batch notes).broke = true ∨ storyOf batch notes = .listed ∧
    ∃ cycle ∈ setup.plan.cycles, batch ∈ cycle.batches ∧
      max setup.workers 1 ≤ breakdowns cycle notes

/-- The open cycle has its workers, and batches without a result were left behind. -/
structure Staffed (run : Run) (notes : List Note) : Prop where
  busy : ∀ cycle, run.stage = .busy cycle → ∃ planned ∈ run.setup.plan.cycles,
    cycle.pool.Staffed (max run.setup.workers 1) planned notes
  lost : ∀ batch ∈ run.setup.plan.batches, batch ∉ run.ahead ++ run.pending →
    (storyOf batch notes).fate run.setup.policy = .lost → LeftBehind run.setup notes batch

theorem staffed_start {setup : RunSetup} (h : setup.plan.Sound) (telemetry : Telemetry) :
    (start setup telemetry).Staffed [] where
  busy cycle hstage := by simp [start] at hstage
  lost batch hbatch hnot := by
    refine absurd (List.mem_append_left _ ?_) hnot
    have hmem : batch ∈ setup.plan.batchesFrom 0 := h.batchesFrom_zero ▸ hbatch
    exact hmem

theorem LeftBehind.append {setup : RunSetup} {batch : Batch} {more : List Note}
    (h : LeftBehind setup notes batch)
    (hstory : storyOf batch (notes ++ more) = storyOf batch notes) :
    LeftBehind setup (notes ++ more) batch := by
  rw [LeftBehind, hstory]
  refine h.imp id fun ⟨hlisted, cycle, hcycle, hmem, hbreakdowns⟩ => ?_
  exact ⟨hlisted, cycle, hcycle, hmem, Nat.le_trans hbreakdowns (breakdowns_le_append _ _ _)⟩

namespace Staffed

theorem busy_of_same {workers : Nat} {cycle : Cycle} {before after : Pool} {more : List Note}
    (h : before.Staffed workers cycle notes) (hworkers : after.workers = before.workers)
    (hsubset : after.batches ⊆ before.batches) (huntried : after.untried = before.untried) :
    after.Staffed workers cycle (notes ++ more) where
  length := hworkers ▸ h.length
  subset := fun _ hbatch => h.subset (hsubset hbatch)
  left hleft := huntried ▸ h.left (hworkers ▸ hleft)
  lost := by
    rw [Pool.lostWorkers, hworkers]
    exact Nat.le_trans h.lost (breakdowns_le_append _ _ _)

theorem busy_move (h : run.Staffed notes) (horderly : run.Orderly)
    (hmove : run.Move note failures next) :
    ∀ cycle, next.stage = .busy cycle → ∃ planned ∈ next.setup.plan.cycles,
      cycle.pool.Staffed (max next.setup.workers 1) planned (notes ++ note.toList) := by
  intro after hafter
  -- Reading a result or ending a delivery leaves the workers as they were.
  cases hmove with
  | fire => simpa using h.busy after hafter
  | @openCycle cycle hstage _ hcycle =>
    obtain rfl := Stage.busy.inj hafter
    refine ⟨cycle, ?_, Pool.staffed_ofBatches ..⟩
    obtain ⟨hindex, -⟩ := horderly.sound.cycle?_eq_some.mp hcycle
    exact List.mem_filterMap.mpr ⟨run.next, List.mem_range.mpr hindex, hcycle⟩
  | @pool cycle event pool signal hstage hpool =>
    obtain rfl := Stage.busy.inj hafter
    obtain ⟨planned, hplanned, hstaffed⟩ := h.busy cycle hstage
    exact ⟨planned, hplanned, hstaffed.step hpool⟩
  | @intake cycle result rest hstage hresults =>
    obtain rfl := Stage.busy.inj hafter
    obtain ⟨planned, hplanned, hstaffed⟩ := h.busy cycle hstage
    refine ⟨planned, hplanned, busy_of_same hstaffed rfl (fun batch hbatch => ?_) rfl⟩
    exact (Pool.batches_eq_cons hresults).mem_iff.mpr (List.mem_cons_of_mem _ hbatch)
  | @deliver cycle position delivery result hstage =>
    obtain rfl := Stage.busy.inj hafter
    obtain ⟨planned, hplanned, hstaffed⟩ := h.busy cycle hstage
    exact ⟨planned, hplanned, busy_of_same hstaffed rfl (fun _ => id) rfl⟩
  | closeCycle | cancelRest | conclude => simp at hafter

/-- A batch that a move takes out of all places without a result was left behind. -/
theorem leftBehind_move (h : run.Staffed notes) (hexplained : run.Explained notes)
    (hmove : run.Move note failures next) {batch : Batch}
    (hplaces : batch ∈ run.ahead ++ run.pending) (hnot : batch ∉ next.ahead ++ next.pending)
    (hfate : (storyOf batch (notes ++ note.toList)).fate run.setup.policy = .lost) :
    LeftBehind run.setup (notes ++ note.toList) batch := by
  rcases hexplained.accounted.orderly.left_move hmove hplaces hnot with
    ⟨cycle, result, rest, hstage, hresults, rfl, rfl⟩ | ⟨cycle, hstage, hover, hpending, rfl⟩ |
    ⟨-, hahead, rfl⟩
  · -- The batch has a result, so it is not lost.
    have hexplains := (hexplained.pooled cycle hstage).finished result (by
      rw [Pool.finished, hresults]
      exact List.mem_append_right _ List.mem_cons_self)
    rw [Option.toList_some,
      storyOf_append_outside result.batch notes (.settled result) rfl (by simp)] at hfate
    simp [Story.Explains, hfate] at hexplains
  · rw [Option.toList_none, List.append_nil] at hfate ⊢
    by_cases hpooled : batch ∈ cycle.pool.batches
    · -- No worker took the batch, and all of them are gone.
      obtain ⟨planned, hplanned, hstaffed⟩ := h.busy cycle hstage
      rw [CycleState.isOver, Bool.and_eq_true] at hover
      have huntried := Pool.batches_of_isOver hover.1 ▸ hpooled
      exact .inr ⟨(hexplained.pooled cycle hstage).untried batch huntried, planned, hplanned,
        hstaffed.subset hpooled, hstaffed.le_breakdowns hover.1 huntried⟩
    · refine .inl (hexplained.missing batch hpending ?_).2
      rwa [pooled, hstage]
  · rw [Option.toList_none, List.append_nil, hexplained.ahead batch hahead,
      Story.fate_blank] at hfate
    simp at hfate

/-- **Every move keeps a run staffed.** -/
theorem move (h : run.Staffed notes) (hexplained : run.Explained notes)
    (hmove : run.Move note failures next) : next.Staffed (notes ++ note.toList) where
  busy := h.busy_move hexplained.accounted.orderly hmove
  lost batch hbatch hnot hfate := by
    rw [hmove.setup_eq] at hbatch hfate ⊢
    by_cases hplaces : batch ∈ run.ahead ++ run.pending
    · exact h.leftBehind_move hexplained hmove hplaces hnot hfate
    · have hstory := hexplained.storyOf_move hmove hplaces
      rw [hstory] at hfate
      exact (h.lost batch hbatch hplaces hfate).append hstory

end Staffed

/-! ### A whole run -/

variable {setup : RunSetup} {asked : List Nat} {telemetry : Telemetry} {events : List Event}

/-- **In every run, ledger, pool and deliveries are what the history says.** -/
theorem explained_of_execute (h : setup.plan.Sound)
    (hrun : (start setup telemetry).execute events = some run) :
    run.Explained ((start setup telemetry).notes events) ∧
      run.Staffed ((start setup telemetry).notes events) := by
  refine execute_induct (motive := fun run notes => run.Explained notes ∧ run.Staffed notes) hrun
    ⟨explained_start h telemetry, staffed_start h telemetry⟩ fun ⟨hexplained, hstaffed⟩ hstep => ?_
  obtain ⟨failures, hmove⟩ := move_of_step? hstep
  exact ⟨hexplained.move hmove, hstaffed.move hexplained hmove⟩

/-- **What is settled stays settled**, with the same entry in the ledger or without one. -/
theorem Accounted.kept_of_execute (h : run.Accounted notes) {final : Run}
    (hrun : run.execute events = some final) {slot : Nat} (hslot : slot ∉ run.unsettled) :
    slot ∉ final.unsettled ∧
      final.accounts.ledger.reasonOf? slot = run.accounts.ledger.reasonOf? slot := by
  have hinduct := execute_induct
    (motive := fun now told => now.Accounted (notes ++ told) ∧ slot ∉ now.unsettled ∧
      now.accounts.ledger.reasonOf? slot = run.accounts.ledger.reasonOf? slot)
    hrun ⟨by rwa [List.append_nil], hslot, rfl⟩ fun {_ _ _ told} hnow hstep => ?_
  · exact hinduct.2
  · obtain ⟨haccounted, hnot, hreason⟩ := hnow
    obtain ⟨failures, hmove⟩ := move_of_step? hstep
    obtain ⟨hstill, hkept⟩ := (haccounted.settling hmove).kept hnot
    rw [← List.append_assoc]
    exact ⟨haccounted.move hmove, hstill, hkept.trans hreason⟩

/-- **The ledger follows the history.**  At every moment of every run, a slot that is settled has
the reason that the history calls for, or none if it calls for none, and no later move changes
that; no slot that was not asked for ever has a reason.  So the ledger of the report has the
reason that the history calls for at every slot, and where it calls for a lost worker, the worker
of the batch broke down or all workers of its cycle did before one took it. -/
theorem ledger_follows_history (hasks : setup.Asks asked)
    (h : (start setup telemetry).execute events = some run) :
    let notes := (start setup telemetry).notes events
    (∀ slot ∈ asked, ∃ batch ∈ setup.plan.batches, slot ∈ batch.slots) ∧
      (∀ slot ∉ asked, run.accounts.ledger.reasonOf? slot = none) ∧
      (∀ batch ∈ setup.plan.batches, ∀ slot ∈ batch.slots, slot ∉ run.unsettled →
        run.accounts.ledger.reasonOf? slot = reasonFor setup.policy notes batch slot) ∧
      (∀ more final, run.execute more = some final → ∀ slot ∉ run.unsettled,
        slot ∉ final.unsettled ∧
          final.accounts.ledger.reasonOf? slot = run.accounts.ledger.reasonOf? slot) ∧
      ∀ elapsed outcome, run.outcome? elapsed = some outcome → ∀ batch ∈ setup.plan.batches,
        (∀ slot ∈ batch.slots,
          outcome.report.ledger.reasonOf? slot = reasonFor setup.policy notes batch slot) ∧
        ((storyOf batch notes).fate setup.policy = .lost → LeftBehind setup notes batch) := by
  intro notes
  obtain ⟨hexplained, hstaffed⟩ := explained_of_execute hasks.sound h
  obtain rfl := setup_of_execute h
  have hpartitioned := hexplained.accounted.partitioned hasks
  refine ⟨fun slot hslot => ?_, fun slot hslot => ?_, hexplained.settled,
    fun more final hmore slot => hexplained.accounted.kept_of_execute hmore,
    fun elapsed outcome houtcome batch hbatch => ?_⟩
  · -- every slot that was asked for is in a batch
    have hmem : slot ∈ (run.setup.plan.batches.drop 0).flatMap (·.slots) := by
      rw [hasks.sound.flatMap_slots_batches, Nat.zero_mul, List.drop_zero]
      exact hasks.mem_slots.mpr hslot
    rw [List.drop_zero] at hmem
    exact List.mem_flatMap.mp hmem
  · refine Ledger.not_mem_slots.mp fun hmem => hslot ((hpartitioned.mem_iff slot).mp ?_)
    exact List.mem_append_left _ (List.mem_append_right _ hmem)
  · obtain ⟨⟨cancelled, hstage⟩, -, -, -, -, hledger⟩ := outcome?_eq_some houtcome
    have hunsettled := unsettled_of_over hstage
    refine ⟨fun slot hslot => ?_, hstaffed.lost batch hbatch ?_⟩
    · rw [hledger]
      exact hexplained.settled batch hbatch slot hslot (by simp [hunsettled])
    · simp [ahead, pending, hstage]

/-- Five batches of one slot, each with another end: fetched, not found, out of attempts, lost with
its worker and cancelled. -/
theorem ledger_follows_history_five_ends :
    let setup := RunSetup.ofRange default false ⟨5, 9⟩ 0
    let tried (result : Except TransportError Outcomes) : List Event :=
      [.openCycle, .pool .enqueue, .pool (.take 0), .pool (.attempt 0 .start),
        .pool (.attempt 0 (.finish result)), .pool (.report 0), .intake]
    let events : List Event :=
      tried (.ok [(5, .fetched .null)]) ++ [.deliver 0 (.ok ()), .pool (.leave 0), .closeCycle] ++
        tried (.ok [(6, .failed .notFound)]) ++ [.pool (.leave 0), .closeCycle] ++
        tried (.error (.withoutStatus .timeout "late")) ++ [.pool (.leave 0), .closeCycle] ++
        [.openCycle, .pool .enqueue, .pool (.take 0), .pool (.attempt 0 .start),
          .pool (.breakDown 0), .closeCycle, .fire, .cancelRest]
    setup.Asks [5, 6, 7, 8, 9] ∧
      ∃ run, (start setup .zero).execute events = some run ∧
        ∃ outcome, run.outcome? ⟨0⟩ = some outcome ∧
        (setup.plan.batches.flatMap fun batch => batch.slots.map fun slot =>
          (slot, reasonFor setup.policy ((start setup .zero).notes events) batch slot)) =
          [(5, none), (6, some .notFound), (7, some (.exhaustedRetries 1 "late")),
            (8, some .workerLost), (9, some .cancelled)] ∧
        outcome.report.ledger.reasonOf? 8 = some .workerLost := by
  intro setup tried events
  have hasks : setup.Asks [5, 6, 7, 8, 9] :=
    @RunSetup.Asks.overRange 5 9 ⟨5, 9⟩ default false 0 (by decide) rfl
  obtain ⟨run, hrun⟩ : ∃ run, (start setup .zero).execute events = some run :=
    Option.isSome_iff_exists.mp (by decide)
  have hover : (((start setup .zero).execute events).bind (·.outcome? ⟨0⟩)).isSome := by decide
  rw [hrun] at hover
  obtain ⟨outcome, houtcome⟩ := Option.isSome_iff_exists.mp hover
  obtain ⟨-, -, -, -, hreport⟩ := ledger_follows_history hasks hrun
  -- Delivered, answered without a block, exhausted, lost with its worker, cancelled in the tail.
  have hreasons : (setup.plan.batches.flatMap fun batch => batch.slots.map fun slot =>
      (slot, reasonFor setup.policy ((start setup .zero).notes events) batch slot)) =
      [(5, none), (6, some .notFound), (7, some (.exhaustedRetries 1 "late")),
        (8, some .workerLost), (9, some .cancelled)] := by decide
  have hlost := (hreport _ _ houtcome ⟨3, [8]⟩ (by decide)).1 8 (by decide)
  have hreason : reasonFor setup.policy ((start setup .zero).notes events) ⟨3, [8]⟩ 8 =
      some .workerLost := by decide
  exact ⟨hasks, run, hrun, outcome, houtcome, hreasons, hlost.trans hreason⟩

end Run

end Backfill
