import Backfill.Proofs.RunEndings

/-!
# What a run has in flight

From the start of its cycle until it is settled, a slot is in flight: its batch waits in a queue, is
with a worker or has a result that was not taken yet, or its block is being handed on.  A cycle is
started only when the cycle before it is closed, and no slot of a plan is in two cycles, so all that
is in flight belongs to the cycle that was started last, and whatever comes before that cycle is
settled.  In this cycle there are no more requests than workers, each for a batch of its own.

## Main definitions

* `Run.inFlight` — the slots of the open cycle that are not settled.
* `Run.executing` — the batches whose requests are being executed.
* `Run.Confined` — what is in flight belongs to the cycle that was started last.
* `Run.HasSettled` — a slot has failed, or its block was handed on.

## Main results

* `Plan.Sound.index_eq_of_mem` — no slot of a plan is in two cycles.
* `Run.confined_of_execute` — **what is in flight belongs to one cycle.**
* `Run.Confined.requested` — a request is about a batch of the open cycle.
* `Run.work_in_flight_is_bounded` — this, and that no slot is requested twice at once.
-/

namespace Backfill

/-! ### Cycles have no slot in common -/

/-- The slots of a cycle. -/
def Cycle.slots (cycle : Cycle) : List Nat := cycle.batches.flatMap (·.slots)

namespace Plan

variable {plan : Plan} {index other : Nat} {cycle : Cycle} {batch : Batch} {slot : Nat}

theorem Sized.batchesFrom_sublist (h : plan.Sized) (hle : index ≤ other) :
    (plan.batchesFrom other).Sublist (plan.batchesFrom index) := by
  rw [h.batchesFrom_eq, h.batchesFrom_eq]
  exact List.drop_sublist_drop_left _ (Nat.mul_le_mul_right _ hle)

theorem Sized.batches_subset (h : plan.Sized) (hcycle : plan.cycle? index = some cycle) :
    cycle.batches ⊆ plan.batches := by
  have hsublist := h.batchesFrom_sublist (Nat.zero_le index)
  rw [h.batchesFrom_eq_append hcycle, h.batchesFrom_zero] at hsublist
  exact List.Subset.trans (List.sublist_append_left _ _).subset hsublist.subset

theorem Sound.not_mem_batchesFrom (h : plan.Sound) (hcycle : plan.cycle? index = some cycle)
    (hbatch : batch ∈ cycle.batches) (hlt : index < other) : batch ∉ plan.batchesFrom other := by
  have hnodup : (plan.batchesFrom index).Nodup := by
    rw [h.batchesFrom_eq]
    exact h.nodup_batches.sublist (List.drop_sublist _ _)
  rw [h.batchesFrom_eq_append hcycle] at hnodup
  intro hlater
  exact (List.nodup_append'.mp hnodup).2.2 hbatch ((h.batchesFrom_sublist hlt).subset hlater)

/-- **No batch of a plan is in two cycles.** -/
theorem Sound.index_eq_of_mem (h : plan.Sound) {later : Cycle}
    (hcycle : plan.cycle? index = some cycle) (hlater : plan.cycle? other = some later)
    (hbatch : batch ∈ cycle.batches) (hin : batch ∈ later.batches) : index = other := by
  have hfrom : ∀ {i : Nat} {c : Cycle}, plan.cycle? i = some c → batch ∈ c.batches →
      batch ∈ plan.batchesFrom i := by
    intro i c hc hmem
    rw [h.batchesFrom_eq_append hc]
    exact List.mem_append_left _ hmem
  rcases Nat.lt_trichotomy index other with hlt | heq | hlt
  · exact absurd (hfrom hlater hin) (h.not_mem_batchesFrom hcycle hbatch hlt)
  · exact heq
  · exact absurd (hfrom hcycle hbatch) (h.not_mem_batchesFrom hlater hin hlt)

theorem Sound.mem_batches_of_slot (h : plan.Sound) (hcycle : plan.cycle? index = some cycle)
    (hslot : slot ∈ cycle.slots) (hbatch : batch ∈ plan.batches) (hin : slot ∈ batch.slots) :
    batch ∈ cycle.batches := by
  obtain ⟨own, hown, hinOwn⟩ := List.mem_flatMap.mp hslot
  obtain rfl := h.batch_eq_of_mem (h.batches_subset hcycle hown) hbatch hinOwn hin
  exact hown

theorem Sized.slots_subset (h : plan.Sized) (hcycle : plan.cycle? index = some cycle) :
    cycle.slots ⊆ plan.source.slots := by
  intro slot hslot
  obtain ⟨batch, hbatch, hin⟩ := List.mem_flatMap.mp hslot
  exact h.mem_slots.mpr ⟨batch, h.batches_subset hcycle hbatch, hin⟩

end Plan

/-- The batch whose request the worker executes. -/
def Worker.executing? : Worker → Option Batch
  | .trying batch (.running _) => some batch
  | _ => none

/-- A worker that executes a request tries the batch. -/
theorem Pool.executing_sublist (pool : Pool) :
    (pool.workers.filterMap Worker.executing?).Sublist (pool.tried.map (·.1)) := by
  rw [tried]
  induction pool.workers with
  | nil => exact .slnil
  | cons worker rest ih =>
    cases worker with
    | trying batch attempt =>
      cases attempt with
      | running n => exact ih.cons_cons batch
      | waiting n => exact ih.cons batch
      | pausing n => exact ih.cons batch
    | _ => exact ih

namespace Run

/-! ### In flight -/

/-- The slots that are in flight: those of the batches without a result, and those that are being
handed on. -/
def inFlight (run : Run) : List Nat := run.pending.flatMap (·.slots) ++ run.underway

/-- The batches whose requests are being executed. -/
def executing (run : Run) : List Batch :=
  match run.stage with
  | .busy cycle => cycle.pool.workers.filterMap Worker.executing?
  | _ => []

variable {setup : RunSetup} {asked : List Nat} {telemetry : Telemetry} {run next : Run}
  {events : List Event} {event : Event} {note : Option Note} {notes : List Note}
  {failures : List (Nat × FailureReason)} {cycle : CycleState} {planned : Cycle} {batch : Batch}
  {slot : Nat}

theorem mem_unsettled :
    slot ∈ run.unsettled ↔ slot ∈ run.ahead.flatMap (·.slots) ∨ slot ∈ run.inFlight := by
  rw [unsettled, inFlight, List.flatMap_append, List.append_assoc, List.mem_append]

theorem inFlight_eq_nil (h : ∀ cycle, run.stage ≠ .busy cycle) : run.inFlight = [] := by
  cases hstage : run.stage with
  | busy cycle => exact absurd hstage (h cycle)
  | _ => simp [inFlight, pending, underway, Run.deliveries, hstage]

theorem Orderly.pooled_subset (h : run.Orderly) :
    run.pooled.flatMap (·.slots) ⊆ run.inFlight := by
  intro slot hslot
  obtain ⟨batch, hbatch, hin⟩ := List.mem_flatMap.mp hslot
  refine List.mem_append_left _ (List.mem_flatMap.mpr ⟨batch, h.pooled.subset hbatch, hin⟩)

/-- What is in flight belongs to the cycle that was started last. -/
def Confined (run : Run) : Prop :=
  ∀ cycle, run.stage = .busy cycle → ∃ planned,
    run.setup.plan.cycle? (run.next - 1) = some planned ∧ cycle.pending ⊆ planned.batches ∧
      run.underway ⊆ planned.slots

/-- The slots that are handed on when a result comes in are slots of its batch. -/
theorem Orderly.delivery?_subset (h : run.Orderly) (hstage : run.stage = .busy cycle)
    {result : BatchResult} {rest : List BatchResult}
    (hresults : cycle.pool.results = result :: rest) (hpending : cycle.pending ⊆ planned.batches) :
    (result.delivery? run.setup).toList.flatMap (fun delivery => delivery.slots.map (·.1)) ⊆
      planned.slots := by
  have hmem := h.mem_pending_of_results hstage hresults
  have hnodup := h.sound.nodup_slots_of_mem (h.mem_batches (List.mem_append_right _ hmem))
  rw [pending, hstage] at hmem
  rw [BatchResult.flatMap_slots_delivery?]
  intro slot hslot
  refine List.mem_flatMap.mpr ⟨result.batch, hpending hmem, ?_⟩
  exact (BatchResult.slots_perm hnodup).subset (List.mem_append_right _ hslot)

/-- **Every move keeps what is in flight in one cycle.** -/
theorem Confined.move (h : run.Confined) (horderly : run.Orderly)
    (hmove : run.Move note failures next) : next.Confined := by
  intro after hafter
  -- Within a cycle the pending batches and the deliveries only shrink or change places.
  cases hmove with
  | fire => exact h after hafter
  | openCycle _ _ hcycle =>
    obtain rfl := Stage.busy.inj hafter
    exact ⟨_, hcycle, List.Subset.refl _, List.nil_subset _⟩
  | @pool cycle event pool signal hstage hpool =>
    obtain rfl := Stage.busy.inj hafter
    obtain ⟨planned, hplanned, hpending, hunderway⟩ := h cycle hstage
    rw [underway, Run.deliveries, hstage] at hunderway
    exact ⟨planned, hplanned, hpending, hunderway⟩
  | @intake cycle result rest hstage hresults =>
    obtain rfl := Stage.busy.inj hafter
    obtain ⟨planned, hplanned, hpending, hunderway⟩ := h cycle hstage
    rw [underway, Run.deliveries, hstage] at hunderway
    refine ⟨planned, hplanned, fun batch hbatch => hpending (List.mem_of_mem_filter hbatch), ?_⟩
    simp only [underway, Run.deliveries, List.flatMap_append]
    exact List.append_subset.mpr
      ⟨hunderway, horderly.delivery?_subset hstage hresults hpending⟩
  | @deliver cycle position delivery result hstage =>
    obtain rfl := Stage.busy.inj hafter
    obtain ⟨planned, hplanned, hpending, hunderway⟩ := h cycle hstage
    rw [underway, Run.deliveries, hstage] at hunderway
    refine ⟨planned, hplanned, hpending, List.Subset.trans ?_ hunderway⟩
    exact ((List.eraseIdx_sublist _ _).flatMap _).subset
  | closeCycle | cancelRest | conclude => simp at hafter

/-- **In every run, what is in flight belongs to the cycle that was started last.** -/
theorem confined_of_execute (hsound : setup.plan.Sound)
    (h : (start setup telemetry).execute events = some run) : run.Confined := by
  refine (execute_induct (motive := fun now _ => now.Orderly ∧ now.Confined) h
    ⟨orderly_start hsound telemetry, fun cycle hstage => by simp [start] at hstage⟩
    fun ⟨horderly, hconfined⟩ hstep => ?_).2
  obtain ⟨failures, hmove⟩ := move_of_step? hstep
  exact ⟨horderly.move hmove, hconfined.move horderly hmove⟩

theorem Confined.inFlight_subset (h : run.Confined) :
    run.inFlight = [] ∨ ∃ planned, run.setup.plan.cycle? (run.next - 1) = some planned ∧
      run.inFlight ⊆ planned.slots := by
  by_cases hbusy : ∃ cycle, run.stage = .busy cycle
  · obtain ⟨cycle, hstage⟩ := hbusy
    obtain ⟨planned, hplanned, hpending, hunderway⟩ := h cycle hstage
    refine .inr ⟨planned, hplanned, List.append_subset.mpr ⟨fun slot hslot => ?_, hunderway⟩⟩
    rw [pending, hstage] at hslot
    obtain ⟨batch, hbatch, hin⟩ := List.mem_flatMap.mp hslot
    exact List.mem_flatMap.mpr ⟨batch, hpending hbatch, hin⟩
  · exact .inl (inFlight_eq_nil fun cycle hstage => hbusy ⟨cycle, hstage⟩)

/-- A slot of a cycle that was started is in flight until it is settled. -/
theorem Explained.mem_inFlight (h : run.Explained notes) {index : Nat}
    (hcycle : run.setup.plan.cycle? index = some planned) (hopened : .opened planned ∈ notes)
    (hslot : slot ∈ planned.slots) (hunsettled : slot ∈ run.unsettled) : slot ∈ run.inFlight := by
  have horderly := h.accounted.orderly
  refine (mem_unsettled.mp hunsettled).resolve_left fun hahead => ?_
  obtain ⟨batch, hbatch, hin⟩ := List.mem_flatMap.mp hahead
  have hplan := horderly.mem_batches (List.mem_append_left _ hbatch)
  have hmem := horderly.sound.mem_batches_of_slot hcycle hslot hplan hin
  -- nothing has been noted about a batch that is ahead
  have hstory := storyOf_opened.mpr ⟨planned, hopened, hmem⟩
  rw [h.ahead batch hbatch] at hstory
  simp [Story.blank] at hstory

/-! ### Requests -/

/-- A request is sent for a batch that is in the pool of the open cycle. -/
theorem Move.requested (hmove : run.Move note failures next)
    (hnote : note = some (.requested batch)) :
    ∃ cycle, run.stage = .busy cycle ∧ batch ∈ run.pooled := by
  cases hmove with
  | @pool cycle event pool signal hstage hpool =>
    obtain ⟨other, hother, hbatch⟩ :=
      (Pool.shift_of_step? hpool).exists_batch (Option.mem_toList.mpr hnote)
    obtain rfl := Option.some.inj hbatch
    exact ⟨cycle, hstage, by rwa [pooled, hstage]⟩
  | _ => simp at hnote

/-- A slot has failed, or its block was handed on. -/
def HasSettled (run : Run) (notes : List Note) (slot : Nat) : Prop :=
  slot ∉ run.unsettled ∧ (slot ∈ notes.flatMap Note.fetched ∨
    ∃ reason, run.accounts.ledger.reasonOf? slot = some reason)

theorem Accounted.hasSettled (h : run.Accounted notes) (hslot : slot ∈ run.setup.plan.source.slots)
    (hnot : slot ∉ run.unsettled) : run.HasSettled notes slot := by
  have hmem := h.partition.mem_iff.mpr hslot
  rw [List.mem_append, List.mem_append] at hmem
  refine ⟨hnot, (hmem.resolve_right hnot).imp_right fun hfailed => ?_⟩
  exact Option.isSome_iff_exists.mp (Ledger.mem_slots.mp hfailed)

/-- **A request is about a batch of the cycle that was started last**, and by then every slot of an
earlier cycle has been settled. -/
theorem Confined.requested (h : run.Confined) (haccounted : run.Accounted notes)
    (hmove : run.Move note failures next) (hnote : note = some (.requested batch)) {index : Nat}
    {later : Cycle} (hlater : run.setup.plan.cycle? index = some later)
    (hbatch : batch ∈ later.batches) {before : Nat} {earlier : Cycle} (hbefore : before < index)
    (hearlier : run.setup.plan.cycle? before = some earlier) (hslot : slot ∈ earlier.slots) :
    run.HasSettled notes slot := by
  have horderly := haccounted.orderly
  have hsound := horderly.sound
  obtain ⟨cycle, hstage, hpooled⟩ := hmove.requested hnote
  obtain ⟨planned, hplanned, hpending, hunderway⟩ := h cycle hstage
  have hpend := horderly.pooled.subset hpooled
  rw [pending, hstage] at hpend
  obtain rfl := hsound.index_eq_of_mem hlater hplanned hbatch (hpending hpend)
  refine haccounted.hasSettled (hsound.slots_subset hearlier hslot) fun hunsettled => ?_
  rcases mem_unsettled.mp hunsettled with hahead | hflight
  · -- what is ahead belongs to later cycles
    obtain ⟨other, hother, hin⟩ := List.mem_flatMap.mp hahead
    have hplan := horderly.mem_batches (List.mem_append_left _ hother)
    have hmem := hsound.mem_batches_of_slot hearlier hslot hplan hin
    simp only [ahead, hstage] at hother
    exact hsound.not_mem_batchesFrom hearlier hmem (by omega) hother
  · rcases h.inFlight_subset with hnil | ⟨same, hsame, hsubset⟩
    · rw [hnil] at hflight
      simp at hflight
    · obtain ⟨other, hother, hin⟩ := List.mem_flatMap.mp (hsubset hflight)
      have hplan := hsound.batches_subset hsame hother
      have hmem := hsound.mem_batches_of_slot hearlier hslot hplan hin
      exact absurd (hsound.index_eq_of_mem hearlier hsame hmem hother) (Nat.ne_of_lt hbefore)

/-! ### Workers -/

theorem Staffed.length_executing (h : run.Staffed notes) :
    run.executing.length ≤ max run.setup.workers 1 := by
  unfold executing
  split
  · next cycle hstage =>
    obtain ⟨planned, -, hstaffed⟩ := h.busy cycle hstage
    rw [← hstaffed.length]
    exact List.length_filterMap_le _ _
  · exact Nat.zero_le _

/-- The requests are for batches of the plan, and for each of them once at most. -/
theorem Orderly.executing_subperm (h : run.Orderly) :
    run.executing.Subperm run.setup.plan.batches := by
  have hpooled := h.pooled
  unfold executing
  split
  · next cycle hstage =>
    rw [Run.pooled, hstage] at hpooled
    have htried : (cycle.pool.tried.map (·.1)).Sublist cycle.pool.batches :=
      (List.sublist_append_right _ _).trans (List.sublist_append_left _ _)
    have hpending : run.pending.Sublist (run.ahead ++ run.pending) := List.sublist_append_right _ _
    exact (cycle.pool.executing_sublist.trans htried).subperm.trans
      (hpooled.trans (hpending.subperm.trans h.batches))
  · exact List.nil_subperm

/-- **No slot is requested twice at once.** -/
theorem Orderly.nodup_executing (h : run.Orderly) : (run.executing.flatMap (·.slots)).Nodup := by
  obtain ⟨batches, hperm, hsublist⟩ := h.executing_subperm
  refine (hperm.flatMap_right _).nodup_iff.mp ?_
  exact h.sound.nodup_flatMap_slots.sublist (hsublist.flatMap _)

/-- **What a run has in flight is bounded.**  At every moment of every run, whatever the setup and
the interleaving:

* The slots that are in flight belong to one cycle.  Among them are those that wait in a queue, are
  with a worker or have a result that was not taken, and all slots of the cycles that were started
  and are not settled yet; so a cycle is settled before the next one is started.
* When a request is sent, every slot of a cycle before that of its batch has failed or its block was
  handed on.
* No more requests are executed than there are workers, and no slot is in two of them. -/
theorem work_in_flight_is_bounded (hasks : setup.Asks asked)
    (h : (start setup telemetry).execute events = some run) :
    let notes := (start setup telemetry).notes events
    (run.inFlight = [] ∨ ∃ planned, setup.plan.cycle? (run.next - 1) = some planned ∧
        run.inFlight ⊆ planned.slots) ∧
      run.pooled.flatMap (·.slots) ⊆ run.inFlight ∧
      (∀ index planned, setup.plan.cycle? index = some planned → .opened planned ∈ notes →
        ∀ slot ∈ planned.slots, slot ∈ run.unsettled → slot ∈ run.inFlight) ∧
      (∀ event next batch, run.step? event = some next →
        run.note? event = some (.requested batch) → ∀ index later,
          setup.plan.cycle? index = some later → batch ∈ later.batches → ∀ before earlier,
            before < index → setup.plan.cycle? before = some earlier → ∀ slot ∈ earlier.slots,
              run.HasSettled notes slot) ∧
      run.executing.length ≤ max setup.workers 1 ∧
      (run.executing.flatMap (·.slots)).Nodup := by
  intro notes
  obtain rfl := setup_of_execute h
  obtain ⟨hexplained, hstaffed⟩ := explained_of_execute hasks.sound h
  have horderly := hexplained.accounted.orderly
  have hconfined := confined_of_execute hasks.sound h
  refine ⟨hconfined.inFlight_subset, horderly.pooled_subset,
    fun index planned hcycle hopened slot => hexplained.mem_inFlight hcycle hopened,
    fun event next batch hstep hnote => ?_, hstaffed.length_executing, horderly.nodup_executing⟩
  -- A request belongs to the cycle that is open, and every cycle before it has been closed.
  intro index later hlater hbatch before earlier hbefore hearlier slot hslot
  obtain ⟨failures, hmove⟩ := move_of_step? hstep
  exact hconfined.requested hexplained.accounted hmove hnote hlater hbatch hbefore hearlier hslot

/-- Two cycles of two batches each, and two workers.  In the second cycle, one request is being
executed and the other one is about to be sent; in the first cycle, one slot was not answered, and
the block of the other one was handed on. -/
theorem work_in_flight_is_bounded_second_cycle :
    let settings : Settings := { (default : Settings) with batchesPerCycle := 2, workers := 2 }
    let setup := RunSetup.ofRange settings true ⟨5, 8⟩ 0
    let block : Json := .obj [("transactions", .arr [.null])]
    let taking : List Event :=
      [.openCycle, .pool .enqueue, .pool (.take 0), .pool .enqueue, .pool (.take 1),
        .pool (.attempt 0 .start)]
    let events := taking ++ [.pool (.attempt 1 .start), .pool (.attempt 1 (.finish (.ok []))),
      .pool (.report 1), .intake, .pool (.attempt 0 (.finish (.ok [(5, .fetched block)]))),
      .pool (.report 0), .pool (.leave 1), .pool (.leave 0), .intake, .deliver 0 (.ok ()),
      .closeCycle] ++ taking
    let notes := (start setup .zero).notes events
    setup.Asks [5, 6, 7, 8] ∧ ∃ run,
      (start setup .zero).execute events = some run ∧ run.inFlight = [7, 8] ∧
        run.executing = [⟨2, [7]⟩] ∧
        run.note? (.pool (.attempt 1 .start)) = some (.requested ⟨3, [8]⟩) ∧
        run.HasSettled notes 5 ∧ run.HasSettled notes 6 := by
  intro settings setup block taking events notes
  have hasks : setup.Asks [5, 6, 7, 8] :=
    @RunSetup.Asks.overRange 5 8 ⟨5, 8⟩ settings true 0 (by decide) rfl
  obtain ⟨run, hrun⟩ : ∃ run, (start setup .zero).execute events = some run :=
    Option.isSome_iff_exists.mp (by decide)
  have hflight : ((start setup .zero).execute events).map (fun run =>
      (run.inFlight, run.executing)) = some ([7, 8], [⟨2, [7]⟩]) := by decide
  have hstep : (((start setup .zero).execute events).bind
      (·.step? (.pool (.attempt 1 .start)))).isSome := by decide
  have hbusy : ((start setup .zero).execute events).map (·.stage) = some (.busy
      ⟨⟨1, [], [], [.trying ⟨2, [7]⟩ (.running 1), .trying ⟨3, [8]⟩ (.waiting 1)], []⟩,
        [⟨2, [7]⟩, ⟨3, [8]⟩], []⟩) := by decide
  rw [hrun] at hflight hstep hbusy
  have hstage := Option.some.inj hbusy
  have hnote : run.note? (.pool (.attempt 1 .start)) = some (.requested ⟨3, [8]⟩) := by
    simp only [note?, hstage]
    rfl
  obtain ⟨next, hnext⟩ : ∃ next, run.step? (.pool (.attempt 1 .start)) = some next :=
    Option.isSome_iff_exists.mp hstep
  obtain ⟨hinFlight, hexecuting⟩ := Prod.mk.inj (Option.some.inj hflight)
  obtain ⟨-, -, -, hrequested, -, -⟩ := work_in_flight_is_bounded hasks hrun
  -- The request is for the second cycle, so both slots of the first are settled.
  have hsettled := hrequested _ next ⟨3, [8]⟩ hnext hnote 1
    ⟨1, [⟨2, [7]⟩, ⟨3, [8]⟩]⟩ (by decide) (by decide) 0 ⟨0, [⟨0, [5]⟩, ⟨1, [6]⟩]⟩ (by decide)
    (by decide)
  exact ⟨hasks, run, hrun, hinFlight, hexecuting, hnote, hsettled 5 (by decide),
    hsettled 6 (by decide)⟩

end Run

end Backfill
