import Backfill.Proofs.AccountEntries
import Backfill.Proofs.PoolPlaces

/-!
# Where the slots of a run are

A slot of a run that is not settled yet is in one of three places: its batch belongs to a cycle
that has not been started, or its batch belongs to the open cycle and has no result, or its block
was fetched and is being handed on.  Every move takes the slots that it settles out of these
places, enters exactly these slots into the accounts, and leaves all other slots alone.

## Main definitions

* `Run.ahead`, `Run.pending`, `Run.deliveries` — the three places.
* `Run.unsettled` — the slots in all of them.
* `Run.Orderly` — no batch is in two places, and the pool of the open cycle works on batches that
  have no result.
* `Run.Settling` — a move settles some slots and leaves the others where they are.

## Main results

* `Run.Orderly.move` — every move keeps a run orderly.
* `Run.Orderly.settling` — **every move enters exactly the slots that it takes out of the three
  places.**
-/

namespace Backfill

namespace Run

/-! ### The three places -/

/-- The batches of the cycles that have not been started. -/
def ahead (run : Run) : List Batch :=
  match run.stage with
  | .over _ => []
  | _ => run.setup.plan.batchesFrom run.next

/-- The batches of the open cycle whose results have not come in. -/
def pending (run : Run) : List Batch :=
  match run.stage with
  | .busy cycle => cycle.pending
  | _ => []

/-- The batches in the pool of the open cycle. -/
def pooled (run : Run) : List Batch :=
  match run.stage with
  | .busy cycle => cycle.pool.batches
  | _ => []

/-- The deliveries that are not over. -/
def deliveries (run : Run) : List Delivery :=
  match run.stage with
  | .busy cycle => cycle.deliveries
  | _ => []

/-- The slots that are being handed on. -/
def underway (run : Run) : List Nat :=
  run.deliveries.flatMap fun delivery => delivery.slots.map (·.1)

/-- The slots that are neither fetched nor failed. -/
def unsettled (run : Run) : List Nat :=
  (run.ahead ++ run.pending).flatMap (·.slots) ++ run.underway

/-- No batch is in two places, and the pool of the open cycle works on batches that have no
result. -/
structure Orderly (run : Run) : Prop where
  sound : run.setup.plan.Sound
  batches : (run.ahead ++ run.pending).Subperm run.setup.plan.batches
  pooled : run.pooled.Subperm run.pending
  deliveries : ∀ delivery ∈ run.deliveries, ∃ fetched,
    delivery = .ofBlocks run.setup.filter run.setup.hasSink fetched

variable {run next : Run} {note : Option Note} {failures : List (Nat × FailureReason)}

theorem Move.setup_eq (h : run.Move note failures next) : next.setup = run.setup := by
  cases h <;> rfl

theorem orderly_start {setup : RunSetup} (h : setup.plan.Sound) (telemetry : Telemetry) :
    (start setup telemetry).Orderly where
  sound := h
  batches := by
    refine List.Perm.subperm (.of_eq ?_)
    rw [ahead, pending, start, List.append_nil]
    exact h.batchesFrom_zero
  pooled := List.nil_subperm
  deliveries := by simp [Run.deliveries, start]

namespace Orderly

theorem nodup (h : run.Orderly) : (run.ahead ++ run.pending).Nodup := by
  obtain ⟨list, hperm, hsublist⟩ := h.batches
  exact hperm.nodup_iff.mp (h.sound.nodup_batches.sublist hsublist)

theorem nodup_pooled (h : run.Orderly) : run.pooled.Nodup := by
  obtain ⟨list, hperm, hsublist⟩ := h.pooled
  exact hperm.nodup_iff.mp (h.nodup.of_append_right.sublist hsublist)

theorem mem_batches (h : run.Orderly) {batch : Batch} (hbatch : batch ∈ run.ahead ++ run.pending) :
    batch ∈ run.setup.plan.batches :=
  h.batches.subset hbatch

/-- Taking a result out of the open cycle takes its batch out, and no other. -/
theorem pending_perm (h : run.Orderly) {batch : Batch} (hbatch : batch ∈ run.pending) :
    run.pending.Perm (batch :: run.pending.filter (·.index != batch.index)) := by
  have hmem : ∀ {other}, other ∈ run.pending → other ∈ run.setup.plan.batches := fun hother =>
    h.mem_batches (List.mem_append_right _ hother)
  -- batches are told apart by their positions, and two of them never share one
  have hfilter : run.pending.filter (·.index != batch.index) = run.pending.erase batch := by
    rw [h.nodup.of_append_right.erase_eq_filter]
    refine List.filter_congr fun other hother => ?_
    rw [Bool.eq_iff_iff, bne_iff_ne, bne_iff_ne]
    exact not_congr ⟨h.sound.batch_eq_of_index (hmem hother) (hmem hbatch), congrArg _⟩
  rw [hfilter]
  exact List.perm_cons_erase hbatch

theorem mem_pending_of_results (h : run.Orderly) {cycle : CycleState}
    (hstage : run.stage = .busy cycle) {result : BatchResult} {rest : List BatchResult}
    (hresults : cycle.pool.results = result :: rest) : result.batch ∈ run.pending := by
  refine h.pooled.subset ?_
  rw [Run.pooled, hstage]
  exact (Pool.batches_eq_cons hresults).mem_iff.mpr List.mem_cons_self

theorem ahead_move (h : run.Orderly) (hmove : run.Move note failures next) :
    next.ahead ⊆ run.ahead := by
  cases hmove with
  | fire => exact fun _ => id
  | openCycle hstage _ hcycle =>
    simp only [ahead, hstage, h.sound.batchesFrom_eq_append hcycle]
    exact List.subset_append_right _ _
  | pool hstage | intake hstage | deliver hstage | closeCycle hstage =>
    simp only [ahead, hstage]
    exact fun _ => id
  | cancelRest | conclude => exact List.nil_subset _

/-- **No batch is put back.** -/
theorem places_move (h : run.Orderly) (hmove : run.Move note failures next) :
    (next.ahead ++ next.pending).Subperm (run.ahead ++ run.pending) := by
  -- Opening a cycle brings batches from one place to the other; other moves only take some away.
  cases hmove with
  | fire => exact .refl _
  | openCycle hstage _ hcycle =>
    simp only [ahead, pending, hstage, h.sound.batchesFrom_eq_append hcycle, CycleState.ofCycle,
      List.append_nil]
    exact List.perm_append_comm.subperm
  | pool hstage | deliver hstage =>
    simp only [ahead, pending, hstage]
    exact .refl _
  | intake hstage =>
    simp only [ahead, pending, hstage]
    exact (List.filter_sublist.append_left _).subperm
  | closeCycle hstage =>
    simp only [ahead, pending, hstage, List.append_nil]
    exact (List.sublist_append_left _ _).subperm
  | cancelRest | conclude => exact List.nil_subperm

/-- **A batch leaves all places in one of three ways**: its result comes in, its cycle is closed
without one, or it is cancelled before its cycle is started. -/
theorem left_move (h : run.Orderly) (hmove : run.Move note failures next) {batch : Batch}
    (hplaces : batch ∈ run.ahead ++ run.pending) (hnot : batch ∉ next.ahead ++ next.pending) :
    (∃ cycle result rest, run.stage = .busy cycle ∧ cycle.pool.results = result :: rest ∧
        result.batch = batch ∧ note = some (.settled result)) ∨
      (∃ cycle, run.stage = .busy cycle ∧ cycle.isOver = true ∧ batch ∈ run.pending ∧
        note = none) ∨
      run.fired = true ∧ batch ∈ run.ahead ∧ note = none := by
  -- A batch leaves both places with its result, when its cycle closes, or with the tail.
  cases hmove with
  | fire => exact absurd hplaces hnot
  | openCycle hstage _ hcycle =>
    simp only [ahead, pending, hstage, h.sound.batchesFrom_eq_append hcycle, CycleState.ofCycle,
      List.append_nil] at hplaces hnot
    exact absurd (List.perm_append_comm.mem_iff.mp hplaces) hnot
  | pool hstage | deliver hstage =>
    simp only [ahead, pending, hstage] at hplaces hnot
    exact absurd hplaces hnot
  | @intake cycle result rest hstage hresults =>
    have hperm := (h.pending_perm (h.mem_pending_of_results hstage hresults)).append_left run.ahead
    have hmem := (hperm.trans List.perm_middle).mem_iff.mp hplaces
    simp only [ahead, pending, hstage] at hmem hnot
    obtain rfl := (List.mem_cons.mp hmem).resolve_right hnot
    exact .inl ⟨cycle, result, rest, hstage, hresults, rfl, rfl⟩
  | @closeCycle cycle telemetry hstage hover =>
    refine .inr (.inl ⟨cycle, hstage, hover, (List.mem_append.mp hplaces).resolve_left ?_, rfl⟩)
    simp only [ahead, pending, hstage, List.append_nil] at hnot ⊢
    exact hnot
  | cancelRest hstage hfired =>
    simp only [pending, hstage, List.append_nil] at hplaces
    exact .inr (.inr ⟨hfired, hplaces, rfl⟩)
  | conclude hstage hnext =>
    simp [ahead, pending, hstage, Plan.batchesFrom_eq_nil hnext] at hplaces

/-- The pool of the open cycle works on batches that have no result. -/
theorem pooled_move (h : run.Orderly) (hmove : run.Move note failures next) :
    next.pooled.Subperm next.pending := by
  have hpooled := h.pooled
  cases hmove with
  | fire => exact hpooled
  | openCycle => exact (List.Perm.of_eq (Pool.batches_ofBatches ..)).subperm
  | @pool cycle event pool signal hstage hpool =>
    rw [Run.pooled, pending, hstage] at hpooled
    exact (Pool.shift_of_step? hpool).batches_subperm.trans hpooled
  | @intake cycle result rest hstage hresults =>
    have hpending := h.pending_perm (h.mem_pending_of_results hstage hresults)
    rw [pending, hstage] at hpending
    rw [Run.pooled, pending, hstage] at hpooled
    -- The result takes its batch out of the pool and out of the pending ones.
    refine (List.subperm_cons result.batch).mp ?_
    exact (Pool.batches_eq_cons hresults).symm.subperm.trans (hpooled.trans hpending.subperm)
  | deliver hstage => rwa [Run.pooled, pending, hstage] at hpooled
  | closeCycle | cancelRest | conclude => exact List.nil_subperm

/-- Every delivery is made of fetched blocks. -/
theorem deliveries_move (h : run.Orderly) (hmove : run.Move note failures next) :
    ∀ delivery ∈ next.deliveries, ∃ fetched,
      delivery = .ofBlocks next.setup.filter next.setup.hasSink fetched := by
  have hdeliveries := h.deliveries
  intro delivery hdelivery
  -- Only a result that comes in makes a delivery, out of the blocks it carries.
  cases hmove with
  | fire => exact hdeliveries delivery hdelivery
  | pool hstage =>
    rw [Run.deliveries, hstage] at hdeliveries
    exact hdeliveries delivery hdelivery
  | @intake cycle result rest hstage hresults =>
    rw [Run.deliveries, hstage] at hdeliveries
    rcases List.mem_append.mp hdelivery with hold | hnew
    · exact hdeliveries delivery hold
    · unfold BatchResult.delivery? at hnew
      split at hnew
      · simp at hnew
      · exact ⟨result.blocks, List.mem_singleton.mp hnew⟩
  | deliver hstage =>
    rw [Run.deliveries, hstage] at hdeliveries
    exact hdeliveries delivery (List.mem_of_mem_eraseIdx hdelivery)
  | openCycle | closeCycle | cancelRest | conclude =>
    simp [Run.deliveries, CycleState.ofCycle] at hdelivery

/-- **Every move keeps a run orderly.** -/
theorem move (h : run.Orderly) (hmove : run.Move note failures next) : next.Orderly where
  sound := hmove.setup_eq ▸ h.sound
  batches := hmove.setup_eq ▸ (h.places_move hmove).trans h.batches
  pooled := h.pooled_move hmove
  deliveries := h.deliveries_move hmove

end Orderly

/-! ### What a move settles -/

/-- A move settles some slots and leaves the others where they are. -/
structure Settling (before after : Run) (failures : List (Nat × FailureReason))
    (fetched : List Nat) : Prop where
  accounts : before.accounts.Settles failures fetched after.accounts
  unsettled : before.unsettled.Perm (failures.map (·.1) ++ fetched ++ after.unsettled)

namespace Settling

theorem still (h : run.accounts.ledger.Ordered) (hunsettled : run.unsettled.Perm next.unsettled)
    (haccounts : ∃ telemetry, next.accounts = { run.accounts with telemetry := telemetry }) :
    Settling run next [] [] where
  accounts := by
    obtain ⟨telemetry, heq⟩ := haccounts
    rw [heq]
    exact (Accounts.Settles.refl h).told telemetry
  unsettled := by simpa using hunsettled

theorem kept {fetched : List Nat} (h : Settling run next failures fetched) {slot : Nat}
    (hslot : slot ∉ run.unsettled) :
    slot ∉ next.unsettled ∧
      next.accounts.ledger.reasonOf? slot = run.accounts.ledger.reasonOf? slot := by
  have hnot : slot ∉ failures.map (·.1) ++ fetched ++ next.unsettled :=
    mt h.unsettled.mem_iff.mpr hslot
  simp only [List.mem_append, not_or] at hnot
  exact ⟨hnot.2, h.accounts.kept slot hnot.1.1⟩

end Settling

theorem slots_delivered (delivery : Delivery) (result : Except DispatchError Unit) :
    (delivery.failures result).map (·.1) ++ delivery.fetched result = delivery.slots.map (·.1) := by
  cases result <;> simp [Delivery.failures, Delivery.fetched, Function.comp_def]

theorem count_eq (accounts : Accounts) (signal : Pool.Signal) :
    ∃ telemetry, count accounts signal = { accounts with telemetry := telemetry } := by
  cases signal <;> exact ⟨_, rfl⟩

theorem map_fst_lostSlots (cycle : CycleState) :
    cycle.lostSlots.map (·.1) = cycle.pending.flatMap (·.slots) := by
  simp [CycleState.lostSlots, Function.comp_def]

theorem deliveries_of_isOver {cycle : CycleState} (h : cycle.isOver = true) :
    cycle.deliveries = [] := by
  rw [CycleState.isOver, Bool.and_eq_true] at h
  exact List.isEmpty_iff.mp h.2

namespace Orderly

/-- A result that comes in settles the slots of its batch that have failed, and its fetched slots
are handed on. -/
theorem settling_intake (h : run.Orderly) (hordered : run.accounts.ledger.Ordered)
    {cycle : CycleState} (hstage : run.stage = .busy cycle) {result : BatchResult}
    {rest : List BatchResult} (hresults : cycle.pool.results = result :: rest) :
    Settling run
      { run with
        stage := .busy
          { pool := { cycle.pool with results := rest }
            pending := cycle.pending.filter (·.index != result.batch.index)
            deliveries := cycle.deliveries ++ (result.delivery? run.setup).toList }
        accounts := (run.accounts.settle result).1 } result.failures [] := by
  have hmem := h.mem_pending_of_results hstage hresults
  have hnodup := h.sound.nodup_slots_of_mem (h.mem_batches (List.mem_append_right _ hmem))
  refine ⟨BatchResult.settles_settle hordered hnodup, ?_⟩
  -- each slot of the batch goes from the open cycle to the failures or to the deliveries
  rw [List.perm_iff_count]
  intro slot
  have hslots := (BatchResult.slots_perm hnodup).count_eq slot
  have hpending := ((h.pending_perm hmem).flatMap_right (·.slots)).count_eq slot
  simp only [pending, hstage, List.flatMap_cons, List.count_append] at hslots hpending
  simp only [unsettled, ahead, pending, underway, Run.deliveries, hstage, List.flatMap_append,
    BatchResult.flatMap_slots_delivery?, List.count_append, List.count_nil]
  omega

/-- A delivery that is over settles its slots. -/
theorem settling_deliver (hordered : run.accounts.ledger.Ordered) (hnodup : run.unsettled.Nodup)
    {cycle : CycleState} (hstage : run.stage = .busy cycle) {position : Nat} {delivery : Delivery}
    (hdelivery : cycle.deliveries[position]? = some delivery)
    (result : Except DispatchError Unit) :
    Settling run
      { run with
        stage := .busy { cycle with deliveries := cycle.deliveries.eraseIdx position }
        accounts := run.accounts.deliver delivery result }
      (delivery.failures result) (delivery.fetched result) := by
  have hsplit : cycle.deliveries.Perm (delivery :: cycle.deliveries.eraseIdx position) := by
    obtain ⟨hlt, rfl⟩ := List.getElem?_eq_some_iff.mp hdelivery
    exact (List.getElem_cons_eraseIdx_perm hlt).symm
  have hunderway := hsplit.flatMap_right fun delivery => delivery.slots.map (·.1)
  rw [List.flatMap_cons] at hunderway
  have hslots : (cycle.deliveries.flatMap fun delivery => delivery.slots.map (·.1)).Nodup := by
    simpa only [underway, Run.deliveries, hstage] using hnodup.of_append_right
  refine ⟨Accounts.settles_deliver hordered (hunderway.nodup_iff.mp hslots).of_append_left _, ?_⟩
  rw [← slots_delivered delivery result] at hunderway
  -- One delivery less is under way, and its slots are what has been settled.
  rw [List.perm_iff_count]
  intro slot
  have hcount := hunderway.count_eq slot
  simp only [List.count_append] at hcount
  simp only [unsettled, ahead, pending, underway, Run.deliveries, hstage, List.flatMap_append,
    List.count_append]
  omega

/-- A cycle that is closed settles the slots that were lost with its workers. -/
theorem settling_closeCycle (hordered : run.accounts.ledger.Ordered) (hnodup : run.unsettled.Nodup)
    {cycle : CycleState} (hstage : run.stage = .busy cycle) (hover : cycle.isOver = true)
    (telemetry : Telemetry) :
    Settling run
      { run with
        stage := .between
        accounts := { run.accounts.failSlots cycle.lostSlots with telemetry := telemetry } }
      cycle.lostSlots [] := by
  have hlost := map_fst_lostSlots cycle
  have hdeliveries := deliveries_of_isOver hover
  simp only [unsettled, ahead, pending, underway, Run.deliveries, hstage, hdeliveries,
    List.flatMap_append, List.flatMap_nil, List.append_nil] at hnodup
  -- Of a cycle that is over only the lost slots are still unsettled.
  refine ⟨(Accounts.settles_failSlots hordered ?_).told telemetry, ?_⟩
  · rw [hlost]
    exact hnodup.of_append_right
  · simp only [unsettled, ahead, pending, underway, Run.deliveries, hstage, hdeliveries, hlost,
      List.flatMap_append, List.flatMap_nil, List.append_nil]
    exact List.perm_append_comm

/-- Cancelling the rest settles the slots of the cycles that have not been started. -/
theorem settling_cancelRest (h : run.Orderly) (hordered : run.accounts.ledger.Ordered)
    (hnodup : run.unsettled.Nodup) (hstage : run.stage = .between) :
    Settling run
      { run with
        stage := .over true
        accounts := run.accounts.failRanges (run.setup.plan.tailRanges run.next) .cancelled }
      (((run.setup.plan.tailRanges run.next).flatMap SlotRange.slots).map fun slot =>
        (slot, .cancelled)) [] := by
  have htail := h.sound.flatMap_slots_tailRanges run.next
  -- The tail has no more slots than the plan, and their number is a word.
  have hlength : ((run.setup.plan.batchesFrom run.next).flatMap (·.slots)).length ≤ Word.max := by
    have hcount := h.sound.slotCount_le
    rw [h.sound.slotCount_eq] at hcount
    rw [h.sound.flatMap_slots_batchesFrom, List.length_drop]
    omega
  simp only [unsettled, ahead, pending, underway, Run.deliveries, hstage, List.flatMap_nil,
    List.append_nil] at hnodup
  refine ⟨?_, ?_⟩
  · exact Accounts.settles_failRanges hordered
      (fun range hrange => h.sound.first_le_last_of_mem_tailRanges hrange)
      (htail.nodup_iff.mpr hnodup) (htail.length_eq ▸ hlength) .cancelled
  · simp only [unsettled, ahead, pending, underway, Run.deliveries, hstage, List.flatMap_nil,
      List.append_nil, List.map_map, Function.comp_def, List.map_id']
    exact htail.symm

/-- **Every move enters exactly the slots that it takes out of the three places.** -/
theorem settling (h : run.Orderly) (hordered : run.accounts.ledger.Ordered)
    (hnodup : run.unsettled.Nodup) (hmove : run.Move note failures next) :
    Settling run next failures (note.toList.flatMap Note.fetched) := by
  cases hmove with
  | fire => exact .still hordered (.refl _) ⟨_, rfl⟩
  | @openCycle cycle hstage _ hcycle =>
    -- The batches of the cycle are pending now, and were ahead before.
    refine .still hordered ?_ ⟨_, rfl⟩
    simp only [unsettled, ahead, pending, underway, Run.deliveries, hstage, CycleState.ofCycle,
      h.sound.batchesFrom_eq_append hcycle, List.append_nil]
    exact (List.perm_append_comm.flatMap_right _).append_right _
  | @pool cycle event pool signal hstage hpool =>
    rw [(Pool.shift_of_step? hpool).fetched]
    refine .still hordered (.of_eq ?_) (count_eq _ _)
    simp only [unsettled, ahead, pending, underway, Run.deliveries, hstage]
  | intake hstage hresults => exact h.settling_intake hordered hstage hresults
  | @deliver cycle position delivery result hstage hdelivery _ =>
    have hfetched : (some (Note.delivered delivery result)).toList.flatMap Note.fetched =
        delivery.fetched result := List.append_nil _
    rw [hfetched]
    exact settling_deliver hordered hnodup hstage hdelivery result
  | @closeCycle cycle telemetry hstage hover =>
    exact settling_closeCycle hordered hnodup hstage hover telemetry
  | cancelRest hstage => exact h.settling_cancelRest hordered hnodup hstage
  | conclude hstage hnext =>
    refine .still hordered (.of_eq ?_) ⟨_, rfl⟩
    simp only [unsettled, ahead, pending, underway, Run.deliveries, hstage,
      Plan.batchesFrom_eq_nil hnext]

end Orderly

end Run

end Backfill
