import Backfill.Proofs.LedgerMerged
import Backfill.Proofs.RunDeliveries
import Backfill.Proofs.RunExplained

/-!
# What comes of every batch

Once a batch is in no place of a run any more, something has come of it: its result has come in, or
it was lost with a worker, or the token has fired.  A result that has come in is what the story of
its batch says, then and later, since no story goes on behind its result.  So the history tells
what has come of every batch, and the results are determined by the stories up to their order.

## Main definitions

* `Ledger.exhausted` — how many slots of a ledger used up the attempts of their batch.
* `Run.Resulted` — results, stories and ledger of a run agree.

## Main results

* `Accounts.Settles.exhausted_eq` — the total is what can be counted in the ledger.
* `Run.Resulted.move` — every move keeps results, stories and ledger in agreement.
* `Run.resulted_of_execute` — so does every run.
-/

namespace Backfill

/-- How many slots of a ledger used up the attempts of their batch. -/
def Ledger.exhausted (ledger : Ledger) : Nat :=
  ledger.slots.countP fun slot => (ledger.reasonOf? slot).any (·.isExhausted)

namespace Accounts

/-! ### Merged ledgers -/

variable {accounts : Accounts}

theorem merged_failSlots (h : accounts.ledger.Merged) (failures : List (Nat × FailureReason)) :
    (accounts.failSlots failures).ledger.Merged := by
  induction failures generalizing accounts with
  | nil => exact h
  | cons failure rest ih =>
    have hfirst : (accounts.fail (.single failure.1) failure.2).ledger.Merged :=
      h.recordRange (Nat.le_refl _) failure.2
    exact ih hfirst

theorem merged_failRanges (h : accounts.ledger.Merged) {ranges : List SlotRange}
    (hranges : ∀ range ∈ ranges, range.first ≤ range.last) (reason : FailureReason) :
    (accounts.failRanges ranges reason).ledger.Merged := by
  induction ranges generalizing accounts with
  | nil => exact h
  | cons range rest ih =>
    have hfirst : (accounts.fail range reason).ledger.Merged :=
      h.recordRange (hranges range List.mem_cons_self) reason
    exact ih hfirst fun other hother => hranges other (List.mem_cons_of_mem _ hother)

theorem merged_deliver (h : accounts.ledger.Merged) (delivery : Delivery)
    (result : Except DispatchError Unit) : (accounts.deliver delivery result).ledger.Merged := by
  cases result with
  | ok =>
    obtain ⟨hledger, -⟩ := foldl_succeed
      { accounts with
        forwarded := accounts.forwarded + delivery.records.length
        skipped := accounts.skipped + delivery.skipped } delivery.slots
    exact hledger ▸ h
  | error error =>
    have htold : Ledger.Merged
        { accounts with telemetry := accounts.telemetry.dispatchFailure }.ledger := h
    exact merged_failSlots htold _

/-! ### The total of used-up attempts -/

/-- **What is entered adds to the total what it adds to the ledger**, as long as none of its slots
had failed before. -/
theorem Settles.exhausted_eq {before after : Accounts} {failures : List (Nat × FailureReason)}
    {fetched : List Nat} (h : before.Settles failures fetched after)
    (hperm : after.ledger.slots.Perm (failures.map (·.1) ++ before.ledger.slots))
    (hbefore : before.exhausted = before.ledger.exhausted) :
    after.exhausted = after.ledger.exhausted := by
  have hnodup := hperm.nodup_iff.mp h.ordered.nodup_slots
  rw [h.exhausted, hbefore, Ledger.exhausted, Ledger.exhausted, hperm.countP_eq,
    List.countP_append, List.countP_map, Nat.add_comm]
  congr 1
  · refine List.countP_congr fun entry hentry => ?_
    rw [Function.comp_apply, h.recorded entry hentry, Option.any_some]
  · refine List.countP_congr fun slot hslot => ?_
    rw [h.kept slot fun hfailed => (List.nodup_append'.mp hnodup).2.2 hfailed hslot]

end Accounts

namespace Run

variable {run next : Run} {note : Option Note} {notes : List Note}
  {failures : List (Nat × FailureReason)}

theorem Move.fired_of_fired (h : run.Move note failures next) (hfired : next.fired = false) :
    run.fired = false := by
  cases h with
  | fire => simp at hfired
  | _ => exact hfired

/-- Every move keeps the ledger merged. -/
theorem Move.merged (h : run.Move note failures next) (hsound : run.setup.plan.Sound)
    (hmerged : run.accounts.ledger.Merged) : next.accounts.ledger.Merged := by
  -- Slots enter the ledger in four of the moves, each time through its own operations.
  cases h with
  | @pool cycle event pool signal =>
    obtain ⟨telemetry, heq⟩ := count_eq run.accounts signal
    rw [heq]
    exact hmerged
  | @intake cycle result =>
    have htold : Ledger.Merged
        { run.accounts with telemetry := run.accounts.telemetry.batch }.ledger := hmerged
    exact Accounts.merged_failSlots htold result.failures
  | @deliver cycle position delivery result =>
    exact Accounts.merged_deliver hmerged delivery result
  | @closeCycle cycle => exact Accounts.merged_failSlots hmerged cycle.lostSlots
  | cancelRest =>
    exact Accounts.merged_failRanges hmerged
      (fun range hrange => hsound.first_le_last_of_mem_tailRanges hrange) .cancelled
  | _ => exact hmerged

/-- A batch leaves all places by a result, by being lost, or because the token has fired before its
cycle is started. -/
theorem Explained.left_move (h : run.Explained notes) (hmove : run.Move note failures next)
    {batch : Batch} (hplaces : batch ∈ run.ahead ++ run.pending)
    (hnot : batch ∉ next.ahead ++ next.pending) :
    batch ∈ (resultsIn note.toList).map (·.batch) ∨
      (storyOf batch (notes ++ note.toList)).fate run.setup.policy = .lost ∨
      run.fired = true ∧ batch ∈ run.ahead ∧ note = none := by
  rcases h.accounted.orderly.left_move hmove hplaces hnot with
    ⟨cycle, result, rest, -, -, rfl, rfl⟩ | ⟨cycle, hstage, hover, hpending, rfl⟩ | hcancelled
  · exact .inl (by simp [resultsIn, Note.result?])
  · refine .inr (.inl ?_)
    rw [Option.toList_none, List.append_nil]
    exact h.fate_of_isOver hstage hover hpending
  · exact .inr (.inr hcancelled)

/-- Results, stories and ledger of a run agree. -/
structure Resulted (run : Run) (notes : List Note) : Prop where
  merged : run.accounts.ledger.Merged
  exhausted : run.accounts.exhausted = run.accounts.ledger.exhausted
  /-- The cycle of every batch that is not ahead was started, or the token has fired. -/
  opened : run.fired = false → ∀ batch ∈ run.setup.plan.batches, batch ∉ run.ahead →
    (storyOf batch notes).opened = true
  explains : ∀ result ∈ resultsIn notes,
    (storyOf result.batch notes).Explains run.setup.policy result
  /-- A batch that is in no place has a result or is lost, or the token has fired. -/
  gone : run.fired = false → ∀ batch ∈ run.setup.plan.batches, batch ∉ run.ahead ++ run.pending →
    batch ∈ (resultsIn notes).map (·.batch) ∨
      (storyOf batch notes).fate run.setup.policy = .lost
  /-- A delivery with nothing to hand on cannot fail. -/
  empty : ∀ delivery result, Note.delivered delivery result ∈ notes → delivery.records = [] →
    result = .ok ()

theorem opened_append {batch : Batch} (h : (storyOf batch notes).opened = true)
    (more : List Note) : (storyOf batch (notes ++ more)).opened = true := by
  rw [storyOf_append]
  generalize more.filter (·.isAbout batch) = told
  generalize storyOf batch notes = story at h
  induction told generalizing story with
  | nil => exact h
  | cons note rest ih => exact ih _ (by cases note <;> first | rfl | exact h)

theorem opened_append_opened {batch : Batch} {cycle : Cycle} (h : batch ∈ cycle.batches) :
    (storyOf batch (notes ++ [.opened cycle])).opened = true := by
  simp [storyOf_append, Note.isAbout, h, Story.tell]

namespace Resulted

/-- Before a run starts, nothing has come of its batches. -/
theorem start {setup : RunSetup} (h : setup.plan.Sound) (telemetry : Telemetry) :
    (Run.start setup telemetry).Resulted [] where
  merged := Ledger.merged_empty
  exhausted := rfl
  opened _ batch hbatch hnot := by
    refine absurd ?_ hnot
    have hmem : batch ∈ setup.plan.batchesFrom 0 := h.batchesFrom_zero ▸ hbatch
    exact hmem
  explains result hresult := by simp at hresult
  gone _ batch hbatch hnot := by
    refine absurd (List.mem_append_left _ ?_) hnot
    have hmem : batch ∈ setup.plan.batchesFrom 0 := h.batchesFrom_zero ▸ hbatch
    exact hmem
  empty delivery result hmem := by simp at hmem

theorem opened_move (h : run.Resulted notes) (hmove : run.Move note failures next)
    (hsound : run.setup.plan.Sound) (hfired : next.fired = false) :
    ∀ batch ∈ next.setup.plan.batches, batch ∉ next.ahead →
      (storyOf batch (notes ++ note.toList)).opened = true := by
  have hbefore := h.opened (hmove.fired_of_fired hfired)
  intro batch hbatch hnot
  rw [hmove.setup_eq] at hbatch
  -- A batch that no longer lies ahead was opened by this move or before it.
  by_cases hahead : batch ∈ run.ahead
  · cases hmove with
    | fire => simp at hfired
    | @openCycle cycle hstage _ hcycle =>
      simp only [ahead, hstage, hsound.batchesFrom_eq_append hcycle] at hahead hnot
      exact opened_append_opened ((List.mem_append.mp hahead).resolve_right hnot)
    | pool hstage | intake hstage | deliver hstage | closeCycle hstage =>
      simp only [ahead, hstage] at hahead hnot
      exact absurd hahead hnot
    | cancelRest _ htoken => simp [htoken] at hfired
    | conclude hstage hnext =>
      simp [ahead, hstage, Plan.batchesFrom_eq_nil hnext] at hahead
  · exact opened_append (hbefore batch hbatch hahead) _

/-- The story of a batch with a result is told. -/
theorem explains_move (h : run.Resulted notes) (hexplained : run.Explained notes)
    (hdelivered : run.Delivered notes) (hmove : run.Move note failures next) :
    ∀ result ∈ resultsIn (notes ++ note.toList),
      (storyOf result.batch (notes ++ note.toList)).Explains next.setup.policy result := by
  intro result hresult
  rw [hmove.setup_eq]
  rw [resultsIn_append] at hresult
  rcases List.mem_append.mp hresult with hold | hnew
  · -- a batch with a result is in no place, so its story does not go on
    rw [hexplained.storyOf_move hmove fun hplaces =>
      (List.nodup_append'.mp hdelivered.nodup_places).2.2 (List.mem_map_of_mem hold) hplaces]
    exact h.explains result hold
  · cases hmove with
    | @intake cycle first rest hstage hresults =>
      obtain rfl : result = first := by simpa [resultsIn, Note.result?] using hnew
      rw [Option.toList_some,
        storyOf_append_outside result.batch notes (.settled result) rfl (by simp)]
      refine (hexplained.pooled cycle hstage).finished result ?_
      rw [Pool.finished, hresults]
      exact List.mem_append_right _ List.mem_cons_self
    | pool hstage hpool =>
      rw [(Pool.shift_of_step? hpool).quiet.1] at hnew
      simp at hnew
    | _ => simp [resultsIn, Note.result?] at hnew

/-- A batch leaves all places by a result, or by being lost, unless the token has fired. -/
theorem gone_move (h : run.Resulted notes) (hexplained : run.Explained notes)
    (hmove : run.Move note failures next) (hfired : next.fired = false) :
    ∀ batch ∈ next.setup.plan.batches, batch ∉ next.ahead ++ next.pending →
      batch ∈ (resultsIn (notes ++ note.toList)).map (·.batch) ∨
        (storyOf batch (notes ++ note.toList)).fate next.setup.policy = .lost := by
  have hfiredBefore := hmove.fired_of_fired hfired
  intro batch hbatch hnot
  rw [hmove.setup_eq] at hbatch ⊢
  rw [resultsIn_append, List.map_append, List.mem_append]
  -- As long as the token has not fired, a batch leaves with its result or with its worker.
  by_cases hplaces : batch ∈ run.ahead ++ run.pending
  · rcases hexplained.left_move hmove hplaces hnot with hin | hlost | ⟨htoken, -⟩
    · exact .inl (.inr hin)
    · exact .inr hlost
    · simp [htoken] at hfiredBefore
  · rw [hexplained.storyOf_move hmove hplaces]
    exact (h.gone hfiredBefore batch hbatch hplaces).imp_left .inl

theorem empty_move (h : run.Resulted notes) (hmove : run.Move note failures next) :
    ∀ delivery result, Note.delivered delivery result ∈ notes ++ note.toList →
      delivery.records = [] → result = .ok () := by
  intro delivery result hmem
  rcases List.mem_append.mp hmem with hold | hnew
  · exact h.empty delivery result hold
  · cases hmove with
    | deliver _ _ hresult =>
      obtain ⟨rfl, rfl⟩ := Note.delivered.inj (List.mem_singleton.mp hnew)
      exact hresult
    | pool hstage hpool =>
      obtain ⟨batch, -, hbatch⟩ := (Pool.shift_of_step? hpool).exists_batch hnew
      simp [Note.batch?] at hbatch
    | _ => simp at hnew

/-- **Every move keeps results, stories and ledger in agreement.** -/
theorem move (h : run.Resulted notes) (hexplained : run.Explained notes)
    (hdelivered : run.Delivered notes) (hmove : run.Move note failures next) :
    next.Resulted (notes ++ note.toList) where
  merged := hmove.merged hexplained.accounted.orderly.sound h.merged
  exhausted := (hexplained.accounted.settling hmove).accounts.exhausted_eq
    (hexplained.accounted.slots_move hmove) h.exhausted
  opened := h.opened_move hmove hexplained.accounted.orderly.sound
  explains := h.explains_move hexplained hdelivered hmove
  gone := h.gone_move hexplained hmove
  empty := h.empty_move hmove

end Resulted

/-- **In every run, results, stories and ledger agree.** -/
theorem resulted_of_execute {setup : RunSetup} (h : setup.plan.Sound) {telemetry : Telemetry}
    {events : List Event} (hrun : (start setup telemetry).execute events = some run) :
    run.Resulted ((start setup telemetry).notes events) := by
  refine (execute_induct (motive := fun run notes => run.Explained notes ∧ run.Delivered notes ∧
    run.Resulted notes) hrun
    ⟨explained_start h telemetry, delivered_start h telemetry, .start h telemetry⟩
    fun ⟨hexplained, hdelivered, hresulted⟩ hstep => ?_).2.2
  obtain ⟨failures, hmove⟩ := move_of_step? hstep
  exact ⟨hexplained.move hmove, hdelivered.move hmove, hresulted.move hexplained hdelivered hmove⟩

end Run

end Backfill
