import Backfill.Proofs.BatchStories
import Backfill.Proofs.RunAccounting

/-!
# What a run owes to its history

The ledger of a run is filled from many sides: from the results of the workers, from deliveries
that have failed, from batches that were lost with a worker, and from the cycles that were never
started.  Which of them reaches a slot depends on the order of the moves.  The history of the run
says what the reason of a slot should be, and every move that settles a slot enters this reason.

The invariant ties the parts of a run to the stories of its batches: batches that are ahead have
none, those in the pool are where their stories say, those that left the pool without a result are
lost, and what is handed on is what the client answered.

## Main definitions

* `deliveryResult?` — how the delivery of a slot ended.
* `reasonFor` — the reason of a slot according to the history.
* `Run.Explained` — ledger, pool and deliveries of a run are what its history says.

## Main results

* `Run.Explained.settled_of_new` — **what a move settles, it settles as the history says.**
* `Run.Explained.settled_of_old` — what was settled before stays as the history says.
* `Run.Explained.move` — every move keeps a run explained.
-/

namespace Backfill

/-! ### What the history says about a slot -/

/-- How a delivery ended, if that is noted and the slot is part of it. -/
def Note.delivers (slot : Nat) : Note → Option (Except DispatchError Unit)
  | .delivered delivery result =>
    if slot ∈ delivery.slots.map (·.1) then some result else none
  | _ => none

/-- How the delivery of a slot ended. -/
def deliveryResult? (notes : List Note) (slot : Nat) : Option (Except DispatchError Unit) :=
  notes.findSome? (Note.delivers slot)

/-- **The reason of a slot according to the history**: what becomes of its batch decides, and for
a slot whose block was fetched, the end of its delivery. -/
def reasonFor (policy : RetryPolicy) (notes : List Note) (batch : Batch) (slot : Nat) :
    Option FailureReason :=
  match (storyOf batch notes).fate policy with
  | .answered outcomes =>
    match Accounts.outcomeOf outcomes slot with
    | .failed reason => some reason
    | .fetched _ =>
      match deliveryResult? notes slot with
      | some (.error error) => some (.dispatchFailed error.message)
      | _ => none
  | .exhausted attempts lastError => some (.exhaustedRetries attempts lastError)
  | .cancelled => some .cancelled
  | .lost => some .workerLost

theorem deliveryResult?_append_of_forall {slot : Nat} (notes : List Note) {more : List Note}
    (h : ∀ note ∈ more, note.delivers slot = none) :
    deliveryResult? (notes ++ more) slot = deliveryResult? notes slot := by
  have hnone : more.findSome? (Note.delivers slot) = none := List.findSome?_eq_none_iff.mpr h
  rw [deliveryResult?, List.findSome?_append, hnone, Option.or_none, deliveryResult?]

theorem deliveryResult?_append_delivered {slot : Nat} {notes : List Note} {delivery : Delivery}
    (h : deliveryResult? notes slot = none) (hslot : slot ∈ delivery.slots.map (·.1))
    (result : Except DispatchError Unit) :
    deliveryResult? (notes ++ [.delivered delivery result]) slot = some result := by
  rw [deliveryResult?] at h ⊢
  rw [List.findSome?_append, h, Option.none_or, List.findSome?_singleton, Note.delivers,
    if_pos hslot]

/-- What a result enters is the reason that the story of its batch calls for. -/
theorem reasonFor_of_explains {policy : RetryPolicy} {notes : List Note} {result : BatchResult}
    (h : (storyOf result.batch notes).Explains policy result) {slot : Nat}
    (hslot : slot ∈ result.batch.slots) {reason : FailureReason}
    (houtcome : Accounts.outcomeOf result.outcomes slot = .failed reason) :
    reasonFor policy notes result.batch slot = some reason := by
  unfold Story.Explains at h
  unfold reasonFor
  -- Except for an answer, every slot of the batch ends the same way.
  cases hfate : (storyOf result.batch notes).fate policy with
  | answered outcomes =>
    simp only [hfate] at h
    simp only [← h, houtcome]
  | exhausted attempts lastError =>
    simp only [hfate] at h
    rw [h, Accounts.outcomeOf_uniform hslot] at houtcome
    simpa using houtcome
  | cancelled =>
    simp only [hfate] at h
    rw [h, Accounts.outcomeOf_uniform hslot] at houtcome
    simpa using houtcome
  | lost => simp only [hfate] at h

/-- A result that has fetched a block is an answer of the client. -/
theorem Story.Explains.fate_of_fetched {policy : RetryPolicy} {story : Story}
    {result : BatchResult} (h : story.Explains policy result) {slot : Nat}
    (hslot : slot ∈ result.batch.slots) {block : Json}
    (houtcome : Accounts.outcomeOf result.outcomes slot = .fetched block) :
    story.fate policy = .answered result.outcomes := by
  unfold Explains at h
  split at h
  · next hfate => rw [hfate, h]
  · rw [h, Accounts.outcomeOf_uniform hslot] at houtcome
    simp at houtcome
  · rw [h, Accounts.outcomeOf_uniform hslot] at houtcome
    simp at houtcome
  · exact h.elim

namespace Run

/-! ### What a move notes -/

variable {run next : Run} {note : Option Note} {notes : List Note}
  {failures : List (Nat × FailureReason)}

/-- A note is about a batch of the pool, or about one whose cycle is started by the move. -/
theorem Move.mem_of_isAbout (h : run.Move note failures next) {told : Note}
    (htold : told ∈ note.toList) {batch : Batch} (habout : told.isAbout batch = true) :
    batch ∈ run.pooled ∨ batch ∈ next.pending ∧ run.stage = .between := by
  cases h with
  | openCycle hstage =>
    obtain rfl := List.mem_singleton.mp htold
    exact .inr ⟨of_decide_eq_true habout, hstage⟩
  | pool hstage hpool =>
    rw [pooled, hstage]
    exact .inl ((Pool.shift_of_step? hpool).mem_of_isAbout htold habout)
  | intake | deliver =>
    obtain rfl := List.mem_singleton.mp htold
    simp [Note.isAbout, Note.batch?] at habout
  | _ => simp at htold

/-- A delivery that is noted settles its slots. -/
theorem Move.mem_of_delivers (h : run.Move note failures next) {told : Note}
    (htold : told ∈ note.toList) {slot : Nat} (hdelivers : told.delivers slot ≠ none) :
    slot ∈ failures.map (·.1) ++ note.toList.flatMap Note.fetched := by
  cases h with
  | @deliver cycle position delivery result =>
    obtain rfl := List.mem_singleton.mp htold
    have hslot : slot ∈ delivery.slots.map (·.1) := by
      by_contra hnot
      simp [Note.delivers, hnot] at hdelivers
    rw [← slots_delivered delivery result] at hslot
    simpa [Note.fetched] using hslot
  -- A note of the pool is about a batch, so it is no delivery.
  | pool hstage hpool =>
    obtain ⟨batch, -, hbatch⟩ := (Pool.shift_of_step? hpool).exists_batch htold
    cases told with
    | delivered => simp [Note.batch?] at hbatch
    | _ => exact absurd rfl hdelivers
  | openCycle | intake =>
    obtain rfl := List.mem_singleton.mp htold
    simp [Note.delivers] at hdelivers
  | _ => simp at htold

/-! ### What every run keeps to -/

/-- Ledger, pool and deliveries of a run are what its history says. -/
structure Explained (run : Run) (notes : List Note) : Prop where
  accounted : run.Accounted notes
  ahead : ∀ batch ∈ run.ahead, storyOf batch notes = .blank
  pooled : ∀ cycle, run.stage = .busy cycle → cycle.pool.Faithful run.setup.policy notes
  missing : ∀ batch ∈ run.pending, batch ∉ run.pooled →
    (storyOf batch notes).fate run.setup.policy = .lost ∧ (storyOf batch notes).broke = true
  underway : ∀ slot ∈ run.underway, ∃ batch ∈ run.setup.plan.batches, slot ∈ batch.slots ∧
    batch ∉ run.ahead ++ run.pending ∧ ∃ outcomes block,
      (storyOf batch notes).fate run.setup.policy = .answered outcomes ∧
        Accounts.outcomeOf outcomes slot = .fetched block
  silent : ∀ slot ∈ run.unsettled, deliveryResult? notes slot = none
  settled : ∀ batch ∈ run.setup.plan.batches, ∀ slot ∈ batch.slots, slot ∉ run.unsettled →
    run.accounts.ledger.reasonOf? slot = reasonFor run.setup.policy notes batch slot

/-- A run that has not started has no history. -/
theorem explained_start {setup : RunSetup} (h : setup.plan.Sound) (telemetry : Telemetry) :
    (start setup telemetry).Explained [] where
  accounted := accounted_start h telemetry
  ahead _ _ := rfl
  pooled cycle hstage := by simp [start] at hstage
  missing batch hbatch := by simp [pending, start] at hbatch
  underway slot hslot := by simp [Run.underway, deliveries, start] at hslot
  silent _ _ := rfl
  settled batch hbatch slot hslot hnot := by
    refine absurd (List.mem_append_left _ (List.mem_flatMap.mpr ⟨batch, ?_, hslot⟩)) hnot
    have hmem : batch ∈ setup.plan.batchesFrom 0 := h.batchesFrom_zero ▸ hbatch
    exact List.mem_append_left _ hmem

namespace Explained

variable {batch : Batch} {slot : Nat}

theorem not_mem_places (hslot : slot ∈ batch.slots) (hnot : slot ∉ run.unsettled) :
    batch ∉ run.ahead ++ run.pending := fun hbatch =>
  hnot (List.mem_append_left _ (List.mem_flatMap.mpr ⟨batch, hbatch, hslot⟩))

theorem storyOf_move (h : run.Explained notes) (hmove : run.Move note failures next)
    (hbatch : batch ∉ run.ahead ++ run.pending) :
    storyOf batch (notes ++ note.toList) = storyOf batch notes := by
  refine storyOf_append_of_forall notes fun told htold => Bool.eq_false_iff.mpr fun habout => ?_
  rcases hmove.mem_of_isAbout htold habout with hpooled | ⟨hpending, -⟩
  · exact hbatch (List.mem_append_right _ (h.accounted.orderly.pooled.subset hpooled))
  · exact hbatch ((h.accounted.orderly.places_move hmove).subset (List.mem_append_right _ hpending))

theorem deliveryResult?_move (hmove : run.Move note failures next)
    (hslot : slot ∉ failures.map (·.1) ++ note.toList.flatMap Note.fetched) :
    deliveryResult? (notes ++ note.toList) slot = deliveryResult? notes slot :=
  deliveryResult?_append_of_forall notes fun _ htold =>
    Classical.not_not.mp fun hdelivers => hslot (hmove.mem_of_delivers htold hdelivers)

/-- What is settled stays as it is, and so does what the history says about it. -/
theorem settled_of_old (h : run.Explained notes) (hmove : run.Move note failures next)
    (hbatch : batch ∈ run.setup.plan.batches) (hslot : slot ∈ batch.slots)
    (hold : slot ∉ run.unsettled) :
    next.accounts.ledger.reasonOf? slot =
      reasonFor run.setup.policy (notes ++ note.toList) batch slot := by
  have hsettling := h.accounted.settling hmove
  have hkeys : slot ∉ failures.map (·.1) ++ note.toList.flatMap Note.fetched := fun hkey =>
    hold (hsettling.unsettled.mem_iff.mpr (List.mem_append_left _ hkey))
  rw [(hsettling.kept hold).2, h.settled batch hbatch slot hslot hold, reasonFor, reasonFor,
    h.storyOf_move hmove (not_mem_places hslot hold), deliveryResult?_move hmove hkeys]

/-- The history calls for the reasons of a result that comes in. -/
theorem reasonFor_intake (h : run.Explained notes) {cycle : CycleState}
    (hstage : run.stage = .busy cycle) {result : BatchResult} {rest : List BatchResult}
    (hresults : cycle.pool.results = result :: rest) (hbatch : batch ∈ run.setup.plan.batches)
    (hslot : slot ∈ batch.slots) {reason : FailureReason}
    (hentry : (slot, reason) ∈ result.failures) :
    reasonFor run.setup.policy (notes ++ [.settled result]) batch slot = some reason := by
  have hsound := h.accounted.orderly.sound
  have hmem := h.accounted.orderly.mem_pending_of_results hstage hresults
  have hresult := h.accounted.orderly.mem_batches (List.mem_append_right _ hmem)
  obtain ⟨hin, houtcome⟩ := (BatchResult.mem_failures (hsound.nodup_slots_of_mem hresult)).mp hentry
  -- A slot belongs to one batch of the plan, so the result is this batch's own.
  obtain rfl := hsound.batch_eq_of_mem hresult hbatch hin hslot
  refine reasonFor_of_explains ?_ hin houtcome
  rw [storyOf_append_outside result.batch notes (.settled result) rfl (by simp)]
  refine (h.pooled cycle hstage).finished result ?_
  rw [Pool.finished, hresults]
  exact List.mem_append_right _ List.mem_cons_self

/-- The history calls for the reason that the end of a delivery gives its slots. -/
theorem reasonFor_deliver (h : run.Explained notes) {delivery : Delivery}
    (hdelivery : delivery ∈ run.deliveries) (hbatch : batch ∈ run.setup.plan.batches)
    (hslot : slot ∈ batch.slots) (hslots : slot ∈ delivery.slots.map (·.1))
    (result : Except DispatchError Unit) :
    reasonFor run.setup.policy (notes ++ [.delivered delivery result]) batch slot =
      dispatchReason? result := by
  have hsound := h.accounted.orderly.sound
  have hunderway : slot ∈ run.underway := List.mem_flatMap.mpr ⟨delivery, hdelivery, hslots⟩
  -- The slot is under way, so its batch was answered with a block for it.
  obtain ⟨owner, howner, hin, -, outcomes, block, hfate, houtcome⟩ := h.underway slot hunderway
  obtain rfl := hsound.batch_eq_of_mem howner hbatch hin hslot
  have hstory := storyOf_append_outside owner notes (.delivered delivery result) rfl (by simp)
  have hsilent := h.silent slot (List.mem_append_right _ hunderway)
  simp only [reasonFor, hstory, hfate, houtcome,
    deliveryResult?_append_delivered hsilent hslots result]
  cases result <;> rfl

theorem fate_of_isOver (h : run.Explained notes) {cycle : CycleState}
    (hstage : run.stage = .busy cycle) (hover : cycle.isOver = true)
    (hbatch : batch ∈ run.pending) : (storyOf batch notes).fate run.setup.policy = .lost := by
  by_cases hpooled : batch ∈ run.pooled
  · rw [CycleState.isOver, Bool.and_eq_true] at hover
    rw [Run.pooled, hstage] at hpooled
    rw [(h.pooled cycle hstage).untried batch (Pool.batches_of_isOver hover.1 ▸ hpooled)]
    exact Story.fate_listed _
  · exact (h.missing batch hbatch hpooled).1

theorem reasonFor_lost (h : run.Explained notes) {cycle : CycleState}
    (hstage : run.stage = .busy cycle) (hover : cycle.isOver = true)
    (hbatch : batch ∈ run.pending) :
    reasonFor run.setup.policy notes batch slot = some .workerLost := by
  rw [reasonFor, h.fate_of_isOver hstage hover hbatch]

theorem reasonFor_ahead (h : run.Explained notes) (hbatch : batch ∈ run.ahead) :
    reasonFor run.setup.policy notes batch slot = some .cancelled := by
  rw [reasonFor, h.ahead batch hbatch, Story.fate_blank]

/-- **What a move settles, it settles as the history says.** -/
theorem settled_of_new (h : run.Explained notes) (hmove : run.Move note failures next)
    (hbatch : batch ∈ run.setup.plan.batches) (hslot : slot ∈ batch.slots)
    (hnew : slot ∈ failures.map (·.1) ++ note.toList.flatMap Note.fetched) :
    next.accounts.ledger.reasonOf? slot =
      reasonFor run.setup.policy (notes ++ note.toList) batch slot := by
  have hsound := h.accounted.orderly.sound
  have horderly := h.accounted.orderly
  have hrecorded := (h.accounted.settling hmove).accounts.recorded
  have hends := @Accounted.ends_move run next note notes failures h.accounted hmove
  -- Each kind of move records one reason, and the history says the same of the batch.
  cases hmove with
  | fire | conclude => simp at hnew
  | openCycle => simp [Note.fetched] at hnew
  | pool hstage hpool =>
    rw [(Pool.shift_of_step? hpool).fetched] at hnew
    simp at hnew
  | @intake cycle result rest hstage hresults =>
    simp only [Option.toList_some, List.flatMap_singleton, Note.fetched, List.append_nil,
      List.mem_map, Prod.exists, exists_and_right, exists_eq_right] at hnew
    obtain ⟨reason, hentry⟩ := hnew
    exact (hrecorded _ hentry).trans
      (h.reasonFor_intake hstage hresults hbatch hslot hentry).symm
  | @deliver cycle position delivery result hstage hdelivery _ =>
    have hslots : slot ∈ delivery.slots.map (·.1) := by
      rw [← slots_delivered delivery result]
      simpa [Note.fetched] using hnew
    have hmem : delivery ∈ run.deliveries := by
      rw [deliveries, hstage]
      exact List.mem_of_getElem? hdelivery
    exact (hends rfl slot hslots).2.trans
      (h.reasonFor_deliver hmem hbatch hslot hslots result).symm
  | @closeCycle cycle telemetry hstage hover =>
    rw [Option.toList_none, List.flatMap_nil, List.append_nil, map_fst_lostSlots] at hnew
    obtain ⟨owner, howner, hin⟩ := List.mem_flatMap.mp hnew
    have hpending : owner ∈ run.pending := by rwa [pending, hstage]
    have hplan := horderly.mem_batches (List.mem_append_right _ hpending)
    obtain rfl := hsound.batch_eq_of_mem hplan hbatch hin hslot
    rw [Option.toList_none, List.append_nil, h.reasonFor_lost hstage hover hpending]
    exact hrecorded (slot, .workerLost) (List.mem_map.mpr ⟨slot, hnew, rfl⟩)
  | cancelRest hstage =>
    rw [Option.toList_none, List.flatMap_nil, List.append_nil, List.map_map] at hnew
    have hcancelled : slot ∈ (run.setup.plan.tailRanges run.next).flatMap SlotRange.slots := by
      simpa [Function.comp_def] using hnew
    obtain ⟨owner, howner, hin⟩ := List.mem_flatMap.mp
      ((hsound.flatMap_slots_tailRanges run.next).mem_iff.mp hcancelled)
    have hahead : owner ∈ run.ahead := by rwa [Run.ahead, hstage]
    have hplan := horderly.mem_batches (List.mem_append_left _ hahead)
    obtain rfl := hsound.batch_eq_of_mem hplan hbatch hin hslot
    rw [Option.toList_none, List.append_nil, h.reasonFor_ahead hahead]
    exact hrecorded (slot, .cancelled) (List.mem_map.mpr ⟨slot, hcancelled, rfl⟩)

theorem ahead_move (h : run.Explained notes) (hmove : run.Move note failures next) :
    ∀ batch ∈ next.ahead, storyOf batch (notes ++ note.toList) = .blank := by
  intro batch hbatch
  have horderly := h.accounted.orderly
  have hahead := horderly.ahead_move hmove hbatch
  rw [← h.ahead batch hahead]
  refine storyOf_append_of_forall notes fun told htold => Bool.eq_false_iff.mpr fun habout => ?_
  rcases hmove.mem_of_isAbout htold habout with hpooled | ⟨hpending, -⟩
  · exact (List.nodup_append'.mp horderly.nodup).2.2 hahead (horderly.pooled.subset hpooled)
  · exact (List.nodup_append'.mp (horderly.move hmove).nodup).2.2 hbatch hpending

/-- **Every move keeps the pool faithful.** -/
theorem pooled_move (h : run.Explained notes) (hmove : run.Move note failures next) :
    ∀ cycle, next.stage = .busy cycle →
      cycle.pool.Faithful next.setup.policy (notes ++ note.toList) := by
  have horderly := h.accounted.orderly
  intro after hafter
  cases hmove with
  | fire => simpa using h.pooled after hafter
  | @openCycle cycle hstage _ hcycle =>
    obtain rfl := Stage.busy.inj hafter
    refine ⟨fun batch hbatch => ?_, fun entry hentry => ?_, fun result hresult => ?_⟩
    · -- the story of the batch begins with the cycle
      have hmem : batch ∈ cycle.batches := hbatch
      have hahead : batch ∈ run.ahead := by
        rw [Run.ahead, hstage]
        exact (horderly.sound.batchesFrom_eq_append hcycle) ▸ List.mem_append_left _ hmem
      simp [storyOf_append, Note.isAbout, hmem, h.ahead batch hahead, Story.tell, Story.listed]
    · rw [CycleState.ofCycle, Pool.tried_ofBatches] at hentry
      simp at hentry
    · rw [CycleState.ofCycle, Pool.finished_ofBatches] at hresult
      simp at hresult
  | @pool cycle event pool signal hstage hpool =>
    obtain rfl := Stage.busy.inj hafter
    have hnodup := horderly.nodup_pooled
    rw [Run.pooled, hstage] at hnodup
    exact (Pool.shift_of_step? hpool).faithful hnodup (h.pooled cycle hstage)
  | @intake cycle result rest hstage hresults =>
    obtain rfl := Stage.busy.inj hafter
    have hbefore := (h.pooled cycle hstage).congr fun batch =>
      storyOf_append_outside batch notes (.settled result) rfl (by simp)
    refine ⟨hbefore.untried, hbefore.tried, fun other hother => hbefore.finished other ?_⟩
    exact (Pool.finished_eq_cons hresults).mem_iff.mpr (List.mem_cons_of_mem _ hother)
  | @deliver cycle position delivery result hstage _ _ =>
    obtain rfl := Stage.busy.inj hafter
    exact (h.pooled cycle hstage).congr fun batch =>
      storyOf_append_outside batch notes (.delivered delivery result) rfl (by simp)
  | closeCycle | cancelRest | conclude => simp at hafter

/-- A batch leaves the pool before its result only by being lost. -/
theorem missing_move (h : run.Explained notes) (hmove : run.Move note failures next) :
    ∀ batch ∈ next.pending, batch ∉ next.pooled →
      (storyOf batch (notes ++ note.toList)).fate next.setup.policy = .lost ∧
        (storyOf batch (notes ++ note.toList)).broke = true := by
  have horderly := h.accounted.orderly
  intro batch hpending hpooled
  cases hmove with
  | fire => simpa using h.missing batch hpending hpooled
  | openCycle =>
    simp only [Run.pooled, CycleState.ofCycle, Pool.batches_ofBatches] at hpooled
    exact absurd hpending hpooled
  | @pool cycle event pool signal hstage hpool =>
    have hshift := Pool.shift_of_step? hpool
    have hbefore : batch ∈ run.pending := by rwa [pending, hstage]
    -- the batch left the pool by this move, or had left it before
    by_cases hmem : batch ∈ cycle.pool.batches
    · exact hshift.fate_of_not_mem (h.pooled cycle hstage) hmem hpooled
    · rw [hshift.storyOf_of_not_mem hmem]
      exact h.missing batch hbefore (by rwa [Run.pooled, hstage])
  | @intake cycle result rest hstage hresults =>
    have hresult := horderly.mem_pending_of_results hstage hresults
    have hperm := horderly.pending_perm hresult
    have hnodup := hperm.nodup_iff.mp horderly.nodup.of_append_right
    simp only [pending, hstage] at hperm hnodup
    have hbefore : batch ∈ run.pending := by
      rw [pending, hstage]
      exact hperm.mem_iff.mpr (List.mem_cons_of_mem _ hpending)
    rw [Option.toList_some, storyOf_append_outside batch notes (.settled result) rfl (by simp)]
    -- had it been in the pool, it would be the batch of the result, which is taken out
    refine h.missing batch hbefore fun hpool => ?_
    rw [Run.pooled, hstage] at hpool
    rcases List.mem_cons.mp ((Pool.batches_eq_cons hresults).mem_iff.mp hpool) with rfl | hrest
    · exact (List.nodup_cons.mp hnodup).1 hpending
    · exact hpooled hrest
  | @deliver cycle position delivery result hstage _ _ =>
    rw [Option.toList_some,
      storyOf_append_outside batch notes (.delivered delivery result) rfl (by simp)]
    exact h.missing batch (by rwa [pending, hstage]) (by rwa [Run.pooled, hstage])
  | closeCycle | cancelRest | conclude => simp [pending] at hpending

/-- **What is handed on is what the client answered.** -/
theorem underway_move (h : run.Explained notes) (hmove : run.Move note failures next) :
    ∀ slot ∈ next.underway, ∃ batch ∈ next.setup.plan.batches, slot ∈ batch.slots ∧
      batch ∉ next.ahead ++ next.pending ∧ ∃ outcomes block,
        (storyOf batch (notes ++ note.toList)).fate next.setup.policy = .answered outcomes ∧
          Accounts.outcomeOf outcomes slot = .fetched block := by
  have horderly := h.accounted.orderly
  have hplaces := (horderly.places_move hmove).subset
  have hstory : ∀ batch, batch ∉ run.ahead ++ run.pending →
      storyOf batch (notes ++ note.toList) = storyOf batch notes := fun _ => h.storyOf_move hmove
  -- A delivery that was there before is about the same batch as before.
  have hold : ∀ slot ∈ run.underway, ∃ batch ∈ next.setup.plan.batches, slot ∈ batch.slots ∧
      batch ∉ next.ahead ++ next.pending ∧ ∃ outcomes block,
        (storyOf batch (notes ++ note.toList)).fate next.setup.policy = .answered outcomes ∧
          Accounts.outcomeOf outcomes slot = .fetched block := by
    intro slot hslot
    obtain ⟨batch, hbatch, hin, hnot, hfate⟩ := h.underway slot hslot
    rw [hmove.setup_eq]
    refine ⟨batch, hbatch, hin, fun hmem => hnot (hplaces hmem), ?_⟩
    rw [hstory batch hnot]
    exact hfate
  intro slot hslot
  cases hmove with
  | fire => exact hold slot hslot
  | openCycle => simp [Run.underway, deliveries, CycleState.ofCycle] at hslot
  | pool hstage => exact hold slot (by simpa [Run.underway, deliveries, hstage] using hslot)
  | @intake cycle result rest hstage hresults =>
    simp only [Run.underway, deliveries, List.flatMap_append,
      BatchResult.flatMap_slots_delivery?] at hslot
    rcases List.mem_append.mp hslot with hbefore | hnew
    · exact hold slot (by simpa [Run.underway, deliveries, hstage] using hbefore)
    · have hpending := horderly.mem_pending_of_results hstage hresults
      have hbatch := horderly.mem_batches (List.mem_append_right _ hpending)
      obtain ⟨entry, hentry, rfl⟩ := List.mem_map.mp hnew
      obtain ⟨hin, houtcome⟩ :=
        (BatchResult.mem_blocks (horderly.sound.nodup_slots_of_mem hbatch)).mp hentry
      have hexplains := (h.pooled cycle hstage).finished result (by
        rw [Pool.finished, hresults]
        exact List.mem_append_right _ List.mem_cons_self)
      refine ⟨result.batch, hbatch, hin, ?_, result.outcomes, entry.2, ?_, houtcome⟩
      · have hperm := (horderly.pending_perm hpending).append_left run.ahead
        have hnodup := (hperm.trans List.perm_middle).nodup_iff.mp horderly.nodup
        simp only [pending, Run.ahead, hstage] at hnodup ⊢
        exact (List.nodup_cons.mp hnodup).1
      · rw [Option.toList_some,
          storyOf_append_outside result.batch notes (.settled result) rfl (by simp)]
        exact hexplains.fate_of_fetched hin houtcome
  | @deliver cycle position delivery result hstage =>
    refine hold slot ?_
    obtain ⟨other, hother, hin⟩ := List.mem_flatMap.mp hslot
    rw [Run.underway, deliveries, hstage]
    exact List.mem_flatMap.mpr ⟨other, List.mem_of_mem_eraseIdx hother, hin⟩
  | closeCycle | cancelRest | conclude => simp [Run.underway, deliveries] at hslot

theorem silent_move (h : run.Explained notes) (hmove : run.Move note failures next) :
    ∀ slot ∈ next.unsettled, deliveryResult? (notes ++ note.toList) slot = none := by
  intro slot hslot
  have hperm := (h.accounted.settling hmove).unsettled
  have hnodup := hperm.nodup_iff.mp h.accounted.nodup.of_append_right
  rw [deliveryResult?_move hmove fun hkey => (List.nodup_append'.mp hnodup).2.2 hkey hslot]
  exact h.silent slot (hperm.mem_iff.mpr (List.mem_append_right _ hslot))

/-- **Every move keeps a run explained.** -/
theorem move (h : run.Explained notes) (hmove : run.Move note failures next) :
    next.Explained (notes ++ note.toList) where
  accounted := h.accounted.move hmove
  ahead := h.ahead_move hmove
  pooled := h.pooled_move hmove
  missing := h.missing_move hmove
  underway := h.underway_move hmove
  silent := h.silent_move hmove
  settled batch hbatch slot hslot hnot := by
    rw [hmove.setup_eq] at hbatch ⊢
    -- A slot is settled by this move or was settled before, and then its reason stays.
    by_cases hold : slot ∈ run.unsettled
    · refine h.settled_of_new hmove hbatch hslot ?_
      have hperm := (h.accounted.settling hmove).unsettled
      exact (List.mem_append.mp (hperm.mem_iff.mp hold)).resolve_right hnot
    · exact h.settled_of_old hmove hbatch hslot hold

end Explained

end Run

end Backfill
