import Backfill.Proofs.RunCourses
import Backfill.Proofs.RunEndings

/-!
# What a breakdown costs

A request that breaks down takes its worker with it, and the batch that the worker had.  Everything
else goes on: the other workers take the batches that wait, results that were handed over are read,
and the next cycle has all its workers again.  Only when the last worker of a cycle has broken down
are there batches that nobody takes any more, and these are lost as well when the cycle is closed.

## Main definitions

* `CycleState.Loses` — a batch is lost with its cycle.
* `Run.IsFinished` — a result has come in, or will.
* `Run.Cycling` — each batch of the open cycle has a result or is still pending.
* `Run.CostsNoMore` — what is lost with a cycle that is closed, and what is not.
* `Run.StartsAfresh` — a cycle has just been started, with all its workers.

## Main results

* `Run.finished_comes_in` — **a result of a worker is not lost.**
* `Run.Cycling.loses_iff` — **a batch is lost just when it has no result.**
* `Run.costsNoMore` — a breakdown costs its own batch and, if it takes the last worker, those that
  no worker had taken.
* `Run.breakdown_costs_its_batch` — the same for every cycle of every run, with what follows it.
-/

namespace Backfill

/-! ### Results are not lost -/

namespace Pool

variable {policy : RetryPolicy} {fired : Bool} {before after : Pool} {note : Option Note}

theorem Shift.finished_subset (h : Shift policy fired before after note) :
    before.finished ⊆ after.finished := by
  cases h with
  | still _ _ hfinished => exact hfinished.subset
  | taken _ _ _ hfinished => exact hfinished.subset
  | advanced _ _ _ _ hfinished => exact hfinished.subset
  | broken _ _ hfinished => exact hfinished.subset
  | dropped _ _ _ hfinished =>
    exact fun _ hold => hfinished.symm.subset (List.mem_cons_of_mem _ hold)
  | ended _ _ _ hfinished =>
    exact fun _ hold => hfinished.symm.subset (List.mem_cons_of_mem _ hold)

theorem finished_of_isOver {pool : Pool} (h : pool.isOver = true) : pool.finished = [] := by
  have hlength := congrArg List.length (batches_of_isOver h)
  simp only [batches, List.length_append, List.length_map] at hlength
  exact List.length_eq_zero_iff.mp (by omega)

end Pool

/-- A batch is lost with its cycle: its request broke down, or no worker has taken it. -/
def CycleState.Loses (cycle : CycleState) (notes : List Note) (batch : Batch) : Prop :=
  .broke batch ∈ notes ∨ batch ∈ cycle.pool.untried

namespace Run

variable {run next final closed : Run} {note : Option Note} {notes : List Note}
  {events : List Event} {failures : List (Nat × FailureReason)} {cycle : CycleState} {batch : Batch}

/-- A result has come in, or is still in the pool of the open cycle. -/
def IsFinished (run : Run) (notes : List Note) (result : BatchResult) : Prop :=
  result ∈ resultsIn notes ∨ ∃ cycle, run.stage = .busy cycle ∧ result ∈ cycle.pool.finished

/-- No move loses a result. -/
theorem IsFinished.move {result : BatchResult} (h : run.IsFinished notes result)
    (hmove : run.Move note failures next) : next.IsFinished (notes ++ note.toList) result := by
  rw [IsFinished, resultsIn_append, List.mem_append]
  -- A result that came in stays in the notes; one that is still in the pool can move on.
  rcases h with hin | ⟨cycle, hstage, hmem⟩
  · exact .inl (.inl hin)
  · cases hmove with
    | fire => exact .inr ⟨cycle, hstage, hmem⟩
    | openCycle hbetween | cancelRest hbetween | conclude hbetween => simp [hbetween] at hstage
    | pool hbusy hpool =>
      obtain rfl := Stage.busy.inj (hbusy.symm.trans hstage)
      exact .inr ⟨_, rfl, (Pool.shift_of_step? hpool).finished_subset hmem⟩
    | intake hbusy hresults =>
      obtain rfl := Stage.busy.inj (hbusy.symm.trans hstage)
      rcases List.mem_cons.mp ((Pool.finished_eq_cons hresults).mem_iff.mp hmem) with rfl | hrest
      · exact .inl (.inr (by simp [resultsIn, Note.result?]))
      · exact .inr ⟨_, rfl, hrest⟩
    | deliver hbusy =>
      obtain rfl := Stage.busy.inj (hbusy.symm.trans hstage)
      exact .inr ⟨_, rfl, hmem⟩
    | closeCycle hbusy hover =>
      obtain rfl := Stage.busy.inj (hbusy.symm.trans hstage)
      rw [CycleState.isOver, Bool.and_eq_true] at hover
      simp [Pool.finished_of_isOver hover.1] at hmem

/-- **A result of a worker comes in before the cycle is closed**, whatever happens to the other
workers. -/
theorem finished_comes_in (hstage : run.stage = .busy cycle) {result : BatchResult}
    (hfinished : result ∈ cycle.pool.finished) (hrun : run.execute events = some final) :
    final.IsFinished (run.notes events) result := by
  refine execute_induct (motive := fun now told => now.IsFinished told result) hrun
    (.inr ⟨cycle, hstage, hfinished⟩) fun hnow hstep => ?_
  obtain ⟨failures, hmove⟩ := move_of_step? hstep
  exact hnow.move hmove

/-! ### The open cycle -/

/-- The open cycle is the one that was started last, and each of its batches has a result or is
still pending. -/
def Cycling (run : Run) (notes : List Note) : Prop :=
  ∀ cycle, run.stage = .busy cycle → ∃ planned,
    run.setup.plan.cycle? (run.next - 1) = some planned ∧
      ∀ batch ∈ planned.batches, batch ∈ cycle.pending ∨ batch ∈ (resultsIn notes).map (·.batch)

/-- Every move keeps track of the open cycle. -/
theorem Cycling.move (h : run.Cycling notes) (horderly : run.Orderly)
    (hmove : run.Move note failures next) : next.Cycling (notes ++ note.toList) := by
  intro after hafter
  -- What had a result before has one, and what is pending still is, unless its result comes in.
  have hkept : ∀ {cycle : CycleState}, run.stage = .busy cycle → cycle.pending = after.pending →
      ∃ planned, run.setup.plan.cycle? (run.next - 1) = some planned ∧ ∀ batch ∈ planned.batches,
        batch ∈ after.pending ∨ batch ∈ (resultsIn (notes ++ note.toList)).map (·.batch) := by
    intro cycle hstage hpending
    obtain ⟨planned, hplanned, hbatches⟩ := h cycle hstage
    refine ⟨planned, hplanned, fun batch hbatch => ?_⟩
    rw [← hpending, resultsIn_append, List.map_append, List.mem_append]
    exact (hbatches batch hbatch).imp_right .inl
  cases hmove with
  | fire => exact hkept hafter rfl
  | openCycle _ _ hcycle =>
    obtain rfl := Stage.busy.inj hafter
    exact ⟨_, hcycle, fun batch hbatch => .inl hbatch⟩
  | pool hstage | deliver hstage =>
    obtain rfl := Stage.busy.inj hafter
    exact hkept hstage rfl
  | @intake cycle result rest hstage hresults =>
    obtain rfl := Stage.busy.inj hafter
    obtain ⟨planned, hplanned, hbatches⟩ := h cycle hstage
    have hperm := horderly.pending_perm (horderly.mem_pending_of_results hstage hresults)
    rw [pending, hstage] at hperm
    refine ⟨planned, hplanned, fun batch hbatch => ?_⟩
    rw [resultsIn_append, List.map_append, List.mem_append]
    rcases hbatches batch hbatch with hpending | hin
    · rcases List.mem_cons.mp (hperm.mem_iff.mp hpending) with rfl | hrest
      · exact .inr (.inr (by simp [resultsIn, Note.result?]))
      · exact .inl hrest
    · exact .inr (.inl hin)
  | closeCycle | cancelRest | conclude => simp at hafter

theorem cycling_of_execute {setup : RunSetup} (h : setup.plan.Sound) {telemetry : Telemetry}
    (hrun : (start setup telemetry).execute events = some run) :
    run.Cycling ((start setup telemetry).notes events) := by
  refine (execute_induct (motive := fun run notes => run.Orderly ∧ run.Cycling notes) hrun
    ⟨orderly_start h telemetry, fun cycle hstage => by simp [start] at hstage⟩
    fun ⟨horderly, hcycling⟩ hstep => ?_).2
  obtain ⟨failures, hmove⟩ := move_of_step? hstep
  exact ⟨horderly.move hmove, hcycling.move horderly hmove⟩

/-! ### The end of a cycle -/

theorem fate_of_loses (hexplained : run.Explained notes) (htraced : run.Traced notes)
    (hstage : run.stage = .busy cycle) (h : cycle.Loses notes batch) :
    (storyOf batch notes).fate run.setup.policy = .lost := by
  rcases h with hbroke | huntried
  · exact htraced.broke batch hbroke
  · rw [(hexplained.pooled cycle hstage).untried batch huntried]
    exact Story.fate_listed _

/-- **A batch of a cycle that is over is lost just when it has no result.** -/
theorem Cycling.loses_iff (hexplained : run.Explained notes) (hresulted : run.Resulted notes)
    (htraced : run.Traced notes) (hstage : run.stage = .busy cycle) (hover : cycle.isOver = true)
    (hbatch : batch ∈ cycle.pending ∨ batch ∈ (resultsIn notes).map (·.batch)) :
    cycle.Loses notes batch ↔ batch ∉ (resultsIn notes).map (·.batch) := by
  constructor
  · intro hloses hin
    obtain ⟨result, hresult, rfl⟩ := List.mem_map.mp hin
    have hexplains := hresulted.explains result hresult
    simp [Story.Explains, fate_of_loses hexplained htraced hstage hloses] at hexplains
  · intro hnot
    have hpending := hbatch.resolve_right hnot
    -- A batch left in a pool that is over was never tried, and any other one went with its worker.
    by_cases hpooled : batch ∈ cycle.pool.batches
    · rw [CycleState.isOver, Bool.and_eq_true] at hover
      exact .inr (Pool.batches_of_isOver hover.1 ▸ hpooled)
    · refine .inl (storyOf_broke.mp (hexplained.missing batch ?_ ?_).2)
      · rwa [pending, hstage]
      · rwa [pooled, hstage]

theorem Cycling.fate_eq_lost_iff (hexplained : run.Explained notes) (hresulted : run.Resulted notes)
    (htraced : run.Traced notes) (hstage : run.stage = .busy cycle) (hover : cycle.isOver = true)
    (hbatch : batch ∈ cycle.pending ∨ batch ∈ (resultsIn notes).map (·.batch)) :
    (storyOf batch notes).fate run.setup.policy = .lost ↔ cycle.Loses notes batch := by
  refine ⟨fun hlost => ?_, fate_of_loses hexplained htraced hstage⟩
  rw [loses_iff hexplained hresulted htraced hstage hover hbatch]
  intro hin
  obtain ⟨result, hresult, rfl⟩ := List.mem_map.mp hin
  have hexplains := hresulted.explains result hresult
  simp [Story.Explains, hlost] at hexplains

theorem Explained.not_broke_of_untried (h : run.Explained notes) (hstage : run.stage = .busy cycle)
    (huntried : batch ∈ cycle.pool.untried) : .broke batch ∉ notes := by
  intro hbroke
  have hknown := storyOf_broke.mpr hbroke
  rw [(h.pooled cycle hstage).untried batch huntried] at hknown
  simp [Story.listed, Story.blank] at hknown

theorem Staffed.loses_iff_broke (h : run.Staffed notes) (hstage : run.stage = .busy cycle)
    (hover : cycle.isOver = true) (hfew : cycle.pool.lostWorkers < max run.setup.workers 1) :
    cycle.Loses notes batch ↔ .broke batch ∈ notes := by
  refine or_iff_left fun huntried => ?_
  obtain ⟨planned, -, hstaffed⟩ := h.busy cycle hstage
  rw [CycleState.isOver, Bool.and_eq_true] at hover
  exact Nat.ne_of_lt hfew (hstaffed.lostWorkers_eq hover.1 huntried)

theorem isOver_of_closeCycle (hstage : run.stage = .busy cycle)
    (hclose : run.step? .closeCycle = some closed) :
    cycle.isOver = true ∧ closed.stage = .between ∧ closed.ahead = run.ahead := by
  simp only [step?, closeCycle?, hstage] at hclose
  split at hclose
  · next hover =>
    obtain rfl := Option.some.inj hclose
    exact ⟨hover, rfl, by simp only [ahead, hstage]⟩
  · simp at hclose

/-- When a cycle is closed, all its slots are settled. -/
theorem Delivered.not_mem_unsettled (h : run.Delivered notes) (hstage : run.stage = .busy cycle)
    (hclose : run.step? .closeCycle = some closed)
    (hbatch : batch ∈ cycle.pending ∨ batch ∈ (resultsIn notes).map (·.batch)) {slot : Nat}
    (hslot : slot ∈ batch.slots) : slot ∉ closed.unsettled := by
  obtain ⟨-, hbetween, hahead⟩ := isOver_of_closeCycle hstage hclose
  have hpending : run.pending = cycle.pending := by rw [pending, hstage]
  have horderly := h.accounted.orderly
  have hplan : batch ∈ run.setup.plan.batches := by
    rcases hbatch with hmem | hin
    · exact horderly.mem_batches (List.mem_append_right _ (hpending ▸ hmem))
    · exact h.results_subperm.subset hin
  have hnotAhead : batch ∉ run.ahead := fun hmem => by
    obtain ⟨-, hplaces, hdisjoint⟩ := List.nodup_append'.mp h.nodup_places
    rcases hbatch with hpend | hin
    · exact (List.nodup_append'.mp hplaces).2.2 hmem (hpending ▸ hpend)
    · exact hdisjoint hin (List.mem_append_left _ hmem)
  -- what is not settled between two cycles belongs to a batch that is ahead
  have hunsettled : closed.unsettled = run.ahead.flatMap (·.slots) := by
    simp [unsettled, underway, pending, Run.deliveries, hbetween, hahead]
  rw [hunsettled]
  intro hmem
  obtain ⟨other, hother, hin⟩ := List.mem_flatMap.mp hmem
  obtain rfl := horderly.sound.batch_eq_of_mem
    (horderly.mem_batches (List.mem_append_left _ hother)) hplan hin hslot
  exact hnotAhead hother

/-- What is lost with a cycle that is closed, and what is not. -/
structure CostsNoMore (closed : Run) (notes : List Note) (planned : Cycle) (cycle : CycleState) :
    Prop where
  /-- A batch is lost with its worker or because no worker took it, and not in both ways. -/
  apart : ∀ batch ∈ cycle.pool.untried, .broke batch ∉ notes
  /-- As long as a worker is left, just the batches are lost whose requests broke down. -/
  few : cycle.pool.lostWorkers < max closed.setup.workers 1 →
    ∀ batch, cycle.Loses notes batch ↔ .broke batch ∈ notes
  /-- No batch has two results. -/
  once : ((resultsIn notes).map (·.batch)).Nodup
  /-- Just the batches that are not lost have a result. -/
  kept : ∀ batch ∈ planned.batches,
    ¬cycle.Loses notes batch ↔ batch ∈ (resultsIn notes).map (·.batch)
  /-- Each result is what the story of its batch says, and settles the batch. -/
  own : ∀ result ∈ resultsIn notes,
    (storyOf result.batch notes).Explains closed.setup.policy result ∧
      closed.SettledAs notes result.batch result.outcomes
  settled : ∀ batch ∈ planned.batches, ∀ slot ∈ batch.slots, slot ∉ closed.unsettled
  /-- Just the slots of the batches that are lost are entered so, apart from what the client itself
  may have answered. -/
  lost : ∀ batch ∈ planned.batches, ∀ slot ∈ batch.slots,
    closed.accounts.ledger.reasonOf? slot = some .workerLost ↔ cycle.Loses notes batch ∨
      ∃ outcomes, .answered batch outcomes ∈ notes ∧
        Accounts.outcomeOf outcomes slot = .failed .workerLost

variable {setup : RunSetup} {asked : List Nat} {telemetry : Telemetry}

/-- When a cycle is closed, breakdowns have cost their own batches, and if they have taken the last
worker, those that no worker had taken. -/
theorem costsNoMore (hsound : setup.plan.Sound) {planned : Cycle}
    (h : (start setup telemetry).execute events = some run) (hstage : run.stage = .busy cycle)
    (hclose : run.step? .closeCycle = some closed)
    (hbatches : ∀ batch ∈ planned.batches, batch ∈ cycle.pending ∨
      batch ∈ (resultsIn ((start setup telemetry).notes events)).map (·.batch)) :
    closed.CostsNoMore ((start setup telemetry).notes events) planned cycle := by
  obtain ⟨hexplained, hstaffed⟩ := explained_of_execute hsound h
  have hdelivered := delivered_of_execute hsound h
  have hresulted := resulted_of_execute hsound h
  have htraced := traced_of_execute hsound h
  obtain ⟨hover, -, -⟩ := isOver_of_closeCycle hstage hclose
  -- closing the cycle adds nothing to the history
  obtain ⟨failures, hmove⟩ := move_of_step? hclose
  have hnotes : (start setup telemetry).notes events ++ (run.note? .closeCycle).toList =
      (start setup telemetry).notes events := List.append_nil _
  have hclosed := hnotes ▸ hexplained.move hmove
  have hclosedDelivered := hnotes ▸ hdelivered.move hmove
  have hclosedResulted := hnotes ▸ hresulted.move hexplained hdelivered hmove
  have hsettled : ∀ batch ∈ planned.batches, ∀ slot ∈ batch.slots, slot ∉ closed.unsettled :=
    fun batch hbatch slot => hdelivered.not_mem_unsettled hstage hclose (hbatches batch hbatch)
  refine ⟨fun batch => hexplained.not_broke_of_untried hstage, fun hfew batch => ?_,
    (List.nodup_append'.mp hdelivered.nodup_places).1, fun batch hbatch => ?_,
    fun result hresult => ⟨hclosedResulted.explains result hresult, ?_⟩, hsettled,
    fun batch hbatch slot hslot => ?_⟩
  · exact hstaffed.loses_iff_broke hstage hover (hmove.setup_eq ▸ hfew)
  · rw [Cycling.loses_iff hexplained hresulted htraced hstage hover (hbatches batch hbatch),
      Classical.not_not]
  · exact settledAs_of_mem_resultsIn hclosed hclosedDelivered hclosedResulted hresult
  · have hplan : batch ∈ closed.setup.plan.batches := by
      rw [hmove.setup_eq]
      rcases hbatches batch hbatch with hpending | hin
      · refine hexplained.accounted.orderly.mem_batches (List.mem_append_right _ ?_)
        rwa [pending, hstage]
      · exact hdelivered.results_subperm.subset hin
    rw [hclosed.settled batch hplan slot hslot (hsettled batch hbatch slot hslot),
      reasonFor_eq_some_iff (.inr ⟨rfl, rfl⟩), hmove.setup_eq,
      Cycling.fate_eq_lost_iff hexplained hresulted htraced hstage hover (hbatches batch hbatch)]
    simp only [htraced.answer_eq_some]

/-! ### What follows a cycle -/

/-- The last cycle has just been started: all its workers are there and wait, and none of its
batches is under way. -/
def StartsAfresh (run : Run) : Prop :=
  ∃ planned cycle, run.setup.plan.cycle? (run.next - 1) = some planned ∧
    run.stage = .busy cycle ∧ cycle.pending = planned.batches ∧ cycle.deliveries = [] ∧
    cycle.pool.workers = List.replicate (max run.setup.workers 1) .idle ∧
    cycle.pool.unsent = planned.batches ∧ cycle.pool.queue = [] ∧ cycle.pool.results = []

theorem startsAfresh (h : run.step? .openCycle = some next) : next.StartsAfresh := by
  simp only [step?, openCycle?] at h
  split at h
  · next planned _ _ hplanned =>
    obtain rfl := Option.some.inj h
    exact ⟨planned, _, hplanned, rfl, rfl, rfl, rfl, rfl, rfl, rfl⟩
  · simp at h

/-- Between two cycles, the course of a run is how far it has come, and whether the token has
fired. -/
theorem course_eq_of_between {run' : Run} (hsetup : run.setup = run'.setup)
    (hstage : run.stage = .between) (hstage' : run'.stage = .between) (hnext : run.next = run'.next)
    (hfired : run.fired = run'.fired) : run.course = run'.course := by
  simp only [course, hsetup, hstage, hstage', hnext, hfired]

/-- **A breakdown costs only its own batch.**  When a cycle of a run is closed, wherever in the
interleaving of its parties requests have broken down:

* The batches that are lost are those whose requests broke down, and those that no worker had
  taken; of the latter there are none as long as a worker of the cycle is left.  Just their slots
  are entered as lost, each other batch is settled by its own result, and later moves change none
  of these entries.
* A result that a worker once had comes in, also if all workers have broken down since then.
* The following cycles start with all their workers, and go on as they can in any other run that
  has come as far, such as one in which nothing has broken down: with the same history, and with
  the same end for every slot that is ahead. -/
theorem breakdown_costs_its_batch (hasks : setup.Asks asked)
    (h : (start setup telemetry).execute events = some run) (hstage : run.stage = .busy cycle)
    (hclose : run.step? .closeCycle = some closed) :
    let notes := (start setup telemetry).notes events
    ∃ planned, setup.plan.cycle? (run.next - 1) = some planned ∧
      closed.CostsNoMore notes planned cycle ∧
      (∀ before between middle earlier, events = before ++ between →
        (start setup telemetry).execute before = some middle → middle.stage = .busy earlier →
          ∀ result ∈ earlier.pool.finished, result ∈ resultsIn notes) ∧
      (∀ more final, closed.execute more = some final →
        (∀ batch ∈ planned.batches, ∀ slot ∈ batch.slots,
          final.accounts.ledger.reasonOf? slot = closed.accounts.ledger.reasonOf? slot) ∧
        ∀ next, final.step? .openCycle = some next → next.StartsAfresh) ∧
      ∀ telemetry' events' other, (start setup telemetry').execute events' = some other →
        other.stage = .between → other.next = closed.next → other.fired = closed.fired →
          closed.GoesOnAs other := by
  intro notes
  obtain ⟨planned, hplanned, hbatches⟩ := cycling_of_execute hasks.sound h cycle hstage
  have hcosts := costsNoMore hasks.sound h hstage hclose hbatches
  obtain ⟨hover, hbetween, -⟩ := isOver_of_closeCycle hstage hclose
  have hclosed : (start setup telemetry).execute (events ++ [.closeCycle]) = some closed := by
    rw [execute_append, h, Option.bind_some, execute_cons, hclose]
    rfl
  obtain ⟨hexplained, -⟩ := explained_of_execute hasks.sound hclosed
  refine ⟨planned, setup_of_execute h ▸ hplanned, hcosts,
    fun before between middle earlier hevents hbefore hearlier result hresult => ?_,
    fun more final hmore => ⟨fun batch hbatch slot hslot => ?_, fun next => startsAfresh⟩,
    fun telemetry' events' other hother hstage' hnext hfired => ?_⟩
  · subst hevents
    rw [execute_append, hbefore, Option.bind_some] at h
    have hhistory := @notes_append (start setup telemetry) middle before between hbefore
    rw [show notes = _ from hhistory, resultsIn_append, List.mem_append]
    rcases finished_comes_in hearlier hresult h with hin | ⟨last, hlast, hmem⟩
    · exact .inr hin
    · -- the pool of a cycle that is over has no result
      obtain rfl := Stage.busy.inj (hlast.symm.trans hstage)
      rw [CycleState.isOver, Bool.and_eq_true] at hover
      simp [Pool.finished_of_isOver hover.1] at hmem
  · exact (hexplained.accounted.kept_of_execute hmore (hcosts.settled batch hbatch slot hslot)).2
  · have hcourse := course_eq_of_between
      ((setup_of_execute hclosed).trans (setup_of_execute hother).symm) hbetween hstage' hnext.symm
      hfired.symm
    exact ends_alike hcourse hexplained (explained_of_execute hasks.sound hother).1

/-- Three batches of a cycle of two workers.  The first worker breaks down with the first batch, and
the second one tries the other two; another run fetches all of them and goes on alike. -/
theorem breakdown_costs_its_batch_of_three :
    let settings : Settings := { (default : Settings) with batchesPerCycle := 3, workers := 2 }
    let setup := RunSetup.ofRange settings true ⟨5, 8⟩ 0
    let block : Json := .obj [("transactions", .arr [.null])]
    let fetches (worker slot : Nat) : List Event :=
      [.pool (.attempt worker (.finish (.ok [(slot, .fetched block)]))), .pool (.report worker),
        .intake, .deliver 0 (.ok ())]
    let opening : List Event :=
      [.openCycle, .pool .enqueue, .pool (.take 0), .pool (.attempt 0 .start), .pool .enqueue,
        .pool (.take 1), .pool (.attempt 1 .start), .pool .enqueue]
    let ending : List Event :=
      fetches 1 6 ++ [.pool (.take 1), .pool (.attempt 1 .start)] ++ fetches 1 7 ++
        [.pool (.leave 1)]
    let events := opening ++ .pool (.breakDown 0) :: ending
    let calm := opening ++ fetches 0 5 ++ ending ++ [.pool (.leave 0), .closeCycle]
    let cycle : CycleState := ⟨⟨1, [], [], [.lost, .left], []⟩, [⟨0, [5]⟩], []⟩
    setup.Asks [5, 6, 7, 8] ∧ ∃ run closed other planned,
      (start setup .zero).execute events = some run ∧ run.stage = .busy cycle ∧
        run.step? .closeCycle = some closed ∧
        closed.CostsNoMore ((start setup .zero).notes events) planned cycle ∧
        closed.accounts.ledger = ⟨[⟨5, 5, .workerLost⟩]⟩ ∧ closed.accounts.succeeded = 2 ∧
        (start setup .zero).execute calm = some other ∧ other.accounts.succeeded = 3 ∧
        closed.GoesOnAs other := by
  intro settings setup block fetches opening ending events calm cycle
  have hasks : setup.Asks [5, 6, 7, 8] :=
    @RunSetup.Asks.overRange 5 8 ⟨5, 8⟩ settings true 0 (by decide) rfl
  obtain ⟨run, hrun⟩ : ∃ run, (start setup .zero).execute events = some run :=
    Option.isSome_iff_exists.mp (by decide)
  have hbusy : ((start setup .zero).execute events).map (·.stage) = some (.busy cycle) := by decide
  have hend : (((start setup .zero).execute events).bind (·.closeCycle?)).map (fun closed =>
      (closed.next, closed.fired, closed.accounts.ledger, closed.accounts.succeeded)) =
        some (1, false, ⟨[⟨5, 5, .workerLost⟩]⟩, 2) := by decide
  have hcalm : ((start setup .zero).execute calm).map (fun other =>
      (other.stage, other.next, other.fired, other.accounts.succeeded)) =
        some (.between, 1, false, 3) := by decide
  rw [hrun] at hbusy hend
  -- The first worker breaks down with slot 5; the second one fetches the other two batches.
  obtain ⟨closed, hclose, hclosed⟩ := Option.map_eq_some_iff.mp hend
  obtain ⟨other, hother, hcame⟩ := Option.map_eq_some_iff.mp hcalm
  simp only [Prod.mk.injEq] at hclosed hcame
  obtain ⟨hnext, hfired, hledger, hsucceeded⟩ := hclosed
  obtain ⟨hstage', hnext', hfired', hsucceeded'⟩ := hcame
  have hstage := Option.some.inj hbusy
  obtain ⟨planned, -, hcosts, -, -, hothers⟩ := breakdown_costs_its_batch hasks hrun hstage hclose
  exact ⟨hasks, run, closed, other, planned, hrun, hstage, hclose, hcosts, hledger, hsucceeded,
    hother, hsucceeded', hothers .zero calm other hother hstage' (hnext'.trans hnext.symm)
      (hfired'.trans hfired.symm)⟩

end Run

end Backfill
