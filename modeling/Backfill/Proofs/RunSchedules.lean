import Backfill.Proofs.RunCounters
import Backfill.Proofs.RunSteady

/-!
# The schedule does not matter

Workers take batches in any order, results and deliveries come in in any order, and queues of any
size stand in between.  None of this can be seen in the report of a run that is left alone: the
story of every batch is determined by the provider, the deliveries by the stories, and the ledger
has one way only to write down the reasons of its slots.

## Main definitions

* `RunOutcome.Agrees` — two outcomes tell the same.

## Main results

* `Run.Undisturbed.forwarded_eq`, `Run.Undisturbed.gain_eq` — totals and counters, in terms of
  what was handed on and of the stories.
* `Run.schedule_irrelevant` — **two runs of one plan that are left alone lead to the same**, and
  raise the counters alike.
-/

namespace Backfill

/-- Whether an outcome tells that the provider cannot be reached. -/
def RunOutcome.isUnreachable : RunOutcome → Bool
  | .complete _ => false
  | .unreachable _ => true

/-- Two outcomes are of one kind and tell the same totals and the same spans. -/
structure RunOutcome.Agrees (outcome other : RunOutcome) : Prop where
  isUnreachable : outcome.isUnreachable = other.isUnreachable
  succeeded : outcome.report.succeeded = other.report.succeeded
  forwarded : outcome.report.forwarded = other.report.forwarded
  skipped : outcome.report.skipped = other.report.skipped
  ledger : outcome.report.ledger = other.report.ledger

/-- The same run with other workers and other queues. -/
def RunSetup.staffed (setup : RunSetup) (workers queueCapacity : Nat) : RunSetup :=
  { setup with workers := workers, queueCapacity := queueCapacity }

/-- The records that somebody has taken when a delivery is over. -/
def Delivery.taken (delivery : Delivery) : Except DispatchError Unit → List DispatchRecord
  | .ok () => delivery.records
  | .error _ => []

/-- What was taken is determined by the deliveries, if the sink decides how they end. -/
theorem flatMap_taken {sink : SinkRule} {notes : List Note}
    (h : ∀ delivery result, .delivered delivery result ∈ notes → result = delivery.endBy sink) :
    notes.flatMap Note.taken =
      (deliveriesOver notes).flatMap fun delivery => delivery.taken (delivery.endBy sink) := by
  induction notes with
  | nil => rfl
  | cons note rest ih =>
    have hrest := ih fun delivery result hmem => h delivery result (List.mem_cons_of_mem _ hmem)
    cases note with
    -- How a delivery ended follows from what it carries.
    | delivered delivery result =>
      have hresult := h delivery result List.mem_cons_self
      have hover : deliveriesOver (.delivered delivery result :: rest) =
          delivery :: deliveriesOver rest := rfl
      rw [List.flatMap_cons, hrest, hover, List.flatMap_cons, ← hresult]
      cases result <;> rfl
    | _ => exact hrest

/-- So are the transactions that were counted. -/
theorem sum_transactions {sink : SinkRule} {notes : List Note}
    (h : ∀ delivery result, .delivered delivery result ∈ notes → result = delivery.endBy sink) :
    (notes.map Note.transactions).sum = ((deliveriesOver notes).map fun delivery =>
      delivery.transactions (delivery.endBy sink)).sum := by
  induction notes with
  | nil => rfl
  | cons note rest ih =>
    have hrest := ih fun delivery result hmem => h delivery result (List.mem_cons_of_mem _ hmem)
    cases note with
    -- How a delivery ended follows from what it carries.
    | delivered delivery result =>
      have hresult := h delivery result List.mem_cons_self
      have hover : deliveriesOver (.delivered delivery result :: rest) =
          delivery :: deliveriesOver rest := rfl
      rw [List.map_cons, List.sum_cons, hrest, hover, List.map_cons, List.sum_cons, ← hresult]
      rfl
    | _ => exact (List.sum_cons.trans (Nat.zero_add _)).trans hrest

namespace Run

variable {run : Run} {setup : RunSetup} {asked : List Nat} {provider : ProviderRule}
  {sink : SinkRule} {telemetry : Telemetry} {events : List Event}

theorem Move.fired_of_over {next : Run} {note : Option Note}
    {failures : List (Nat × FailureReason)} (h : run.Move note failures next)
    (hstage : next.stage = .over true) : next.fired = true := by
  cases h with
  | fire => rfl
  | cancelRest _ hfired => exact hfired
  | conclude => exact Stage.over.inj hstage
  | _ => simp at hstage

theorem fired_of_cancelled (hrun : (start setup telemetry).execute events = some run) :
    run.stage = .over true → run.fired = true := by
  refine execute_induct (motive := fun run _ => run.stage = .over true → run.fired = true) hrun
    (fun hstart => by simp [start] at hstart) fun _ hstep => ?_
  obtain ⟨failures, hmove⟩ := move_of_step? hstep
  exact hmove.fired_of_over

namespace Undisturbed

/-! ### What a run that is left alone comes to -/

/-- **What was forwarded is what the stories call for.** -/
theorem forwarded_eq (h : Undisturbed provider sink setup telemetry events run)
    (hsound : setup.plan.Sound) {cancelled : Bool} (hstage : run.stage = .over cancelled) :
    let notes := (start setup telemetry).notes events
    run.accounts.forwarded = ((setup.plan.batches.filterMap fun batch =>
      ((storyOf batch notes).result setup.policy batch).delivery? setup).flatMap fun delivery =>
        delivery.taken (delivery.endBy sink)).length := by
  intro notes
  have hends := fun delivery result => @endBy_of_mem run provider sink setup telemetry events h
    hsound delivery result
  rw [(delivered_of_execute hsound h.execute).forwarded, flatMap_taken hends]
  exact ((h.deliveries_perm hsound hstage).flatMap_right _).length_eq

/-- **The counters are raised by what the stories call for.** -/
theorem gain_eq (h : Undisturbed provider sink setup telemetry events run)
    (hsound : setup.plan.Sound) {cancelled : Bool} (hstage : run.stage = .over cancelled) :
    let notes := (start setup telemetry).notes events
    run.gain notes =
      { attempts := total Story.requests setup.plan.batches notes
        retries := total (Story.retries setup.policy) setup.plan.batches notes
        batches := setup.plan.batches.length
        successes := run.accounts.succeeded
        failures := run.accounts.ledger.slots.length
        transactions := ((setup.plan.batches.filterMap fun batch =>
          ((storyOf batch notes).result setup.policy batch).delivery? setup).map fun delivery =>
            delivery.transactions (delivery.endBy sink)).sum } := by
  intro notes
  have hends := fun delivery result => @endBy_of_mem run provider sink setup telemetry events h
    hsound delivery result
  have hbatches := (h.results_perm hsound hstage).length_eq
  -- Every batch has come in once, so sums over the results are sums over the plan.
  have hdeliveries := ((h.deliveries_perm hsound hstage).map fun delivery =>
    delivery.transactions (delivery.endBy sink)).sum_nat
  have haccounted := accounted_of_execute hsound h.execute
  rw [List.length_map] at hbatches
  obtain rfl := setup_of_execute h.execute
  rw [gain, hbatches, haccounted.failed, sum_transactions hends, hdeliveries]

theorem succeeded_eq (h : Undisturbed provider sink setup telemetry events run)
    (hsound : setup.plan.Sound) {cancelled : Bool} (hstage : run.stage = .over cancelled) :
    run.accounts.succeeded =
      setup.plan.source.slots.length - run.accounts.ledger.slots.length := by
  have haccounted := accounted_of_execute hsound h.execute
  have hlength := haccounted.partition.length_eq
  rw [unsettled_of_over hstage, List.append_nil, List.length_append, ← haccounted.succeeded]
    at hlength
  obtain rfl := setup_of_execute h.execute
  omega

theorem skipped_eq (h : Undisturbed provider sink setup telemetry events run)
    (hsound : setup.plan.Sound) :
    run.accounts.skipped =
      (if setup.hasSink then run.accounts.succeeded else 0) - run.accounts.forwarded := by
  have hhandedOn := (accounted_of_execute hsound h.execute).handedOn
  obtain rfl := setup_of_execute h.execute
  omega

theorem not_cancelled (h : Undisturbed provider sink setup telemetry events run) {cancelled : Bool}
    (hstage : run.stage = .over cancelled) : cancelled = false := by
  cases cancelled with
  | false => rfl
  | true => exact absurd (fired_of_cancelled h.execute hstage) (by simp [h.fired])

theorem reasonOf?_eq_none (h : Undisturbed provider sink setup telemetry events run)
    (hsound : setup.plan.Sound) {slot : Nat} (hslot : slot ∉ setup.plan.source.slots) :
    run.accounts.ledger.reasonOf? slot = none := by
  have haccounted := accounted_of_execute hsound h.execute
  obtain rfl := setup_of_execute h.execute
  refine Ledger.not_mem_slots.mp fun hmem => hslot (haccounted.partition.mem_iff.mp ?_)
  exact List.mem_append_left _ (List.mem_append_right _ hmem)

end Undisturbed

/-! ### Two runs -/

theorem isUnreachable_eq {elapsed : Elapsed} {outcome : RunOutcome} {cancelled : Bool}
    (hstage : run.stage = .over cancelled) (h : run.outcome? elapsed = some outcome) :
    outcome.isUnreachable = (!cancelled && decide (0 < run.setup.run.requested) &&
        decide (run.accounts.succeeded = 0) &&
        decide (run.accounts.exhausted = run.setup.run.requested)) ∧
      outcome.report.stats = run.accounts.telemetry.stats := by
  simp only [outcome?, report?, hstage, Option.map_some, Option.some.injEq] at h
  rw [← h]
  split
  · next hshows => exact ⟨hshows.symm, rfl⟩
  · next hshows => exact ⟨(Bool.eq_false_iff.mpr hshows).symm, rfl⟩

/-- **Two runs that are left alone tell the same if they forward as many records and have the same
reasons for the same slots.** -/
theorem Undisturbed.agrees {other : RunSetup} {provider' : ProviderRule} {sink' : SinkRule}
    {telemetry' : Telemetry} {events' : List Event} {run' : Run}
    (h : Undisturbed provider sink setup telemetry events run)
    (h' : Undisturbed provider' sink' other telemetry' events' run')
    (hsound : setup.plan.Sound) (hsound' : other.plan.Sound)
    (hrequested : setup.run.requested = other.run.requested)
    (hslots : setup.plan.source.slots.Perm other.plan.source.slots)
    (hsink : setup.hasSink = other.hasSink)
    (hforwarded : run.accounts.forwarded = run'.accounts.forwarded)
    (hreasons : ∀ slot ∈ setup.plan.source.slots,
      run.accounts.ledger.reasonOf? slot = run'.accounts.ledger.reasonOf? slot)
    {elapsed elapsed' : Elapsed} {outcome outcome' : RunOutcome}
    (houtcome : run.outcome? elapsed = some outcome)
    (houtcome' : run'.outcome? elapsed' = some outcome') :
    outcome.Agrees outcome' ∧ run.accounts.succeeded = run'.accounts.succeeded ∧
      run.accounts.ledger = run'.accounts.ledger := by
  have hresulted := resulted_of_execute hsound h.execute
  have hresulted' := resulted_of_execute hsound' h'.execute
  obtain ⟨⟨cancelled, hstage⟩, -, hsucceededTold, hforwardedTold, hskippedTold, hledgerTold⟩ :=
    outcome?_eq_some houtcome
  obtain ⟨⟨cancelled', hstage'⟩, -, hsucceededTold', hforwardedTold', hskippedTold',
    hledgerTold'⟩ := outcome?_eq_some houtcome'
  -- one ledger, since merged spans are determined by their reasons
  have hledger : run.accounts.ledger = run'.accounts.ledger := by
    refine hresulted.merged.eq_of_reasonOf? hresulted'.merged fun slot => ?_
    by_cases hslot : slot ∈ setup.plan.source.slots
    · exact hreasons slot hslot
    · rw [h.reasonOf?_eq_none hsound hslot,
        h'.reasonOf?_eq_none hsound' fun hother => hslot (hslots.mem_iff.mpr hother)]
  -- the totals follow
  have hsucceeded : run.accounts.succeeded = run'.accounts.succeeded := by
    rw [h.succeeded_eq hsound hstage, h'.succeeded_eq hsound' hstage', hledger, hslots.length_eq]
  have hskipped : run.accounts.skipped = run'.accounts.skipped := by
    rw [h.skipped_eq hsound, h'.skipped_eq hsound', hsink, hsucceeded, hforwarded]
  have hexhausted : run.accounts.exhausted = run'.accounts.exhausted := by
    rw [hresulted.exhausted, hresulted'.exhausted, hledger]
  obtain rfl := h.not_cancelled hstage
  obtain rfl := h'.not_cancelled hstage'
  refine ⟨⟨?_, ?_, ?_, ?_, ?_⟩, hsucceeded, hledger⟩
  · rw [(isUnreachable_eq hstage houtcome).1, (isUnreachable_eq hstage' houtcome').1,
      setup_of_execute h.execute, setup_of_execute h'.execute, hrequested, hsucceeded, hexhausted]
  · rw [hsucceededTold, hsucceededTold', hsucceeded]
  · rw [hforwardedTold, hforwardedTold', hforwarded]
  · rw [hskippedTold, hskippedTold', hskipped]
  · rw [hledgerTold, hledgerTold', hledger]

/-- Where two runs talk to one provider, the stories of their batches are the same. -/
theorem Undisturbed.stories_eq {workers workers' queueCapacity queueCapacity' : Nat}
    {telemetry' : Telemetry} {events' : List Event} {run' : Run}
    (h : Undisturbed provider sink (setup.staffed workers queueCapacity) telemetry events run)
    (h' : Undisturbed provider sink (setup.staffed workers' queueCapacity') telemetry' events' run')
    (hsound : setup.plan.Sound) {cancelled cancelled' : Bool}
    (hstage : run.stage = .over cancelled) (hstage' : run'.stage = .over cancelled') :
    let notes := (start (setup.staffed workers queueCapacity) telemetry).notes events
    let notes' := (start (setup.staffed workers' queueCapacity') telemetry').notes events'
    ∀ batch ∈ setup.plan.batches,
      (storyOf batch notes).result setup.policy batch =
          (storyOf batch notes').result setup.policy batch ∧
        (storyOf batch notes).requests = (storyOf batch notes').requests ∧
        (storyOf batch notes).retries setup.policy =
          (storyOf batch notes').retries setup.policy := by
  intro notes notes' batch hbatch
  have hkeeps : (storyOf batch notes).KeepsTo setup.policy _ := h.keepsTo hsound batch
  have hkeeps' : (storyOf batch notes').KeepsTo setup.policy _ := h'.keepsTo hsound batch
  have hended : (storyOf batch notes).Ended setup.policy := (h.ended hsound hstage hbatch).1
  have hended' : (storyOf batch notes').Ended setup.policy := (h'.ended hsound hstage' hbatch).1
  -- Both stories follow the provider's answers to one batch, and both have ended.
  obtain ⟨hrefusals, -, hrequests⟩ := hkeeps.agree hkeeps' hended hended'
  refine ⟨hkeeps.result_eq hkeeps' hended hended' batch, hrequests, ?_⟩
  rw [Story.retries, Story.retries, hrefusals]

/-- **The schedule does not matter.**  Two runs of one plan, with any numbers of workers and queues
of any size, whose events follow each other in any order, lead to the same if they are left alone
and talk to the same provider and the same sink; and they raise all counters alike. -/
theorem schedule_irrelevant (hasks : setup.Asks asked)
    {workers workers' queueCapacity queueCapacity' : Nat} {telemetry' : Telemetry}
    {events' : List Event} {run' : Run} {elapsed elapsed' : Elapsed} {outcome outcome' : RunOutcome}
    (h : Undisturbed provider sink (setup.staffed workers queueCapacity) telemetry events run)
    (h' : Undisturbed provider sink (setup.staffed workers' queueCapacity') telemetry' events' run')
    (houtcome : run.outcome? elapsed = some outcome)
    (houtcome' : run'.outcome? elapsed' = some outcome') :
    outcome.Agrees outcome' ∧ ∃ gain : Stats,
      telemetry.stats.Raised gain outcome.report.stats ∧
      telemetry'.stats.Raised gain outcome'.report.stats := by
  have hsound : (setup.staffed workers queueCapacity).plan.Sound := hasks.sound
  have hsound' : (setup.staffed workers' queueCapacity').plan.Sound := hasks.sound
  obtain ⟨⟨cancelled, hstage⟩, -⟩ := outcome?_eq_some houtcome
  obtain ⟨⟨cancelled', hstage'⟩, -⟩ := outcome?_eq_some houtcome'
  have hstories := h.stories_eq h' hasks.sound hstage hstage'
  -- one list of deliveries for both runs
  have hdeliveries := @List.filterMap_congr _ _ _ _ setup.plan.batches fun batch hbatch =>
    congrArg (BatchResult.delivery? setup) (hstories batch hbatch).1
  have hforwarded : run.accounts.forwarded = run'.accounts.forwarded := by
    rw [h.forwarded_eq hsound hstage, h'.forwarded_eq hsound' hstage']
    exact congrArg (fun list => (List.flatMap _ list).length) hdeliveries
  have hreasons : ∀ slot ∈ setup.plan.source.slots,
      run.accounts.ledger.reasonOf? slot = run'.accounts.ledger.reasonOf? slot := by
    intro slot hslot
    obtain ⟨batch, hbatch, hin⟩ := hasks.sound.mem_slots.mp hslot
    rw [h.reasonOf?_eq hsound hstage hbatch hin, h'.reasonOf?_eq hsound' hstage' hbatch hin]
    exact congrArg (fun result => result.reason? setup sink slot) (hstories batch hbatch).1
  obtain ⟨hagrees, hsucceeded, hledger⟩ := h.agrees h' hsound hsound' rfl (.refl _) rfl hforwarded
    hreasons houtcome houtcome'
  have hgain : run.gain ((start (setup.staffed workers queueCapacity) telemetry).notes events) =
      run'.gain ((start (setup.staffed workers' queueCapacity') telemetry').notes events') := by
    rw [h.gain_eq hsound hstage, h'.gain_eq hsound' hstage', hsucceeded, hledger]
    have hrequests := total_congr fun batch hbatch => (hstories batch hbatch).2.1
    have hretries := total_congr fun batch hbatch => (hstories batch hbatch).2.2
    refine Stats.mk.injEq .. ▸ ⟨hrequests, hretries, rfl, rfl, rfl, ?_⟩
    exact congrArg (fun list => (List.map _ list).sum) hdeliveries
  have hraised := raised_of_execute hsound h.execute
  have hraised' := raised_of_execute hsound' h'.execute
  rw [← (isUnreachable_eq hstage houtcome).2] at hraised
  rw [← (isUnreachable_eq hstage' houtcome').2, ← hgain] at hraised'
  exact ⟨hagrees, _, hraised, hraised'⟩

/-- Two batches, of which the second one is refused once: tried by one worker that takes them in
turn, and by two workers of which the second one is faster. -/
theorem schedule_irrelevant_one_or_two_workers :
    let settings : Settings :=
      { (default : Settings) with batchesPerCycle := 2, retryAttempts := 1 }
    let setup := RunSetup.ofRange settings true ⟨5, 6⟩ 0
    let block : Json := .obj [("transactions", .arr [.null])]
    let late : TransportError := .withoutStatus .timeout "late"
    let provider : ProviderRule := fun slots n =>
      if slots = [5] then .ok [(5, .failed .notFound)]
      else if n = 1 then .error late else .ok [(6, .fetched block)]
    let sink : SinkRule := fun _ => .ok ()
    let events : List Event :=
      [.openCycle, .pool .enqueue, .pool (.take 0), .pool (.attempt 0 .start),
        .pool (.attempt 0 (.finish (.ok [(5, .failed .notFound)]))), .pool (.report 0), .intake,
        .pool .enqueue, .pool (.take 0), .pool (.attempt 0 .start),
        .pool (.attempt 0 (.finish (.error late))), .pool (.attempt 0 .start),
        .pool (.attempt 0 (.finish (.ok [(6, .fetched block)]))), .pool (.report 0), .intake,
        .deliver 0 (.ok ()), .pool (.leave 0), .closeCycle, .conclude]
    let events' : List Event :=
      [.openCycle, .pool .enqueue, .pool .enqueue, .pool (.take 0), .pool (.take 1),
        .pool (.attempt 1 .start), .pool (.attempt 1 (.finish (.error late))),
        .pool (.attempt 0 .start), .pool (.attempt 1 .start),
        .pool (.attempt 1 (.finish (.ok [(6, .fetched block)]))), .pool (.report 1), .intake,
        .pool (.attempt 0 (.finish (.ok [(5, .failed .notFound)]))), .pool (.report 0), .intake,
        .pool (.leave 1), .pool (.leave 0), .deliver 0 (.ok ()), .closeCycle, .conclude]
    setup.Asks [5, 6] ∧
      ∃ run run', Undisturbed provider sink (setup.staffed 1 1) .zero events run ∧
        Undisturbed provider sink (setup.staffed 2 2) .zero events' run' ∧
        ∃ outcome outcome', run.outcome? ⟨0⟩ = some outcome ∧ run'.outcome? ⟨0⟩ = some outcome' ∧
          outcome.Agrees outcome' ∧ ∃ gain : Stats,
            Stats.zero.Raised gain outcome.report.stats ∧
            Stats.zero.Raised gain outcome'.report.stats := by
  intro settings setup block late provider sink events events'
  have hasks : setup.Asks [5, 6] :=
    @RunSetup.Asks.overRange 5 6 ⟨5, 6⟩ settings true 0 (by decide) rfl
  obtain ⟨run, outcome, h, houtcome⟩ := @exists_undisturbed provider sink (setup.staffed 1 1) .zero
    events ⟨0⟩ (by decide) (by decide)
  obtain ⟨run', outcome', h', houtcome'⟩ := @exists_undisturbed provider sink (setup.staffed 2 2)
    .zero events' ⟨0⟩ (by decide) (by decide)
  exact ⟨hasks, run, run', h, h', outcome, outcome', houtcome, houtcome',
    schedule_irrelevant hasks h h' houtcome houtcome'⟩

end Run

end Backfill
