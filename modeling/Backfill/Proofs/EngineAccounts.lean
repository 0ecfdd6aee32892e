import Backfill.Proofs.RunMetrics

/-!
# The accounts of an engine agree

What an engine has done is kept in many places: the totals of a report, its ledger with the counts
by reason, the counters of the engine, the metrics of the program, and the history, which is what
really happened.  They are raised at different moments by different parties, and nobody ever
compares them.  After every run they agree all the same.

The counters of the engine and the metrics go on from run to run.  As long as all the slots that
were asked for can be counted in a word, the counters of slots and batches do not go round; the
counters of requests and transactions, which no number of slots bounds, are raised up to going
round.

## Main definitions

* `Telemetry.AfterRuns` — the telemetry of an engine that has completed some runs.
* `Run.Agrees` — all accounts of a run agree.

## Main results

* `Run.Delivered.length_resultsIn_le` — no more batches are settled than there are slots.
* `Run.agrees_of_outcome` — the accounts of one run agree, as long as no counter goes round.
* `Telemetry.AfterRuns.bounded` — the slots that were asked for bound the counters.
* `Run.accounts_agree` — **after every run of an engine, all accounts agree.**
-/

namespace Backfill

/-! ### Counters that do not go round -/

namespace Word

variable {counter before gain : Nat}

theorem eq_wrap_of_modEq (h : counter ≡ before + gain [MOD max + 1]) (hcounter : counter ≤ max) :
    counter = wrap (before + gain) :=
  (Nat.mod_eq_of_lt (Nat.lt_succ_of_le hcounter)).symm.trans h

theorem eq_add_of_modEq (h : counter ≡ before + gain [MOD max + 1]) (hcounter : counter ≤ max)
    (hsum : before + gain ≤ max) : counter = before + gain := by
  rw [eq_wrap_of_modEq h hcounter, wrap_of_le hsum]

end Word

theorem ceilDiv_le (numerator denominator : Nat) : ceilDiv numerator denominator ≤ numerator := by
  unfold ceilDiv
  split
  · exact Nat.zero_le _
  · have := Nat.div_le_self (numerator - 1) denominator
    omega

namespace Run

variable {setup : RunSetup} {asked : List Nat} {telemetry : Telemetry} {events : List Event}
  {run : Run} {notes : List Note}

/-- **No more batches are settled than there are slots.** -/
theorem Delivered.length_resultsIn_le (h : run.Delivered notes) :
    (resultsIn notes).length ≤ run.setup.plan.source.slots.length := by
  have hsound := h.accounted.orderly.sound
  have hle := h.results_subperm.length_le
  rw [List.length_map, hsound.length_batches] at hle
  have hbatches := ceilDiv_le run.setup.plan.slotCount run.setup.plan.batchSize
  rw [← hsound.slotCount_eq]
  exact Nat.le_trans hle hbatches

/-! ### One run -/

/-- All accounts of a run agree: the report, the counters of the engine, the metrics of the program
and the history of the run. -/
structure Agrees (before : Telemetry) (run : Run) (notes : List Note) (report : RunReport) :
    Prop where
  reported : report.stats = run.accounts.telemetry.stats
  successes : run.accounts.telemetry.stats.successes = before.stats.successes + report.succeeded
  failures : run.accounts.telemetry.stats.failures = before.stats.failures + report.ledger.size
  /-- Every result that comes in is counted. -/
  batches : run.accounts.telemetry.stats.batches = before.stats.batches + (resultsIn notes).length
  /-- Every request that is sent is counted. -/
  attempts : run.accounts.telemetry.stats.attempts =
    Word.wrap (before.stats.attempts + requestsIn notes)
  /-- So is every request that is repeated. -/
  retries : run.accounts.telemetry.stats.retries = Word.wrap (before.stats.retries +
    total (Story.retries run.setup.policy) run.setup.plan.batches notes)
  /-- The fetched blocks are those of the slots that the report counts, one for each. -/
  fetched : report.succeeded = (fetchedBlocks notes).length ∧
    ((fetchedBlocks notes).map (·.1)).Nodup
  /-- Their transactions are counted before the filter. -/
  transactions : run.accounts.telemetry.stats.transactions =
    Word.wrap (before.stats.transactions +
      ((fetchedBlocks notes).map fun block => Block.transactionCount block.2).sum)
  /-- The metrics are raised by as much as the counters. -/
  succeededMetric : run.accounts.telemetry.metrics.succeeded =
    Word.wrap (before.metrics.succeeded + report.succeeded)
  requestsMetric : run.accounts.telemetry.metrics.requests =
    Word.wrap (before.metrics.requests + requestsIn notes)
  retriesMetric : run.accounts.telemetry.metrics.retries = Word.wrap (before.metrics.retries +
    total (Story.retries run.setup.policy) run.setup.plan.batches notes)
  /-- Every label is raised by the count of the ledger. -/
  failedMetric : ∀ label, run.accounts.telemetry.metrics.failed.get label =
    Word.wrap (before.metrics.failed.get label + report.ledger.reasonCounts.get label)

theorem stats_of_outcome? {elapsed : Elapsed} {outcome : RunOutcome}
    (h : run.outcome? elapsed = some outcome) :
    outcome.report.stats = run.accounts.telemetry.stats := by
  obtain ⟨report, hreport, rfl⟩ := Option.map_eq_some_iff.mp h
  have hstats : report.stats = run.accounts.telemetry.stats := by
    unfold report? at hreport
    split at hreport
    · obtain rfl := Option.some.inj hreport
      rfl
    · simp at hreport
  split <;> exact hstats

theorem wellFormed_of_execute (hasks : setup.Asks asked) (hwell : telemetry.WellFormed)
    (hrun : (start setup telemetry).execute events = some run) :
    run.accounts.telemetry.WellFormed := by
  obtain ⟨tellings, htold, -⟩ := tellings_of_execute hasks.sound hrun
  exact htold ▸ hwell.tellAll tellings

/-- **The accounts of one run agree**, as long as the counters of slots and batches do not go
round. -/
theorem agrees_of_outcome (hasks : setup.Asks asked) (hwell : telemetry.WellFormed)
    (hslots : telemetry.stats.successes + telemetry.stats.failures + setup.run.requested ≤ Word.max)
    (hbatches : telemetry.stats.batches + setup.run.requested ≤ Word.max)
    (hrun : (start setup telemetry).execute events = some run) {elapsed : Elapsed}
    {outcome : RunOutcome} (houtcome : run.outcome? elapsed = some outcome) :
    Agrees telemetry run ((start setup telemetry).notes events) outcome.report := by
  obtain rfl := setup_of_execute hrun
  have hdelivered := delivered_of_execute hasks.sound hrun
  have haccounted := hdelivered.accounted
  have hpartitioned := haccounted.partitioned hasks
  have hraised := raised_of_execute hasks.sound hrun
  have hafter := wellFormed_of_execute hasks hwell hrun
  obtain ⟨tellings, htold, htells⟩ := tellings_of_execute hasks.sound hrun
  obtain ⟨⟨cancelled, hstage⟩, -, hsucceeded, -, -, hledger⟩ := outcome?_eq_some houtcome
  have hover : run.deliveries = [] := by rw [deliveries, hstage]
  -- what was asked for bounds what is counted
  have htotal := hpartitioned.total_le
  rw [← hasks.requested_eq_dedup] at htotal
  have hresults := hdelivered.length_resultsIn_le
  rw [← hasks.requested_eq] at hresults
  have hblocks := hdelivered.slots_fetchedBlocks hover
  have hlength : run.accounts.ledger.slots.length ≤ Word.max := by
    rw [← haccounted.failed]
    omega
  rw [← hsucceeded] at htotal
  have hsuccesses : run.accounts.telemetry.stats.successes ≡
      telemetry.stats.successes + outcome.report.succeeded [MOD Word.max + 1] :=
    hsucceeded ▸ hraised.successes
  exact {
    reported := stats_of_outcome? houtcome
    successes := Word.eq_add_of_modEq hsuccesses hafter.successes (by omega)
    failures := by
      rw [hledger, hpartitioned.size]
      exact Word.eq_add_of_modEq hraised.failures hafter.failures (by omega)
    batches := Word.eq_add_of_modEq hraised.batches hafter.batches
      (Nat.le_trans (Nat.add_le_add_left hresults _) hbatches)
    attempts := by
      rw [htold, ← htells.requests]
      exact Telemetry.attemptsCounter.read_tellAll hwell tellings
    retries := Word.eq_wrap_of_modEq hraised.retries hafter.retries
    fetched := by
      refine ⟨?_, hblocks.nodup_iff.mpr hpartitioned.nodup.of_append_left.of_append_left⟩
      rw [hsucceeded, hpartitioned.succeeded, ← hblocks.length_eq, List.length_map]
    transactions := by
      rw [← hdelivered.transactions_fetchedBlocks hover]
      exact Word.eq_wrap_of_modEq hraised.transactions hafter.transactions
    succeededMetric := by
      rw [htold] at hsuccesses ⊢
      exact Telemetry.Counter.read_alike
        (show Telemetry.succeededCounter.gain = Telemetry.successesCounter.gain from rfl)
        hwell hsuccesses
    requestsMetric := by
      rw [htold, ← htells.requests]
      exact Telemetry.requestsCounter.read_tellAll hwell tellings
    retriesMetric := by
      have hretries := hraised.retries
      rw [htold] at hretries ⊢
      exact Telemetry.Counter.read_alike
        (show Telemetry.repetitionsCounter.gain = Telemetry.retriesCounter.gain from rfl)
        hwell hretries
    failedMetric := fun label => by
      rw [hledger, haccounted.ordered.get_reasonCounts hlength, Ledger.labelled,
        ← htells.failed, htold]
      exact (Telemetry.failedCounter label).read_tellAll hwell tellings }

end Run

/-! ### One run after the other -/

/-- The telemetry of an engine that has completed some runs over so many slots altogether, one run
after the other. -/
inductive Telemetry.AfterRuns (first : Telemetry) : Telemetry → Nat → Prop
  | none : AfterRuns first first 0
  | more {telemetry : Telemetry} {requested : Nat} {setup : RunSetup} {asked : List Nat}
    {events : List Run.Event} {run : Run} {elapsed : Elapsed} {outcome : RunOutcome}
    (hbefore : AfterRuns first telemetry requested) (hasks : setup.Asks asked)
    (hrun : (Run.start setup telemetry).execute events = some run)
    (houtcome : run.outcome? elapsed = some outcome) :
    AfterRuns first run.accounts.telemetry (requested + setup.run.requested)

/-- **The slots that were asked for bound the counters of slots and batches.** -/
theorem Telemetry.AfterRuns.bounded {first telemetry : Telemetry} {requested : Nat}
    (h : first.AfterRuns telemetry requested) (hwell : first.WellFormed)
    (hzero : first.stats = .zero) (hle : requested ≤ Word.max) :
    telemetry.WellFormed ∧ telemetry.stats.successes + telemetry.stats.failures ≤ requested ∧
      telemetry.stats.batches ≤ requested := by
  induction h with
  | none =>
    rw [hzero]
    exact ⟨hwell, Nat.le_refl _, Nat.le_refl _⟩
  | @more before requested setup asked events run elapsed outcome _ hasks hrun houtcome ih =>
    -- The run adds a success or failure for each requested slot at most, and a batch per result.
    obtain ⟨hbefore, hslots, hbatches⟩ := ih (by omega)
    have hagrees := Run.agrees_of_outcome hasks hbefore (by omega) (by omega) hrun houtcome
    have hdelivered := Run.delivered_of_execute hasks.sound hrun
    obtain ⟨-, -, hsucceeded, -, -, hledger⟩ := Run.outcome?_eq_some houtcome
    obtain rfl := Run.setup_of_execute hrun
    have hpartitioned := hdelivered.accounted.partitioned hasks
    have htotal := hpartitioned.total_le
    have hresults := hdelivered.length_resultsIn_le
    rw [← hasks.requested_eq_dedup] at htotal
    rw [← hasks.requested_eq] at hresults
    rw [hagrees.successes, hagrees.failures, hagrees.batches, hsucceeded, hledger,
      hpartitioned.size]
    refine ⟨Run.wellFormed_of_execute hasks hbefore hrun, by omega, by omega⟩

namespace Run

variable {setup : RunSetup} {asked : List Nat} {first telemetry : Telemetry}
  {events : List Event} {run : Run} {requested : Nat}

/-- **After every run of an engine, all accounts agree.**  The engine may have completed any runs
before, whatever the provider, the sink, the workers and the tokens did in them and in whatever
order, as long as all slots that were asked for can be counted in a word; and the metrics of the
program may have been raised before the engine was made. -/
theorem accounts_agree (hwell : first.WellFormed) (hzero : first.stats = .zero)
    (hruns : first.AfterRuns telemetry requested) (hasks : setup.Asks asked)
    (hle : requested + setup.run.requested ≤ Word.max)
    (hrun : (start setup telemetry).execute events = some run) {elapsed : Elapsed}
    {outcome : RunOutcome} (houtcome : run.outcome? elapsed = some outcome) :
    Agrees telemetry run ((start setup telemetry).notes events) outcome.report := by
  obtain ⟨htelemetry, hslots, hbatches⟩ := hruns.bounded hwell hzero (by omega)
  exact agrees_of_outcome hasks htelemetry (by omega) (by omega) hrun houtcome

/-- Two runs over the same two slots.  In the first one, a slot with two transactions is fetched
and the token fires; in the second one, a worker is lost with a slot, and a request is repeated for
the other one. -/
theorem accounts_agree_second_run :
    let setup := RunSetup.ofRange { (default : Settings) with retryAttempts := 1 } false ⟨5, 6⟩ 0
    let block : Json := .obj [("transactions", .arr [.null, .null])]
    let taking : List Event :=
      [.openCycle, .pool .enqueue, .pool (.take 0), .pool (.attempt 0 .start)]
    let answering (answer : Outcomes) : List Event :=
      [.pool (.attempt 0 (.finish (.ok answer))), .pool (.report 0), .intake]
    let cancelled := taking ++ answering [(5, .fetched block)] ++
      [.deliver 0 (.ok ()), .pool (.leave 0), .closeCycle, .fire, .cancelRest]
    let broken := taking ++ [.pool (.breakDown 0), .closeCycle] ++ taking ++
      [.pool (.attempt 0 (.finish (.error (.withoutStatus .timeout "late")))),
        .pool (.attempt 0 .start)] ++ answering [(6, .failed .notFound)] ++
      [.pool (.leave 0), .closeCycle, .conclude]
    let told : Telemetry := ⟨⟨1, 0, 1, 1, 1, 2⟩, ⟨1, 0, 1, [("cancelled", 1)], 0, 1, 2, 1, 50⟩⟩
    ∃ first run outcome, (start setup .zero).execute cancelled = some first ∧
      first.accounts.telemetry = told ∧ Telemetry.zero.AfterRuns told 2 ∧
      (start setup told).execute broken = some run ∧ run.outcome? ⟨0⟩ = some outcome ∧
      Agrees told run ((start setup told).notes broken) outcome.report ∧
      run.accounts.telemetry.stats = ⟨4, 1, 2, 1, 3, 2⟩ ∧
      run.accounts.telemetry.metrics.failed =
        [("cancelled", 1), ("not_found", 1), ("worker_lost", 1)] := by
  intro setup block taking answering cancelled broken told
  have hasks : setup.Asks [5, 6] :=
    @RunSetup.Asks.overRange 5 6 ⟨5, 6⟩ { (default : Settings) with retryAttempts := 1 } false 0
      (by decide) rfl
  -- The first run is cancelled after its first batch, and leaves the telemetry named `told`.
  obtain ⟨first, hcancelled⟩ : ∃ run, (start setup .zero).execute cancelled = some run :=
    Option.isSome_iff_exists.mp (by decide)
  have hfirst : ((start setup .zero).execute cancelled).map (fun run =>
      (run.accounts.telemetry, (run.outcome? ⟨0⟩).isSome)) = some (told, true) := by decide
  rw [hcancelled] at hfirst
  obtain ⟨htold, hended⟩ := Prod.mk.inj (Option.some.inj hfirst)
  obtain ⟨ended, hended⟩ := Option.isSome_iff_exists.mp hended
  have hruns := Telemetry.AfterRuns.none.more hasks hcancelled hended
  rw [htold] at hruns
  -- The second loses a worker, has a batch repeated, and starts from `told`.
  obtain ⟨run, hrun⟩ : ∃ run, (start setup told).execute broken = some run :=
    Option.isSome_iff_exists.mp (by decide)
  have hsecond : ((start setup told).execute broken).map (fun run =>
      (run.accounts.telemetry.stats, run.accounts.telemetry.metrics.failed,
        (run.outcome? ⟨0⟩).isSome)) = some (⟨4, 1, 2, 1, 3, 2⟩,
          [("cancelled", 1), ("not_found", 1), ("worker_lost", 1)], true) := by decide
  rw [hrun] at hsecond
  obtain ⟨hstats, hrest⟩ := Prod.mk.inj (Option.some.inj hsecond)
  obtain ⟨hfailed, hover⟩ := Prod.mk.inj hrest
  obtain ⟨outcome, houtcome⟩ := Option.isSome_iff_exists.mp hover
  have hagrees := accounts_agree Telemetry.wellFormed_zero rfl hruns hasks (by decide) hrun houtcome
  exact ⟨first, run, outcome, hcancelled, htold, hruns, hrun, houtcome, hagrees, hstats, hfailed⟩

end Run

end Backfill
