import Backfill.Proofs.EnginePlans
import Backfill.Proofs.RunPlaces

/-!
# Every slot is accounted for once

The totals of a run are kept beside its ledger and are never compared with it.  They agree all the
same: however the moves of a run follow each other, the slots that were asked for fall into those
that count as fetched, those in the ledger and those that are not settled, and no slot is in two
of these places.  At the end nothing is left in the third place.

## Main definitions

* `Run.Accounted` — totals, ledger and history of a run agree, and no slot is lost.
* `Run.Partitioned` — the same in terms of what was asked for.
* `RunReport.Complete` — nothing is missing in a report.

## Main results

* `Run.Accounted.move` — every move keeps the accounts in agreement.
* `Run.accounted_of_execute` — so does every run.
* `Run.slots_accounted_once` — **every slot is accounted for once**, at every moment of every
  run, and in the report nothing is left.
-/

namespace Backfill

theorem Delivery.length_ofBlocks (filter : BlockFilter) (hasSink : Bool)
    (fetched : List (Nat × Json)) :
    (ofBlocks filter hasSink fetched).records.length + (ofBlocks filter hasSink fetched).skipped =
      if hasSink then (ofBlocks filter hasSink fetched).slots.length else 0 := by
  cases hasSink with
  | false => rfl
  | true =>
    have hle := List.length_filterMap_le (Delivery.record? filter) fetched
    simp only [ofBlocks, if_true, List.length_map]
    omega

namespace Run

/-- Totals, ledger and history of a run agree, and no slot is lost. -/
structure Accounted (run : Run) (notes : List Note) : Prop where
  orderly : run.Orderly
  ordered : run.accounts.ledger.Ordered
  partition : (notes.flatMap Note.fetched ++ run.accounts.ledger.slots ++ run.unsettled).Perm
    run.setup.plan.source.slots
  succeeded : run.accounts.succeeded = (notes.flatMap Note.fetched).length
  failed : run.accounts.failed = run.accounts.ledger.slots.length
  exhausted : run.accounts.exhausted ≤ run.accounts.failed
  handedOn : run.accounts.forwarded + run.accounts.skipped =
    if run.setup.hasSink then run.accounts.succeeded else 0

variable {run next : Run} {note : Option Note} {notes : List Note}
  {failures : List (Nat × FailureReason)}

/-! ### One move -/

/-- Only a delivery that has worked hands blocks on. -/
theorem Orderly.handedOn_move (h : run.Orderly) (hmove : run.Move note failures next) :
    next.accounts.forwarded + next.accounts.skipped =
      run.accounts.forwarded + run.accounts.skipped +
        if run.setup.hasSink then (note.toList.flatMap Note.fetched).length else 0 := by
  cases hmove with
  | @pool cycle event pool signal hstage hpool =>
    obtain ⟨telemetry, heq⟩ := count_eq run.accounts signal
    rw [(Pool.shift_of_step? hpool).fetched, heq]
    simp
  | intake => simp [Accounts.settle_eq, Note.fetched]
  | @deliver cycle position delivery result hstage hdelivery _ =>
    cases result with
    | error error => simp [Accounts.deliver, Note.fetched, Delivery.fetched]
    | ok =>
      have hmem : delivery ∈ run.deliveries := by
        rw [Run.deliveries, hstage]
        exact List.mem_of_getElem? hdelivery
      -- The blocks forwarded and those skipped are counted apart, and together they are all.
      obtain ⟨fetched, rfl⟩ := h.deliveries _ hmem
      have hlength := Delivery.length_ofBlocks run.setup.filter run.setup.hasSink fetched
      obtain ⟨-, -, -, hforwarded, hskipped, -⟩ := Accounts.foldl_succeed
        { run.accounts with
          forwarded := run.accounts.forwarded +
            (Delivery.ofBlocks run.setup.filter run.setup.hasSink fetched).records.length
          skipped := run.accounts.skipped +
            (Delivery.ofBlocks run.setup.filter run.setup.hasSink fetched).skipped }
        (Delivery.ofBlocks run.setup.filter run.setup.hasSink fetched).slots
      simp only [Accounts.deliver, hforwarded, hskipped, Option.toList_some, List.flatMap_singleton,
        Note.fetched, Delivery.fetched, List.length_map]
      omega
  | _ => simp [Note.fetched]

namespace Accounted

theorem nodup (h : run.Accounted notes) :
    (notes.flatMap Note.fetched ++ run.accounts.ledger.slots ++ run.unsettled).Nodup :=
  h.partition.nodup_iff.mpr h.orderly.sound.nodup

theorem reasonOf?_of_mem_unsettled (h : run.Accounted notes) {slot : Nat}
    (hslot : slot ∈ run.unsettled) : run.accounts.ledger.reasonOf? slot = none := by
  have hnodup := h.nodup
  rw [List.append_assoc] at hnodup
  refine Ledger.not_mem_slots.mp fun hfailed => ?_
  exact (List.nodup_append'.mp hnodup.of_append_right).2.2 hfailed hslot

theorem settling (h : run.Accounted notes) (hmove : run.Move note failures next) :
    Settling run next failures (note.toList.flatMap Note.fetched) :=
  h.orderly.settling h.ordered h.nodup.of_append_right hmove

theorem slots_move (h : run.Accounted notes) (hmove : run.Move note failures next) :
    next.accounts.ledger.slots.Perm (failures.map (·.1) ++ run.accounts.ledger.slots) := by
  have hsettling := h.settling hmove
  refine hsettling.accounts.slots_perm ?_
  have hnodup := h.nodup
  rw [List.append_assoc] at hnodup
  have hleft := (hsettling.unsettled.append_left _).nodup_iff.mp hnodup.of_append_right
  rw [List.append_assoc, ← List.append_assoc] at hleft
  exact List.perm_append_comm.nodup_iff.mp hleft.of_append_left

/-- **A delivery that is over has settled all its slots in one way.** -/
theorem ends_move (h : run.Accounted notes) (hmove : run.Move note failures next)
    {delivery : Delivery} {result : Except DispatchError Unit}
    (hnote : note = some (.delivered delivery result)) :
    ∀ slot ∈ delivery.slots.map (·.1), slot ∉ next.unsettled ∧
      next.accounts.ledger.reasonOf? slot = dispatchReason? result := by
  intro slot hslot
  have hsettling := h.settling hmove
  have hnodup := hsettling.unsettled.nodup_iff.mp h.nodup.of_append_right
  cases hmove with
  | @deliver cycle position =>
    obtain ⟨rfl, rfl⟩ := Note.delivered.inj (Option.some.inj hnote.symm)
    have hnew : slot ∈ (delivery.failures result).map (·.1) ++
        (some (Note.delivered delivery result)).toList.flatMap Note.fetched := by
      rw [← slots_delivered delivery result] at hslot
      simpa [Note.fetched] using hslot
    refine ⟨(List.nodup_append'.mp hnodup).2.2 hnew, ?_⟩
    cases result with
    | ok =>
      -- the ledger is left alone, and the slot was not in it before
      have hbefore := hsettling.unsettled.mem_iff.mpr (List.mem_append_left _ hnew)
      refine (hsettling.accounts.kept slot (by simp [Delivery.failures])).trans ?_
      exact h.reasonOf?_of_mem_unsettled hbefore
    | error error =>
      obtain ⟨entry, hentry, rfl⟩ := List.mem_map.mp hslot
      exact hsettling.accounts.recorded (entry.1, _) (List.mem_map.mpr ⟨entry, hentry, rfl⟩)
  | pool hstage hpool =>
    obtain ⟨batch, -, hbatch⟩ :=
      (Pool.shift_of_step? hpool).exists_batch (Option.mem_toList.mpr hnote)
    simp [Note.batch?] at hbatch
  | _ => simp at hnote

/-- **Every move keeps the accounts in agreement.** -/
theorem move (h : run.Accounted notes) (hmove : run.Move note failures next) :
    next.Accounted (notes ++ note.toList) := by
  have hsettling := h.settling hmove
  have hslots := h.slots_move hmove
  have hsetup := hmove.setup_eq
  have hexhausted := hsettling.accounts.exhausted
  have hfailed := hsettling.accounts.failed
  refine ⟨h.orderly.move hmove, hsettling.accounts.ordered, ?_, ?_, ?_, ?_, ?_⟩
  · -- what leaves the unsettled slots is counted as fetched or is new in the ledger
    rw [hsetup, List.flatMap_append]
    refine .trans ?_ h.partition
    rw [List.perm_iff_count]
    intro slot
    have hslotsCount := hslots.count_eq slot
    have hunsettledCount := hsettling.unsettled.count_eq slot
    simp only [List.count_append] at hslotsCount hunsettledCount ⊢
    omega
  · rw [hsettling.accounts.succeeded, h.succeeded, List.flatMap_append, List.length_append]
  · rw [hfailed, h.failed, hslots.length_eq, List.length_append, List.length_map, Nat.add_comm]
  · have hle := failures.countP_le_length (p := (·.2.isExhausted))
    have := h.exhausted
    omega
  · rw [h.orderly.handedOn_move hmove, h.handedOn, hsetup, hsettling.accounts.succeeded]
    split <;> rfl

end Accounted

/-! ### A whole run -/

/-- Before a run starts, all its slots are ahead. -/
theorem accounted_start {setup : RunSetup} (h : setup.plan.Sound) (telemetry : Telemetry) :
    (start setup telemetry).Accounted [] where
  orderly := orderly_start h telemetry
  ordered := Ledger.ordered_empty
  partition := by
    refine .of_eq ?_
    -- At the start every slot of the plan lies ahead.
    have hslots := h.flatMap_slots_batchesFrom 0
    rw [Nat.zero_mul, Nat.zero_mul, List.drop_zero] at hslots
    simpa [start, unsettled, ahead, pending, underway, Run.deliveries, Accounts.ofTelemetry,
      Ledger.slots, Ledger.empty] using hslots
  succeeded := rfl
  failed := rfl
  exhausted := Nat.le_refl _
  handedOn := by
    rw [start]
    split <;> rfl

/-- **In every run the accounts agree with its history.** -/
theorem accounted_of_execute {setup : RunSetup} (h : setup.plan.Sound) {telemetry : Telemetry}
    {events : List Event} (hrun : (start setup telemetry).execute events = some run) :
    run.Accounted ((start setup telemetry).notes events) := by
  refine execute_induct hrun (accounted_start h telemetry) fun haccounted hstep => ?_
  obtain ⟨failures, hmove⟩ := move_of_step? hstep
  exact haccounted.move hmove

theorem setup_eq_of_execute {final : Run} {events : List Event}
    (hrun : run.execute events = some final) : final.setup = run.setup := by
  refine execute_induct (motive := fun now _ => now.setup = run.setup) hrun rfl
    fun hsetup hstep => ?_
  obtain ⟨failures, hmove⟩ := move_of_step? hstep
  rw [hmove.setup_eq, hsetup]

theorem setup_of_execute {setup : RunSetup} {telemetry : Telemetry} {events : List Event}
    (hrun : (start setup telemetry).execute events = some run) : run.setup = setup :=
  setup_eq_of_execute hrun

theorem unsettled_of_over {cancelled : Bool} (h : run.stage = .over cancelled) :
    run.unsettled = [] := by
  simp [unsettled, ahead, pending, underway, Run.deliveries, h]

theorem report?_eq_some {elapsed : Elapsed} {report : RunReport}
    (h : run.report? elapsed = some report) :
    run.stage = .over report.cancelled ∧ report.run = run.setup.run ∧
      report.succeeded = run.accounts.succeeded ∧ report.forwarded = run.accounts.forwarded ∧
      report.skipped = run.accounts.skipped ∧ report.ledger = run.accounts.ledger := by
  unfold report? at h
  split at h
  · next cancelled hstage =>
    obtain rfl := Option.some.inj h
    exact ⟨hstage, rfl, rfl, rfl, rfl, rfl⟩
  · simp at h

/-- What a run leads to tells of its accounts, once the run is over. -/
theorem outcome?_eq_some {elapsed : Elapsed} {outcome : RunOutcome}
    (h : run.outcome? elapsed = some outcome) :
    (∃ cancelled, run.stage = .over cancelled) ∧ outcome.report.run = run.setup.run ∧
      outcome.report.succeeded = run.accounts.succeeded ∧
      outcome.report.forwarded = run.accounts.forwarded ∧
      outcome.report.skipped = run.accounts.skipped ∧
      outcome.report.ledger = run.accounts.ledger := by
  obtain ⟨report, hreport, rfl⟩ := Option.map_eq_some_iff.mp h
  have hkind : (if run.showsUnreachable report then RunOutcome.unreachable report
      else .complete report).report = report := by
    split <;> rfl
  obtain ⟨hstage, htold⟩ := report?_eq_some hreport
  rw [hkind]
  exact ⟨⟨_, hstage⟩, htold⟩

/-! ### In terms of what was asked for -/

/-- The slots that were asked for are fetched, failed or not settled, each in one way, and the
totals are the numbers of these slots. -/
structure Partitioned (asked fetched : List Nat) (run : Run) : Prop where
  nodup : (fetched ++ run.accounts.ledger.slots ++ run.unsettled).Nodup
  mem_iff : ∀ slot, slot ∈ fetched ++ run.accounts.ledger.slots ++ run.unsettled ↔ slot ∈ asked
  succeeded : run.accounts.succeeded = fetched.length
  failed : run.accounts.failed = run.accounts.ledger.slots.length
  size : run.accounts.ledger.size = run.accounts.failed
  /-- No total exceeds what was asked for, which is a word. -/
  total_le : run.accounts.succeeded + run.accounts.failed ≤ asked.dedup.length
  handedOn_le : run.accounts.forwarded + run.accounts.skipped ≤ run.accounts.succeeded
  exhausted_le : run.accounts.exhausted ≤ run.accounts.failed
  asked_le : asked.dedup.length ≤ Word.max

end Run

/-- Nothing is missing in a report. -/
structure RunReport.Complete (asked : List Nat) (report : RunReport) : Prop where
  requested : report.run.requested = asked.dedup.length
  total : report.succeeded + report.ledger.size = report.run.requested
  isFullyAccounted : report.isFullyAccounted = true

namespace Run

variable {setup : RunSetup} {asked : List Nat} {telemetry : Telemetry} {events : List Event}
  {run : Run}

theorem Accounted.partitioned {notes : List Note} (h : run.Accounted notes)
    (hasks : run.setup.Asks asked) : Partitioned asked (notes.flatMap Note.fetched) run := by
  have hlength := h.partition.length_eq
  have hrequested := hasks.requested_eq
  -- The counts follow from the lengths, since no slot is asked for twice.
  have hdedup := hasks.requested_eq_dedup
  have hcount := hasks.sound.slotCount_le
  rw [hasks.sound.slotCount_eq] at hcount
  have hsucceeded := h.succeeded
  have hfailed := h.failed
  have hhandedOn := h.handedOn
  simp only [List.length_append] at hlength
  refine ⟨h.nodup, fun slot => ?_, h.succeeded, h.failed, ?_, by omega, ?_, h.exhausted, by omega⟩
  · rw [h.partition.mem_iff, hasks.mem_slots]
  · rw [h.failed]
    exact h.ordered.size_eq (by omega)
  · split at hhandedOn <;> omega

/-- **Every slot is accounted for once.**  At every moment of every run, whatever the provider, the
sink, the workers and the token do and in whatever order, the slots that were asked for are those
that count as fetched, those in the ledger and those that are not settled, each slot once; and in
the report, whether it is complete or tells that the provider cannot be reached, nothing is
unsettled and the totals add up to what was asked for. -/
theorem slots_accounted_once (hasks : setup.Asks asked)
    (h : (start setup telemetry).execute events = some run) :
    Partitioned asked (((start setup telemetry).notes events).flatMap Note.fetched) run ∧
      ∀ elapsed outcome, run.outcome? elapsed = some outcome →
        run.unsettled = [] ∧ outcome.report.succeeded = run.accounts.succeeded ∧
          outcome.report.ledger = run.accounts.ledger ∧ outcome.report.Complete asked := by
  have hsetup := setup_of_execute h
  have hasksRun : run.setup.Asks asked := hsetup ▸ hasks
  have haccounted := accounted_of_execute hasks.sound h
  have hpartitioned := haccounted.partitioned hasksRun
  refine ⟨hpartitioned, fun elapsed outcome houtcome => ?_⟩
  obtain ⟨⟨cancelled, hstage⟩, hmeta, hsucceeded, -, -, hledger⟩ := outcome?_eq_some houtcome
  -- the run is over, so the third place is empty and the other two make up the total
  have hunsettled := unsettled_of_over hstage
  have htotal := haccounted.partition.length_eq
  rw [hunsettled, List.append_nil, List.length_append, ← haccounted.succeeded,
    ← haccounted.failed, ← hpartitioned.size, ← hasksRun.requested_eq, ← hsucceeded, ← hledger,
    ← hmeta] at htotal
  refine ⟨hunsettled, hsucceeded, hledger, ?_, htotal, beq_iff_eq.mpr htotal⟩
  rw [hmeta]
  exact hasksRun.requested_eq_dedup

/-- The first of two slots is fetched, and the token fires before the second one is asked for. -/
theorem slots_accounted_once_cancelled :
    let setup := RunSetup.ofRange default false ⟨5, 6⟩ 0
    let events : List Event :=
      [.openCycle, .pool .enqueue, .pool (.take 0), .pool (.attempt 0 .start),
        .pool (.attempt 0 (.finish (.ok [(5, .fetched .null)]))), .pool (.report 0), .intake,
        .deliver 0 (.ok ()), .pool (.leave 0), .closeCycle, .fire, .cancelRest]
    ∃ run, (start setup .zero).execute events = some run ∧
      Partitioned [5, 6] [5] run ∧ run.accounts.ledger = ⟨[⟨6, 6, .cancelled⟩]⟩ ∧
      ∃ outcome, run.outcome? ⟨0⟩ = some outcome ∧ outcome.report.Complete [5, 6] := by
  intro setup events
  have hasks : setup.Asks [5, 6] :=
    @RunSetup.Asks.overRange 5 6 ⟨5, 6⟩ default false 0 (by decide) rfl
  obtain ⟨run, hrun⟩ : ∃ run, (start setup .zero).execute events = some run :=
    Option.isSome_iff_exists.mp (by decide)
  have hledger : ((start setup .zero).execute events).map (·.accounts.ledger) =
      some ⟨[⟨6, 6, .cancelled⟩]⟩ := by decide
  have hover : (((start setup .zero).execute events).bind (·.outcome? ⟨0⟩)).isSome := by decide
  have hfetched : ((start setup .zero).notes events).flatMap Note.fetched = [5] := by decide
  rw [hrun] at hledger hover
  -- The first slot was fetched, and the token fired before the cycle of the second.
  obtain ⟨outcome, houtcome⟩ := Option.isSome_iff_exists.mp hover
  obtain ⟨hpartitioned, hreport⟩ := slots_accounted_once hasks hrun
  rw [hfetched] at hpartitioned
  exact ⟨run, hrun, hpartitioned, Option.some.inj hledger, outcome, houtcome,
    (hreport _ _ houtcome).2.2.2⟩

end Run

end Backfill
