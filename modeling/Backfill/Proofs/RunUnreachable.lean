import Backfill.Proofs.CycleProgress

/-!
# When the provider cannot be reached

A run tells that the provider cannot be reached by looking at its totals: nothing was fetched, and
as many slots used up the attempts of their batch as were asked for.  What is meant is a statement
about the ledger: every slot that was asked for is in it, with this reason.  The two agree, since a
slot is entered once only, and since the totals are what can be counted in the ledger.

Whether the run counts as cancelled is read off the token once, when the report is written; the
token may well fire after that.

## Main definitions

* `Run.ComesToEnd` — a run does not go on for ever, and stops when it is over only.
* `Run.ReportedAfter` — the events up to the one with which the report is written.
* `Run.Unanswered` — what the message says: no request for any slot was answered.

## Main results

* `Run.comesToEnd_of_execute` — every run comes to its end.
* `Run.exists_reportedAfter`, `Run.ReportedAfter.cancelled_eq` — the report is written once, and
  tells whether the token has fired before.
* `Run.totals_iff_ledger` — the totals say what the ledger says.
* `Run.unreachable_is_exact` — **a run tells that the provider cannot be reached exactly if it is
  so.**
-/

namespace Backfill

theorem FailureReason.isExhausted_iff {reason : FailureReason} :
    reason.isExhausted = true ↔
      ∃ attempts lastError, reason = .exhaustedRetries attempts lastError := by
  cases reason <;> simp [FailureReason.isExhausted]

/-- **The total of used-up attempts is the number of failed slots exactly if it is the reason of all
of them.** -/
theorem Ledger.exhausted_eq_length_iff {ledger : Ledger} :
    ledger.exhausted = ledger.slots.length ↔ ∀ slot ∈ ledger.slots, ∃ attempts lastError,
      ledger.reasonOf? slot = some (.exhaustedRetries attempts lastError) := by
  rw [Ledger.exhausted, List.countP_eq_length]
  refine forall₂_congr fun slot _ => ?_
  rw [Option.any_eq_true]
  constructor
  · rintro ⟨reason, hreason, hexhausted⟩
    obtain ⟨attempts, lastError, rfl⟩ := FailureReason.isExhausted_iff.mp hexhausted
    exact ⟨attempts, lastError, hreason⟩
  · rintro ⟨attempts, lastError, hreason⟩
    exact ⟨_, hreason, rfl⟩

namespace Run

variable {run next final : Run} {setup : RunSetup} {asked : List Nat} {telemetry : Telemetry}
  {event : Event} {events before : List Event} {cancelled : Bool}

/-! ### The end of a run -/

/-- A run does not go on for ever, and where nothing is possible any more, except that the token
fires, it is over. -/
structure ComesToEnd (run : Run) : Prop where
  finite : ¬∃ states : Nat → Run, states 0 = run ∧
    ∀ n, ∃ event, (states n).step? event = some (states (n + 1))
  ended : (∀ event, event ≠ .fire → run.step? event = none) →
    ∃ cancelled, run.stage = .over cancelled

/-- Between two cycles, a run can start the next one, cancel the rest or conclude. -/
theorem exists_step?_between (hsound : run.setup.plan.Sound) (hstage : run.stage = .between) :
    ∃ event next, event ≠ .fire ∧ run.step? event = some next := by
  -- Between two cycles the run opens the next one, gives up the rest, or ends.
  by_cases hlast : run.setup.plan.cycleCount ≤ run.next
  · refine ⟨.conclude, { run with stage := .over run.fired }, by simp, ?_⟩
    simp only [step?, conclude?, hstage, if_pos hlast]
  · have hnext : run.next < run.setup.plan.cycleCount := Nat.lt_of_not_le hlast
    cases hfired : run.fired with
    | false =>
      obtain ⟨opened, hstep⟩ : ∃ opened, run.step? .openCycle = some opened := by
        simp only [step?, openCycle?, hstage, hfired, hsound.cycle?_eq hnext]
        exact ⟨_, rfl⟩
      exact ⟨.openCycle, opened, by simp, hstep⟩
    | true =>
      obtain ⟨ended, hstep⟩ : ∃ ended, run.step? .cancelRest = some ended := by
        simp only [step?, cancelRest?, hstage, hfired, if_pos hnext]
        exact ⟨_, rfl⟩
      exact ⟨.cancelRest, ended, by simp, hstep⟩

/-- **Every run comes to its end.** -/
theorem comesToEnd_of_execute (hasks : setup.Asks asked)
    (h : (start setup telemetry).execute events = some run) : run.ComesToEnd := by
  have hsound : run.setup.plan.Sound := setup_of_execute h ▸ hasks.sound
  refine ⟨not_exists_infinite hsound, fun hstuck => ?_⟩
  -- Wherever a run stands that is not over, there is an event besides the token.
  match hstage : run.stage with
  | .between =>
    obtain ⟨event, next, hevent, hstep⟩ := exists_step?_between hsound hstage
    simp [hstuck event hevent] at hstep
  | .busy cycle =>
    obtain ⟨hroom, -⟩ := limited_of_execute h cycle hstage
    have hover := isOver_of_stuck hstage (hroom ▸ Nat.le_max_right _ _)
      fun event hevent _ => hstuck event hevent
    obtain ⟨closed, hclose⟩ := exists_step?_closeCycle hstage hover
    simp [hstuck .closeCycle (by simp)] at hclose
  | .over cancelled => exact ⟨cancelled, rfl⟩

/-! ### The token -/

/-- Only its own event makes the token fire, and it does not fire back. -/
theorem fired_of_step? (h : run.step? event = some next) :
    next.fired = true ↔ run.fired = true ∨ event = .fire := by
  cases event with
  | fire =>
    obtain ⟨-, rfl⟩ : run.fired = false ∧ { run with fired := true } = next := by
      simpa [step?] using h
    simp
  | pool | intake =>
    simp only [step?, pool?, intake?] at h
    split at h
    · obtain ⟨_, -, rfl⟩ := Option.map_eq_some_iff.mp h
      simp
    · simp at h
  | _ => grind [step?, openCycle?, deliver?, closeCycle?, cancelRest?, conclude?]

theorem fired_of_execute (h : run.execute events = some final) :
    final.fired = true ↔ run.fired = true ∨ .fire ∈ events := by
  induction events generalizing run with
  | nil =>
    obtain rfl := Option.some.inj h
    simp
  | cons event rest ih =>
    obtain ⟨next, hstep, hrest⟩ := Option.bind_eq_some_iff.mp h
    rw [ih hrest, fired_of_step? hstep, List.mem_cons, or_assoc, @eq_comm _ event]

/-! ### The moment of the report -/

/-- A move that ends a run starts between two cycles, and the run counts as cancelled exactly if the
token has fired. -/
theorem Move.over {note : Option Note} {failures : List (Nat × FailureReason)}
    (h : run.Move note failures next) (hover : next.stage = .over cancelled) :
    run.stage = .over cancelled ∨ run.stage = .between ∧ run.fired = cancelled := by
  cases h with
  | fire => exact .inl hover
  | cancelRest hstage hfired => exact .inr ⟨hstage, hfired.trans (Stage.over.inj hover)⟩
  | conclude hstage => exact .inr ⟨hstage, Stage.over.inj hover⟩
  | _ => simp at hover

theorem Move.stays_over {note : Option Note} {failures : List (Nat × FailureReason)}
    (h : run.Move note failures next) (hover : run.stage = .over cancelled) :
    next.stage = .over cancelled := by
  cases h with
  | fire => exact hover
  | openCycle hstage | pool hstage | intake hstage | deliver hstage | closeCycle hstage
  | cancelRest hstage | conclude hstage => simp [hover] at hstage

theorem over_of_execute (h : run.execute events = some final)
    (hover : run.stage = .over cancelled) : final.stage = .over cancelled := by
  refine execute_induct (motive := fun now _ => now.stage = .over cancelled) h hover
    fun hover hstep => ?_
  obtain ⟨failures, hmove⟩ := move_of_step? hstep
  exact hmove.stays_over hover

/-- The events up to the one with which the report is written: the run is between two cycles after
them, and over after the next one. -/
def ReportedAfter (first : Run) (before events : List Event) : Prop :=
  ∃ event after middle next, events = before ++ event :: after ∧
    first.execute before = some middle ∧ middle.stage = .between ∧
    middle.step? event = some next ∧ ∃ cancelled, next.stage = .over cancelled

/-- **In a run that comes to its end, the report is written.** -/
theorem exists_reportedAfter (h : run.execute events = some final)
    (hstage : ∀ cancelled, run.stage ≠ .over cancelled) (hover : final.stage = .over cancelled) :
    ∃ before, run.ReportedAfter before events := by
  induction events generalizing run with
  | nil =>
    obtain rfl := Option.some.inj h
    exact absurd hover (hstage cancelled)
  | cons event rest ih =>
    obtain ⟨next, hstep, hrest⟩ := Option.bind_eq_some_iff.mp h
    obtain ⟨failures, hmove⟩ := move_of_step? hstep
    -- The report is made by the first event after which the run is over.
    by_cases hnext : ∃ cancelled, next.stage = .over cancelled
    · obtain ⟨early, hearly⟩ := hnext
      obtain ⟨hbetween, -⟩ := (hmove.over hearly).resolve_left (hstage early)
      exact ⟨[], event, rest, run, next, rfl, rfl, hbetween, hstep, early, hearly⟩
    · obtain ⟨before, event', after, middle, last, rfl, hbefore, hlast⟩ :=
        ih hrest fun cancelled hcancelled => hnext ⟨cancelled, hcancelled⟩
      refine ⟨event :: before, event', after, middle, last, rfl, ?_, hlast⟩
      rw [execute_cons, hstep]
      exact hbefore

/-- **A run counts as cancelled exactly if the token has fired before the report is written.** -/
theorem ReportedAfter.cancelled_iff (hreported : run.ReportedAfter before events)
    (h : run.execute events = some final) (hfired : run.fired = false)
    (hover : final.stage = .over cancelled) : cancelled = true ↔ .fire ∈ before := by
  obtain ⟨event, after, middle, next, rfl, hbefore, hbetween, hstep, early, hearly⟩ := hreported
  rw [execute_append, hbefore, Option.bind_some, execute_cons, hstep, Option.bind_some] at h
  obtain ⟨failures, hmove⟩ := move_of_step? hstep
  -- the run is over after the event, and stays so
  obtain rfl : cancelled = early :=
    Stage.over.inj (hover.symm.trans (over_of_execute h hearly))
  obtain ⟨-, hcancelled⟩ := (hmove.over hearly).resolve_left (by simp [hbetween])
  rw [← hcancelled, fired_of_execute hbefore, hfired]
  simp

/-! ### Totals and ledger -/

/-- What the message says: the token has not fired before the report is written, something was asked
for, and every slot that was asked for has used up the attempts of its batch. -/
structure Unanswered (before : List Event) (asked : List Nat) (ledger : Ledger) : Prop where
  not_fired : .fire ∉ before
  asked_ne_nil : asked ≠ []
  exhausted : ∀ slot ∈ asked, ∃ attempts lastError,
    ledger.reasonOf? slot = some (.exhaustedRetries attempts lastError)

section Totals

variable {notes : List Note}

theorem Accounted.total_eq (h : run.Accounted notes) (hasks : run.setup.Asks asked)
    (hsettled : run.unsettled = []) :
    run.accounts.succeeded + run.accounts.ledger.slots.length = run.setup.run.requested := by
  rw [hasks.requested_eq, ← h.partition.length_eq, hsettled, List.append_nil, List.length_append,
    h.succeeded]

theorem Accounted.mem_asked_iff (h : run.Accounted notes) (hasks : run.setup.Asks asked)
    (hsettled : run.unsettled = []) {slot : Nat} :
    slot ∈ asked ↔ slot ∈ notes.flatMap Note.fetched ∨ slot ∈ run.accounts.ledger.slots := by
  rw [← (h.partitioned hasks).mem_iff, hsettled, List.append_nil, List.mem_append]

theorem Accounted.mem_slots_iff (h : run.Accounted notes) (hasks : run.setup.Asks asked)
    (hsettled : run.unsettled = []) (hnone : run.accounts.succeeded = 0) {slot : Nat} :
    slot ∈ run.accounts.ledger.slots ↔ slot ∈ asked := by
  have hfetched : notes.flatMap Note.fetched = [] := by
    rw [← List.length_eq_zero_iff, ← h.succeeded, hnone]
  rw [h.mem_asked_iff hasks hsettled, hfetched]
  simp

theorem Accounted.succeeded_eq_zero (h : run.Accounted notes) (hasks : run.setup.Asks asked)
    (hsettled : run.unsettled = []) (hfailed : asked ⊆ run.accounts.ledger.slots) :
    run.accounts.succeeded = 0 := by
  have hnodup := h.nodup.of_append_left
  rw [h.succeeded, List.length_eq_zero_iff, List.eq_nil_iff_forall_not_mem]
  intro slot hslot
  have hasked := (h.mem_asked_iff hasks hsettled).mpr (.inl hslot)
  exact (List.nodup_append'.mp hnodup).2.2 hslot (hfailed hasked)

/-- **When a run is over, its totals say what its ledger says**: nothing was fetched and as many
slots used up their attempts as were asked for, which is more than none, exactly if something was
asked for and every slot of it is in the ledger with this reason. -/
theorem Resulted.totals_iff_ledger (h : run.Resulted notes) (haccounted : run.Accounted notes)
    (hasks : run.setup.Asks asked) (hsettled : run.unsettled = []) :
    0 < run.setup.run.requested ∧ run.accounts.succeeded = 0 ∧
        run.accounts.exhausted = run.setup.run.requested ↔
      asked ≠ [] ∧ ∀ slot ∈ asked, ∃ attempts lastError,
        run.accounts.ledger.reasonOf? slot = some (.exhaustedRetries attempts lastError) := by
  have hpositive : 0 < run.setup.run.requested ↔ asked ≠ [] := by
    rw [hasks.requested_eq_dedup, List.length_pos_iff, ne_eq, List.dedup_eq_nil]
  have htotal := haccounted.total_eq hasks hsettled
  rw [hpositive, h.exhausted]
  refine and_congr_right fun _ => ⟨?_, fun hall => ?_⟩
  · rintro ⟨hnone, hexhausted⟩ slot hslot
    rw [hnone, Nat.zero_add] at htotal
    rw [← htotal] at hexhausted
    exact Ledger.exhausted_eq_length_iff.mp hexhausted slot
      ((haccounted.mem_slots_iff hasks hsettled hnone).mpr hslot)
  · -- a slot with a reason is in the ledger, so it was not fetched
    have hfailed : asked ⊆ run.accounts.ledger.slots := by
      intro slot hslot
      obtain ⟨attempts, lastError, hreason⟩ := hall slot hslot
      by_contra hnot
      rw [Ledger.not_mem_slots.mp hnot] at hreason
      simp at hreason
    have hnone := haccounted.succeeded_eq_zero hasks hsettled hfailed
    refine ⟨hnone, ?_⟩
    rw [hnone, Nat.zero_add] at htotal
    rw [← htotal]
    refine Ledger.exhausted_eq_length_iff.mpr fun slot hslot => hall slot ?_
    exact (haccounted.mem_slots_iff hasks hsettled hnone).mp hslot

end Totals

/-! ### The outcome -/

variable {elapsed : Elapsed} {report : RunReport}

/-- **The report is complete.** -/
theorem complete_of_report? (hasks : setup.Asks asked)
    (h : (start setup telemetry).execute events = some run)
    (hreport : run.report? elapsed = some report) : report.Complete asked := by
  obtain ⟨hstage, hmeta, hsucceeded, -, -, hledger⟩ := report?_eq_some hreport
  have hasksRun : run.setup.Asks asked := setup_of_execute h ▸ hasks
  have haccounted := accounted_of_execute hasks.sound h
  have hpartitioned := haccounted.partitioned hasksRun
  have htotal := haccounted.total_eq hasksRun (unsettled_of_over hstage)
  rw [← hpartitioned.failed, ← hpartitioned.size, ← hsucceeded, ← hledger, ← hmeta] at htotal
  refine ⟨?_, htotal, beq_iff_eq.mpr htotal⟩
  rw [hmeta]
  exact hasksRun.requested_eq_dedup

/-- **The test at the end of a run looks for the reason of every slot that was asked for.** -/
theorem showsUnreachable_iff_ledger (hasks : setup.Asks asked)
    (h : (start setup telemetry).execute events = some run)
    (hreport : run.report? elapsed = some report) :
    run.showsUnreachable report = true ↔
      report.cancelled = false ∧ asked ≠ [] ∧ ∀ slot ∈ asked, ∃ attempts lastError,
        report.ledger.reasonOf? slot = some (.exhaustedRetries attempts lastError) := by
  obtain ⟨hstage, hmeta, hsucceeded, -, -, hledger⟩ := report?_eq_some hreport
  have hasksRun : run.setup.Asks asked := setup_of_execute h ▸ hasks
  have htotals := (resulted_of_execute hasks.sound h).totals_iff_ledger
    (accounted_of_execute hasks.sound h) hasksRun (unsettled_of_over hstage)
  rw [← hmeta, ← hsucceeded, ← hledger] at htotals
  unfold showsUnreachable
  rw [Bool.and_eq_true, Bool.and_eq_true, Bool.and_eq_true, Bool.not_eq_true', decide_eq_true_iff,
    decide_eq_true_iff, decide_eq_true_iff, and_assoc, and_assoc, htotals]

/-- **The test at the end of a run finds out what the message says.** -/
theorem showsUnreachable_iff (hasks : setup.Asks asked)
    (h : (start setup telemetry).execute events = some run)
    (hreport : run.report? elapsed = some report)
    (hbefore : (start setup telemetry).ReportedAfter before events) :
    run.showsUnreachable report = true ↔ Unanswered before asked report.ledger := by
  have hcancelled := hbefore.cancelled_iff h rfl (report?_eq_some hreport).1
  rw [showsUnreachable_iff_ledger hasks h hreport, ← Bool.not_eq_true, hcancelled]
  constructor
  · rintro ⟨hfire, hne, hall⟩
    exact ⟨hfire, hne, hall⟩
  · rintro ⟨hfire, hne, hall⟩
    exact ⟨hfire, hne, hall⟩

/-- A run that tells that the provider cannot be reached has fetched nothing, and exactly what was
asked for has failed. -/
theorem failed_of_showsUnreachable (hasks : setup.Asks asked)
    (h : (start setup telemetry).execute events = some run)
    (hreport : run.report? elapsed = some report) (hshows : run.showsUnreachable report = true) :
    report.succeeded = 0 ∧ report.failed = asked.dedup.length ∧
      ∀ {slot}, slot ∈ report.ledger.slots ↔ slot ∈ asked := by
  obtain ⟨hstage, -, hsucceeded, -, -, hledger⟩ := report?_eq_some hreport
  have hasksRun : run.setup.Asks asked := setup_of_execute h ▸ hasks
  have hnone : report.succeeded = 0 := by
    simp only [showsUnreachable, Bool.and_eq_true, decide_eq_true_iff] at hshows
    exact hshows.1.2
  have hcomplete := complete_of_report? hasks h hreport
  -- Nothing succeeded, so every slot is in the ledger.
  have htotal := hcomplete.total
  rw [hnone, Nat.zero_add, hcomplete.requested] at htotal
  refine ⟨hnone, htotal, fun {slot} => ?_⟩
  rw [hledger]
  exact (accounted_of_execute hasks.sound h).mem_slots_iff hasksRun (unsettled_of_over hstage)
    (hsucceeded ▸ hnone)

/-- **A run tells that the provider cannot be reached exactly if it is so.**  Whatever the setup,
the provider, the sink and the order of events, a run comes to its end, at one moment its report is
written, and this is complete.  It is told as an error exactly if the token had not fired up to that
moment, something was asked for, and every slot that was asked for is in the ledger with its
attempts used up; in every other case it is told as it is.  The error counts all slots that were
asked for, and the ledger of its report holds these slots and no others. -/
theorem unreachable_is_exact (hasks : setup.Asks asked)
    (h : (start setup telemetry).execute events = some run) :
    run.ComesToEnd ∧ ∀ cancelled elapsed, run.stage = .over cancelled →
      (∃ before, (start setup telemetry).ReportedAfter before events) ∧
      ∃ report outcome, run.report? elapsed = some report ∧ report.Complete asked ∧
        run.outcome? elapsed = some outcome ∧
        (∀ before, (start setup telemetry).ReportedAfter before events →
          (outcome = .unreachable report ↔ Unanswered before asked report.ledger) ∧
          (outcome = .complete report ↔ ¬Unanswered before asked report.ledger)) ∧
        (outcome = .unreachable report → outcome.allFailed? = some asked.dedup.length ∧
          report.failed = asked.dedup.length ∧ report.succeeded = 0 ∧
          ∀ slot, slot ∈ report.ledger.slots ↔ slot ∈ asked) := by
  refine ⟨comesToEnd_of_execute hasks h, fun cancelled elapsed hover => ?_⟩
  obtain ⟨report, hreport⟩ : ∃ report, run.report? elapsed = some report := by
    rw [report?, hover]
    exact ⟨_, rfl⟩
  have hcomplete := complete_of_report? hasks h hreport
  have hmoment : ∃ before, (start setup telemetry).ReportedAfter before events :=
    exists_reportedAfter h (fun _ hstart => by simp [start] at hstart) hover
  have houtcome : run.outcome? elapsed = some (if run.showsUnreachable report
      then .unreachable report else .complete report) := by
    rw [outcome?, hreport, Option.map_some]
  refine ⟨hmoment, report, _, hreport, hcomplete, houtcome, fun before hbefore => ?_, ?_⟩
  · -- Which outcome it is was decided by the token at the time of the report.
    rw [← showsUnreachable_iff hasks h hreport hbefore]
    by_cases hshows : run.showsUnreachable report <;> simp [hshows]
  · intro hunreachable
    have hshows : run.showsUnreachable report = true := by
      by_contra hnot
      simp [hnot] at hunreachable
    obtain ⟨hnone, hfailed, hslots⟩ := failed_of_showsUnreachable hasks h hreport hshows
    refine ⟨?_, hfailed, hnone, fun slot => hslots⟩
    rw [hunreachable, RunOutcome.allFailed?, hcomplete.requested]

/-- Two slots time out, one after the other, and the token fires once the report is
written. -/
theorem unreachable_is_exact_fired_too_late :
    let setup := RunSetup.ofRange default false ⟨5, 6⟩ 0
    let late : List Event :=
      [.openCycle, .pool .enqueue, .pool (.take 0), .pool (.attempt 0 .start),
        .pool (.attempt 0 (.finish (.error (.withoutStatus .timeout "late")))), .pool (.report 0),
        .intake, .pool (.leave 0), .closeCycle]
    let events := (late ++ late) ++ [.conclude, .fire]
    setup.Asks [5, 6] ∧ ∃ run report, (start setup .zero).execute events = some run ∧
      run.fired = true ∧ run.outcome? ⟨0⟩ = some (.unreachable report) ∧
      report.Complete [5, 6] ∧ report.failed = 2 := by
  intro setup late events
  have hasks : setup.Asks [5, 6] :=
    @RunSetup.Asks.overRange 5 6 ⟨5, 6⟩ default false 0 (by decide) rfl
  obtain ⟨middle, hmiddle⟩ : ∃ middle, (start setup .zero).execute (late ++ late) = some middle :=
    Option.isSome_iff_exists.mp (by decide)
  obtain ⟨run, hrun⟩ : ∃ run, (start setup .zero).execute events = some run :=
    Option.isSome_iff_exists.mp (by decide)
  have hbetween : ((start setup .zero).execute (late ++ late)).map (fun run =>
      (run.stage, (run.step? .conclude).map (·.stage))) =
        some (.between, some (.over false)) := by decide
  have hend : ((start setup .zero).execute events).map (fun run =>
      (run.stage, run.fired, run.accounts.ledger)) =
        some (.over false, true, ⟨[⟨5, 6, .exhaustedRetries 1 "late"⟩]⟩) := by decide
  rw [hmiddle] at hbetween
  rw [hrun] at hend
  obtain ⟨hstage, hconclude⟩ := Prod.mk.inj (Option.some.inj hbetween)
  obtain ⟨next, hstep, hnext⟩ := Option.map_eq_some_iff.mp hconclude
  obtain ⟨hover, hfired, hspans⟩ : run.stage = .over false ∧ run.fired = true ∧
      run.accounts.ledger = ⟨[⟨5, 6, .exhaustedRetries 1 "late"⟩]⟩ := by simpa using hend
  have hbefore : (start setup .zero).ReportedAfter (late ++ late) events :=
    ⟨.conclude, [.fire], middle, next, rfl, hmiddle, hstage, hstep, false, hnext⟩
  obtain ⟨-, report, outcome, hreport, hcomplete, houtcome, hexact, hunreachable⟩ :=
    (unreachable_is_exact hasks hrun).2 false ⟨0⟩ hover
  obtain ⟨-, -, -, -, -, hledger⟩ := report?_eq_some hreport
  -- The token fires after the run has ended, which no longer matters.
  have hunanswered : Unanswered (late ++ late) [5, 6] report.ledger := by
    refine ⟨by simp [late], by simp, fun slot hslot => ⟨1, "late", ?_⟩⟩
    rw [hledger, hspans]
    rcases List.mem_pair.mp hslot with rfl | rfl <;> decide
  obtain rfl := (hexact _ hbefore).1.mpr hunanswered
  obtain ⟨-, hfailed, -, -⟩ := hunreachable rfl
  exact ⟨hasks, run, report, hrun, hfired, houtcome, hcomplete, hfailed⟩

end Run

end Backfill
