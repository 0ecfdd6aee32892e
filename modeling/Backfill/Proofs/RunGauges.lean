import Backfill.Proofs.PlanTails
import Backfill.Proofs.RunMetrics

/-!
# What the gauges show

The gauges of the active run are set when it starts and whenever a cycle is complete, and nothing
else touches them.  Between two cycles every slot of a complete cycle is settled and no other one
is, so the gauges show the slots of the complete cycles: they never go back, and the percentage,
whose product is held at the largest word, never exceeds a hundred.

Slots are settled on another path as well.  When the token has fired, the cycles that have not been
started are cancelled at once, and the gauges are not set any more.  So at the end they show what
was asked for only if every cycle was started; else they stay behind by the slots of the others.

## Main definitions

* `Telemetry.gauges` — the gauges of the active run.
* `Run.complete` — how many cycles are complete.
* `Run.ShowsProgress` — the gauges show the slots of the complete cycles.

## Main results

* `Telemetry.gauges_tellAll` — what is counted leaves the gauges alone.
* `Run.gauges_step?` — the gauges change with the number of complete cycles only.
* `Run.Accounted.resolved_of_between` — between two cycles, the slots of the complete ones are
  settled.
* `Run.gauges_show_complete_cycles` — **the gauges show the slots of the complete cycles**, at every
  moment and at the end.
* `Run.not_gauge_eq_resolved` — at the end, fewer slots may be shown than were settled.
-/

namespace Backfill

theorem Word.signed_of_lt {n : Nat} (h : n < 2 ^ 63) : signed n = n := if_pos h

namespace Telemetry

/-- The gauges of the active run: the slots that it was asked for, those that are shown as settled,
and their part in per cent. -/
def gauges (telemetry : Telemetry) : Int × Int × Int :=
  (telemetry.metrics.target, telemetry.metrics.resolved, telemetry.metrics.percent)

/-- Whether something told sets the gauges. -/
def Telling.setsGauges : Telling → Bool
  | .startRun _ | .cycle _ _ => true
  | _ => false

/-- **What is counted leaves the gauges alone.** -/
theorem gauges_tellAll {tellings : List Telling} (telemetry : Telemetry)
    (h : ∀ telling ∈ tellings, telling.setsGauges = false) :
    (telemetry.tellAll tellings).gauges = telemetry.gauges := by
  induction tellings generalizing telemetry with
  | nil => rfl
  | cons telling rest ih =>
    rw [tellAll_cons, ih _ fun other hother => h other (List.mem_cons_of_mem _ hother)]
    have hfirst := h telling List.mem_cons_self
    cases telling with
    | startRun | cycle => cases hfirst
    | _ => rfl

theorem setsGauges_entering {failures : List (Nat × FailureReason)} :
    ∀ telling ∈ entering failures, telling.setsGauges = false := by
  intro telling htelling
  obtain ⟨failure, -, rfl⟩ := List.mem_map.mp htelling
  rfl

end Telemetry

namespace Accounts

open Telemetry

theorem gauges_failSlots (accounts : Accounts) (failures : List (Nat × FailureReason)) :
    (accounts.failSlots failures).telemetry.gauges = accounts.telemetry.gauges := by
  rw [telemetry_failSlots]
  exact gauges_tellAll _ setsGauges_entering

theorem gauges_failRanges (accounts : Accounts) (ranges : List SlotRange)
    (reason : FailureReason) :
    (accounts.failRanges ranges reason).telemetry.gauges = accounts.telemetry.gauges := by
  rw [telemetry_failRanges]
  refine gauges_tellAll _ fun telling htelling => ?_
  obtain ⟨range, -, rfl⟩ := List.mem_map.mp htelling
  rfl

theorem gauges_settle (accounts : Accounts) (result : BatchResult) :
    (accounts.settle result).1.telemetry.gauges = accounts.telemetry.gauges := by
  rw [telemetry_settle]
  exact gauges_tellAll _ (List.forall_mem_cons.mpr ⟨rfl, setsGauges_entering⟩)

theorem gauges_deliver (accounts : Accounts) (delivery : Delivery)
    (result : Except DispatchError Unit) :
    (accounts.deliver delivery result).telemetry.gauges = accounts.telemetry.gauges := by
  rw [telemetry_deliver]
  refine gauges_tellAll _ ?_
  cases result with
  | ok =>
    intro telling htelling
    obtain ⟨slot, -, rfl⟩ := List.mem_map.mp htelling
    rfl
  | error error => exact List.forall_mem_cons.mpr ⟨rfl, setsGauges_entering⟩

end Accounts

namespace Run

/-- How many cycles are complete. -/
def complete (run : Run) : Nat :=
  match run.stage with
  | .busy _ => run.next - 1
  | _ => run.next

/-- The gauges are set for a cycle that is complete now. -/
structure Completes (run next : Run) : Prop where
  stage : next.stage = .between
  complete_le : run.complete ≤ next.complete
  gauges : next.accounts.telemetry.gauges = (run.accounts.telemetry.metrics.target,
    Word.signed next.accounts.resolved,
    ((min (percent run.setup next.accounts.resolved) 100 : Nat) : Int))

variable {run next : Run} {event : Event} {notes : List Note}

theorem completes_of_closeCycle? (h : run.closeCycle? = some next) : run.Completes next := by
  unfold closeCycle? at h
  split at h
  · next cycle hstage =>
    split at h
    · obtain rfl := Option.some.inj h
      have htarget := congrArg Prod.fst (run.accounts.gauges_failSlots cycle.lostSlots)
      refine ⟨rfl, ?_, congrArg (·, _) htarget⟩
      simp only [complete, hstage]
      exact Nat.sub_le _ _
    · simp at h
  · simp at h

/-- A transition leaves the gauges alone, unless a cycle ends with it. -/
theorem Move.gauges {note : Option Note} {failures : List (Nat × FailureReason)}
    (h : run.Move note failures next) :
    (next.complete = run.complete ∧
      next.accounts.telemetry.gauges = run.accounts.telemetry.gauges) ∨
    (∃ cycle, run.stage = .busy cycle) ∧ next.stage = .between := by
  -- Opening a cycle moves the index on but leaves the cycle incomplete, so the number shown stays.
  cases h with
  | fire => exact .inl ⟨rfl, rfl⟩
  | openCycle hstage =>
    refine .inl ⟨?_, rfl⟩
    rw [complete, complete, hstage]
    exact Nat.add_sub_cancel run.next 1
  | @pool cycle _ _ signal hstage =>
    refine .inl ⟨?_, ?_⟩
    · rw [complete, complete, hstage]
    · cases signal <;> rfl
  | @intake cycle result _ hstage =>
    refine .inl ⟨?_, run.accounts.gauges_settle result⟩
    rw [complete, complete, hstage]
  | @deliver cycle _ delivery result hstage =>
    refine .inl ⟨?_, run.accounts.gauges_deliver delivery result⟩
    rw [complete, complete, hstage]
  | @closeCycle cycle _ hstage => exact .inr ⟨⟨cycle, hstage⟩, rfl⟩
  | cancelRest hstage =>
    refine .inl ⟨?_, run.accounts.gauges_failRanges _ _⟩
    rw [complete, complete, hstage]
  | conclude hstage =>
    refine .inl ⟨?_, rfl⟩
    rw [complete, complete, hstage]

/-- A cycle ends only when it is closed. -/
theorem eq_closeCycle_of_step? (h : run.step? event = some next) {cycle : CycleState}
    (hstage : run.stage = .busy cycle) (hnext : next.stage = .between) : event = .closeCycle := by
  -- Other events need a run between two cycles, or leave it inside one.
  cases event with
  | closeCycle => rfl
  | openCycle => simp [step?, openCycle?, hstage] at h
  | cancelRest => simp [step?, cancelRest?, hstage] at h
  | conclude => simp [step?, conclude?, hstage] at h
  | fire =>
    simp only [step?] at h
    split at h
    · simp at h
    · obtain rfl := Option.some.inj h
      simp [hstage] at hnext
  | pool event =>
    simp only [step?, pool?, hstage] at h
    obtain ⟨⟨pool, signal⟩, -, rfl⟩ := Option.map_eq_some_iff.mp h
    simp at hnext
  | intake =>
    simp only [step?, intake?, hstage] at h
    obtain ⟨⟨result, pool⟩, -, rfl⟩ := Option.map_eq_some_iff.mp h
    simp at hnext
  | deliver position result =>
    simp only [step?, deliver?, hstage] at h
    split at h
    · split at h
      · simp at h
      · obtain rfl := Option.some.inj h
        simp at hnext
    · simp at h

/-- **The gauges change with the number of complete cycles only.** -/
theorem gauges_step? (h : run.step? event = some next) :
    (next.complete = run.complete ∧
      next.accounts.telemetry.gauges = run.accounts.telemetry.gauges) ∨ run.Completes next := by
  obtain ⟨failures, hmove⟩ := move_of_step? h
  rcases hmove.gauges with hsame | ⟨⟨cycle, hstage⟩, hnext⟩
  · exact .inl hsame
  · obtain rfl := eq_closeCycle_of_step? h hstage hnext
    exact .inr (completes_of_closeCycle? h)

theorem complete_le_of_execute {final : Run} {events : List Event}
    (h : run.execute events = some final) : run.complete ≤ final.complete := by
  refine execute_induct (motive := fun now _ => run.complete ≤ now.complete) h (Nat.le_refl _)
    fun hle hstep => ?_
  rcases gauges_step? hstep with ⟨hcomplete, -⟩ | hcompletes
  · exact hcomplete ▸ hle
  · exact Nat.le_trans hle hcompletes.complete_le

/-! ### Slots that are settled -/

theorem Accounted.resolved_add (h : run.Accounted notes) :
    run.accounts.resolved + run.unsettled.length = run.setup.plan.slotCount := by
  have hlength := h.partition.length_eq
  rw [List.length_append, List.length_append, ← h.succeeded, ← h.failed,
    ← h.orderly.sound.slotCount_eq] at hlength
  exact hlength

/-- **Between two cycles, the slots of the complete ones are settled**, and no others. -/
theorem Accounted.resolved_of_between (h : run.Accounted notes) (hstage : run.stage = .between) :
    run.accounts.resolved = run.setup.plan.cycleStart run.complete := by
  have hsound := h.orderly.sound
  have hadd := h.resolved_add
  have hunsettled : run.unsettled = run.setup.plan.source.slots.drop
      (run.setup.plan.cycleStart run.complete) := by
    rw [hsound.drop_cycleStart]
    simp only [unsettled, ahead, pending, underway, Run.deliveries, complete, hstage,
      List.flatMap_nil, List.append_nil]
  rw [hunsettled, List.length_drop, ← hsound.slotCount_eq] at hadd
  have hle : run.setup.plan.cycleStart run.complete ≤ run.setup.plan.slotCount :=
    Nat.min_le_right ..
  omega

theorem Settling.resolved_le {failures : List (Nat × FailureReason)} {fetched : List Nat}
    (h : Settling run next failures fetched) : run.accounts.resolved ≤ next.accounts.resolved := by
  have hsucceeded := h.accounts.succeeded
  have hfailed := h.accounts.failed
  unfold Accounts.resolved
  omega

theorem percent_mono (setup : RunSetup) {few many : Nat} (h : few ≤ many) :
    percent setup few ≤ percent setup many := by
  refine Nat.div_le_div_right ?_
  rw [Word.clamp_eq_min, Word.clamp_eq_min]
  omega

theorem percent_le {setup : RunSetup} {resolved : Nat} (h : resolved ≤ setup.run.requested) :
    percent setup resolved ≤ 100 := by
  refine Nat.div_le_of_le_mul ?_
  rw [Word.clamp_eq_min]
  have hmax : resolved ≤ max setup.run.requested 1 := Nat.le_trans h (Nat.le_max_left ..)
  omega

/-- The gauges show the slots of the complete cycles, and all of them are settled. -/
structure ShowsProgress (run : Run) : Prop where
  target : run.accounts.telemetry.metrics.target = run.setup.run.requested
  resolved : run.accounts.telemetry.metrics.resolved =
    run.setup.plan.cycleStart run.complete
  percent : run.accounts.telemetry.metrics.percent =
    percent run.setup (run.setup.plan.cycleStart run.complete)
  settled : run.setup.plan.cycleStart run.complete ≤ run.accounts.resolved

variable {setup : RunSetup} {asked : List Nat} {telemetry : Telemetry} {events : List Event}

theorem showsProgress_start (hless : setup.run.requested < 2 ^ 63) (telemetry : Telemetry) :
    (start setup telemetry).ShowsProgress where
  target := Word.signed_of_lt hless
  resolved := by simp [start, complete, Plan.cycleStart]; rfl
  percent := by simp [start, complete, Plan.cycleStart, Run.percent]; rfl
  settled := by simp [start, complete, Plan.cycleStart]

/-- **Every transition keeps the gauges at the slots of the complete cycles.** -/
theorem ShowsProgress.step (h : run.ShowsProgress) (hasks : run.setup.Asks asked)
    (hless : run.setup.run.requested < 2 ^ 63) (haccounted : run.Accounted notes)
    (hstep : run.step? event = some next) : next.ShowsProgress := by
  obtain ⟨failures, hmove⟩ := move_of_step? hstep
  have hsetup := hmove.setup_eq
  rcases gauges_step? hstep with ⟨hcomplete, hgauges⟩ | hcompletes
  · simp only [Telemetry.gauges, Prod.mk.injEq] at hgauges
    obtain ⟨htarget, hresolved, hpercent⟩ := hgauges
    have hle := (haccounted.settling hmove).resolved_le
    exact {
      target := by rw [htarget, hsetup, h.target]
      resolved := by rw [hresolved, hsetup, hcomplete, h.resolved]
      percent := by rw [hpercent, hsetup, hcomplete, h.percent]
      settled := by
        rw [hsetup, hcomplete]
        exact Nat.le_trans h.settled hle }
  · -- what is shown now is what is settled, and these are the slots of the complete cycles
    have hgauges := hcompletes.gauges
    simp only [Telemetry.gauges, Prod.mk.injEq] at hgauges
    obtain ⟨htarget, hresolved, hpercent⟩ := hgauges
    have hsettled := (haccounted.move hmove).resolved_of_between hcompletes.stage
    rw [hsetup] at hsettled
    have hrequested : run.setup.plan.cycleStart next.complete ≤ run.setup.run.requested := by
      rw [hasks.requested_eq, ← hasks.sound.slotCount_eq]
      exact Nat.min_le_right ..
    exact {
      target := by rw [htarget, hsetup, h.target]
      resolved := by
        rw [hresolved, hsetup, hsettled]
        exact Word.signed_of_lt (Nat.lt_of_le_of_lt hrequested hless)
      percent := by rw [hpercent, hsetup, hsettled, Nat.min_eq_left (percent_le hrequested)]
      settled := by rw [hsetup, hsettled] }

/-- What the gauges show at the end of a run. -/
structure ShowsEnd (run : Run) : Prop where
  /-- Every slot is settled then. -/
  settled : run.accounts.resolved = run.setup.run.requested
  /-- Those of the cycles that were never started are missing from the gauge. -/
  missing : run.accounts.telemetry.metrics.resolved +
    ((run.setup.plan.tailRanges run.next).flatMap SlotRange.slots).length =
      run.setup.run.requested
  /-- So it shows all of them just if there are no such cycles. -/
  eq_iff : run.accounts.telemetry.metrics.resolved = run.setup.run.requested ↔
    run.setup.plan.cycleCount ≤ run.next

theorem ShowsProgress.atEnd (h : run.ShowsProgress) (hasks : run.setup.Asks asked)
    (haccounted : run.Accounted notes) {cancelled : Bool} (hstage : run.stage = .over cancelled) :
    run.ShowsEnd := by
  have hsound := hasks.sound
  have hcomplete : run.complete = run.next := by rw [complete, hstage]
  have hadd := haccounted.resolved_add
  rw [unsettled_of_over hstage, List.length_nil, Nat.add_zero] at hadd
  have hrequested : run.setup.plan.slotCount = run.setup.run.requested := by
    rw [hasks.requested_eq, hsound.slotCount_eq]
  -- Nothing is unsettled at the end: what the gauge does not show are the slots of the tail.
  have hleft : ((run.setup.plan.tailRanges run.next).flatMap SlotRange.slots).length =
      run.setup.plan.slotCount - run.setup.plan.cycleStart run.next := by
    rw [(hsound.flatMap_slots_tailRanges run.next).length_eq, ← hsound.drop_cycleStart,
      List.length_drop, ← hsound.slotCount_eq]
  have hle : run.setup.plan.cycleStart run.next ≤ run.setup.plan.slotCount := Nat.min_le_right ..
  have hstarted := hsound.cycleStart_lt_iff run.next
  have hshown := h.resolved
  rw [hcomplete] at hshown
  refine ⟨hadd.trans hrequested, ?_, ?_⟩ <;> rw [hshown] <;> omega

/-- **The gauges show the slots of the complete cycles.**  Whatever the provider, the sink, the
workers and the token do and in whatever order: at every moment of a run the gauges show the slots
of the cycles that are complete and their part in per cent, which is never more than a hundred, and
from a moment to a later one they never go back.  When the run is over, they stay behind what was
asked for, all of which is settled, by the slots of the cycles that were never started. -/
theorem gauges_show_complete_cycles {now : Run} {early later : List Event}
    (hasks : setup.Asks asked) (hless : setup.run.requested < 2 ^ 63)
    (hearly : (start setup telemetry).execute early = some now)
    (hlater : now.execute later = some run) :
    run.ShowsProgress ∧ run.accounts.telemetry.metrics.percent ≤ 100 ∧
      now.accounts.telemetry.metrics.resolved ≤ run.accounts.telemetry.metrics.resolved ∧
      now.accounts.telemetry.metrics.percent ≤ run.accounts.telemetry.metrics.percent ∧
      ∀ elapsed outcome, run.outcome? elapsed = some outcome → run.ShowsEnd := by
  have hshows : ∀ {events : List Event} {final : Run},
      (start setup telemetry).execute events = some final →
        final.Accounted ((start setup telemetry).notes events) ∧ final.ShowsProgress := by
    intro events final hfinal
    refine (execute_induct (motive := fun now told => now.setup = setup ∧ now.Accounted told ∧
      now.ShowsProgress) hfinal ⟨rfl, accounted_start hasks.sound telemetry,
        showsProgress_start hless telemetry⟩ ?_).2
    rintro before after event told ⟨rfl, haccounted, hbefore⟩ hstep
    obtain ⟨failures, hmove⟩ := move_of_step? hstep
    exact ⟨hmove.setup_eq, haccounted.move hmove, hbefore.step hasks hless haccounted hstep⟩
  have hrun : (start setup telemetry).execute (early ++ later) = some run := by
    rw [execute_append, hearly]
    exact hlater
  obtain ⟨-, hnow⟩ := hshows hearly
  obtain ⟨haccounted, hprogress⟩ := hshows hrun
  obtain rfl := setup_of_execute hrun
  -- the plan is the same at both moments, and at the later one as many cycles are complete or more
  have hsetup := setup_eq_of_execute hlater
  have hstarts : now.setup.plan.cycleStart now.complete ≤
      run.setup.plan.cycleStart run.complete := by
    rw [← hsetup]
    have hcomplete := complete_le_of_execute hlater
    unfold Plan.cycleStart
    gcongr
  have hrequested : run.setup.plan.cycleStart run.complete ≤ run.setup.run.requested := by
    rw [hasks.requested_eq, ← hasks.sound.slotCount_eq]
    exact Nat.min_le_right ..
  refine ⟨hprogress, ?_, ?_, ?_, fun elapsed outcome houtcome => ?_⟩
  · rw [hprogress.percent]
    exact Int.ofNat_le.mpr (percent_le hrequested)
  · rw [hnow.resolved, hprogress.resolved]
    exact Int.ofNat_le.mpr hstarts
  · rw [hnow.percent, hprogress.percent, ← hsetup]
    rw [← hsetup] at hstarts
    exact Int.ofNat_le.mpr (percent_mono run.setup hstarts)
  · obtain ⟨⟨cancelled, hstage⟩, -⟩ := outcome?_eq_some houtcome
    exact hprogress.atEnd hasks haccounted hstage

/-- Two of three slots are fetched in a cycle each, and the token fires before the third one is
asked for. -/
theorem gauges_show_complete_cycles_two_of_three :
    let setup := RunSetup.ofRange default false ⟨5, 7⟩ 0
    let fetching (slot : Nat) : List Event :=
      [.openCycle, .pool .enqueue, .pool (.take 0), .pool (.attempt 0 .start),
        .pool (.attempt 0 (.finish (.ok [(slot, .fetched .null)]))), .pool (.report 0), .intake,
        .deliver 0 (.ok ()), .pool (.leave 0), .closeCycle]
    let told (run : Run) : Int × Int × Int := run.accounts.telemetry.gauges
    ∃ now run, (start setup .zero).execute (fetching 5) = some now ∧
      now.execute (fetching 6 ++ [.fire, .cancelRest]) = some run ∧
      now.ShowsProgress ∧ run.ShowsProgress ∧ run.ShowsEnd ∧
      told now = (3, 1, 33) ∧ told run = (3, 2, 66) ∧ run.accounts.resolved = 3 := by
  intro setup fetching told
  have hasks : setup.Asks [5, 6, 7] :=
    @RunSetup.Asks.overRange 5 7 ⟨5, 7⟩ default false 0 (by decide) rfl
  obtain ⟨now, hnow⟩ : ∃ now, (start setup .zero).execute (fetching 5) = some now :=
    Option.isSome_iff_exists.mp (by decide)
  have htold : ((start setup .zero).execute (fetching 5)).map (fun now =>
      (told now, (now.execute (fetching 6 ++ [.fire, .cancelRest])).map fun run =>
        (told run, run.accounts.resolved, (run.outcome? ⟨0⟩).isSome))) =
      some ((3, 1, 33), some ((3, 2, 66), 3, true)) := by decide
  rw [hnow] at htold
  obtain ⟨hbefore, hrest⟩ := Prod.mk.inj (Option.some.inj htold)
  obtain ⟨run, hrun, hafter⟩ := Option.map_eq_some_iff.mp hrest
  obtain ⟨hshown, hend⟩ := Prod.mk.inj hafter
  obtain ⟨hresolved, hover⟩ := Prod.mk.inj hend
  obtain ⟨outcome, houtcome⟩ := Option.isSome_iff_exists.mp hover
  -- Looked at after the first cycle, and again after the second when the token has fired.
  have hearly := gauges_show_complete_cycles hasks (by decide) hnow (execute_nil now)
  have hlater := gauges_show_complete_cycles hasks (by decide) hnow hrun
  exact ⟨now, run, hnow, hrun, hearly.1, hlater.1, hlater.2.2.2.2 _ _ houtcome, hbefore, hshown,
    hresolved⟩

/-- At the end, fewer slots may be shown than were settled.  When the token fires before the first
cycle is started, the metrics are told of the start and of the slots that are cancelled, and of
nothing else. -/
theorem not_gauge_eq_resolved :
    (∃ run outcome, (start (RunSetup.ofRange default false ⟨0, 1⟩ 0) .zero).execute
        [.fire, .cancelRest] = some run ∧ run.outcome? ⟨0⟩ = some outcome ∧
      run.accounts.telemetry.metrics = (Metrics.zero.startRun 2).addFailed .cancelled 2 ∧
      run.accounts.resolved = 2 ∧ run.accounts.telemetry.metrics.resolved = 0) ∧
    ¬∀ (setup : RunSetup) (asked : List Nat) (telemetry : Telemetry) (events : List Event)
      (run : Run) (elapsed : Elapsed) (outcome : RunOutcome), setup.Asks asked →
      setup.run.requested < 2 ^ 63 → (start setup telemetry).execute events = some run →
      run.outcome? elapsed = some outcome →
      run.accounts.telemetry.metrics.resolved = run.setup.run.requested := by
  -- The token fires before the first cycle: both slots are settled, and the gauge still shows none.
  refine ⟨⟨_, _, rfl, rfl, by decide, by decide, rfl⟩, fun hall => ?_⟩
  have hasks : (RunSetup.ofRange default false ⟨0, 1⟩ 0).Asks [0, 1] :=
    @RunSetup.Asks.overRange 0 1 ⟨0, 1⟩ default false 0 (by decide) rfl
  have hnone : (0 : Int) = (2 : Nat) :=
    hall _ _ .zero [.fire, .cancelRest] _ ⟨0⟩ _ hasks (by decide) rfl rfl
  exact absurd hnone (by decide)

end Run

end Backfill
