import Backfill.Proofs.LedgerCanonical
import Backfill.Proofs.PlanPartition
import Backfill.Proofs.RunCancellation
import Backfill.Proofs.RunInFlight

/-!
# The spans that a cancellation leaves

When the token fires, some batches of the open cycle are done and others are cut off, in any order,
and all cycles behind it are cancelled.  Every cycle before it is settled.  So the cancelled batches
are all behind the last cycle, apart from those inside it, and where the batches of a range are
cancelled next to each other, their slots are one run of the ledger's map.  A span of the ledger
therefore begins where cancelled batches begin: at a batch that is cancelled, behind one that is
not.  Two such places are never side by side, and all of them are in the last cycle or just behind
it, which leaves room for one of them in every two batches of a cycle, and one more.

## Main definitions

* `IsCancelled` — a batch was cut off, or its cycle was not started.
* `OnlyCancellations` — nothing failed but the slots of such batches.
* `Begins` — cancelled batches begin at a position.
* `Run.Sequenced` — cycles are started in turn, and only batches of the last one are cut off.

## Main results

* `Run.sequenced_of_execute` — every run is sequenced.
* `Run.Sequenced.bounds_of_begins` — **cancelled batches begin in the last cycle or just behind
  it.**
* `Plan.Sized.exists_begins` — a span begins where cancelled batches begin.
* `Run.cancelled_spans_le` — **the spans of a cancelled run are as few as that**, for every range.
-/

namespace Backfill

/-! ### Positions -/

/-- Places in a window that are never side by side are at most every second one. -/
theorem length_le_of_apart {places : List Nat} (hapart : places.Nodup) {first width : Nat}
    (hwindow : ∀ place ∈ places, first ≤ place ∧ place ≤ first + width)
    (hnext : ∀ place ∈ places, place + 1 ∉ places) : places.length ≤ width / 2 + 1 := by
  -- two places in one pair would be side by side
  have hnodup : (places.map fun place => (place - first) / 2).Nodup := by
    refine hapart.map_on fun left hleft right hright hpair => ?_
    have hinLeft := hwindow left hleft
    have hinRight := hwindow right hright
    have hnotRight : right ≠ left + 1 := fun heq => hnext left hleft (heq ▸ hright)
    have hnotLeft : left ≠ right + 1 := fun heq => hnext right hright (heq ▸ hleft)
    omega
  have hsubset : (places.map fun place => (place - first) / 2) ⊆ List.range (width / 2 + 1) := by
    intro pair hpair
    obtain ⟨place, hplace, rfl⟩ := List.mem_map.mp hpair
    have hin := hwindow place hplace
    exact List.mem_range.mpr (by omega)
  have hle := (List.subperm_of_subset hnodup hsubset).length_le
  rwa [List.length_map, List.length_range] at hle

namespace SlotSource

variable {range : SlotRange} {position slot : Nat}

theorem getElem?_ascending : (span range .ascending).slots[position]? = some slot ↔
    slot = range.first + position ∧ slot ≤ range.last := by
  simp only [slots, SlotRange.slots, List.getElem?_eq_some_iff, List.length_range',
    List.getElem_range', exists_prop]
  omega

theorem getElem?_descending : (span range .descending).slots[position]? = some slot ↔
    slot + position = range.last ∧ range.first ≤ slot := by
  simp only [slots, SlotRange.slots, List.getElem?_eq_some_iff, List.length_reverse,
    List.length_range', List.getElem_reverse, List.getElem_range', exists_prop]
  omega

theorem mem_slots_span {order : ScanOrder} :
    slot ∈ (span range order).slots ↔ range.first ≤ slot ∧ slot ≤ range.last := by
  cases order with
  | ascending => exact SlotRange.mem_slots
  | descending => exact List.mem_reverse.trans SlotRange.mem_slots

/-- **A run of a map begins somewhere in the range**, whichever way this is walked: the slot there
is in the run, and the one before it has another reason. -/
theorem exists_beginning (order : ScanOrder) {reason? : Nat → Option FailureReason} {run : Span}
    (hrun : run.IsRun reason?) (hfirst : range.first ≤ run.first) (hlast : run.last ≤ range.last) :
    ∃ position slot, (span range order).slots[position]? = some slot ∧
      (run.first ≤ slot ∧ slot ≤ run.last) ∧ ∀ before other, before + 1 = position →
        (span range order).slots[before]? = some other → reason? other ≠ some run.reason := by
  have hnonempty := hrun.nonempty
  -- a maximal run begins at its lower end when slots ascend, at its upper end when they descend
  cases order with
  | ascending =>
    simp only [getElem?_ascending]
    refine ⟨run.first - range.first, run.first, by omega, by omega, ?_⟩
    exact fun before other hnext hat => hrun.before other (by omega)
  | descending =>
    simp only [getElem?_descending]
    refine ⟨range.last - run.last, run.last, by omega, by omega, ?_⟩
    intro before other hnext hat
    obtain rfl : other = run.last + 1 := by omega
    exact hrun.behind

end SlotSource

namespace Plan

variable {plan : Plan} {index number position slot : Nat} {cycle : Cycle}

/-- The batch at a position is in the cycle that its number says. -/
theorem Sized.batchAt_mem_cycle (h : plan.Sized) (hcycle : plan.cycle? index = some cycle) :
    plan.batchAt number ∈ cycle.batches ↔
      number < plan.batchCount ∧ number / plan.batchesPerCycle = index := by
  have hone := h.one_le_batchesPerCycle
  -- a batch carries its own position, so it is found at no other
  have hbatch : ∀ other, plan.batch? other = some (plan.batchAt number) ↔
      other < plan.batchCount ∧ number = other := by
    intro other
    rw [h.batch?_eq_some]
    refine and_congr_right fun _ => ⟨fun heq => congrArg Batch.index heq, fun heq => heq ▸ rfl⟩
  simp only [cycle?, Option.ite_none_right_eq_some, Option.some.injEq] at hcycle
  obtain ⟨hfirst, rfl⟩ := hcycle
  simp only [List.mem_filterMap, hbatch, List.mem_range'_1, Nat.div_eq_iff hone]
  constructor
  · rintro ⟨other, hin, hother, rfl⟩
    omega
  · intro hin
    exact ⟨number, by omega, hin.1, rfl⟩

theorem Sized.exists_cycle (h : plan.Sized) (hnumber : number < plan.batchCount) :
    ∃ cycle, plan.cycle? (number / plan.batchesPerCycle) = some cycle ∧
      plan.batchAt number ∈ cycle.batches := by
  have hdiv := Nat.div_mul_le_self number plan.batchesPerCycle
  have hindex : number / plan.batchesPerCycle < plan.cycleCount :=
    (lt_ceilDiv h.one_le_batchesPerCycle).mpr (Nat.lt_of_le_of_lt hdiv hnumber)
  exact ⟨_, h.cycle?_eq hindex, (h.batchAt_mem_cycle (h.cycle?_eq hindex)).mpr ⟨hnumber, rfl⟩⟩

/-- The slot at a position is in the batch that the position says. -/
theorem Sized.mem_batchAt (h : plan.Sized) (hslot : plan.source.slots[position]? = some slot) :
    position / plan.batchSize < plan.batchCount ∧
      slot ∈ (plan.batchAt (position / plan.batchSize)).slots := by
  have hone := h.one_le_batchSize
  obtain ⟨hposition, -⟩ := List.getElem?_eq_some_iff.mp hslot
  have hdiv := Nat.div_mul_le_self position plan.batchSize
  refine ⟨?_, ?_⟩
  · rw [batchCount, h.slotCount_eq, lt_ceilDiv hone]
    omega
  · have hat := Nat.div_add_mod' position plan.batchSize
    have hmod := Nat.mod_lt position hone
    refine List.mem_of_getElem? (i := position % plan.batchSize) ?_
    rw [batchAt, List.getElem?_take_of_lt hmod, List.getElem?_drop, hat, hslot]

theorem Sized.batchAt_mem (h : plan.Sized) (hnumber : number < plan.batchCount) :
    plan.batchAt number ∈ plan.batches := by
  rw [h.batches_eq]
  exact List.mem_map.mpr ⟨number, List.mem_range.mpr hnumber, rfl⟩

end Plan

/-! ### What a run has cancelled -/

/-- The batch was cut off, or its cycle was not started. -/
def IsCancelled (notes : List Note) (batch : Batch) : Prop :=
  .cut batch ∈ notes ∨ ∀ cycle, .opened cycle ∈ notes → batch ∉ cycle.batches

/-- The only failures in the ledger are those of cancelled batches. -/
def OnlyCancellations (plan : Plan) (notes : List Note) (ledger : Ledger) : Prop :=
  ∀ batch ∈ plan.batches, ∀ slot ∈ batch.slots, (ledger.reasonOf? slot).isSome →
    IsCancelled notes batch

/-- Cancelled batches begin at the position: the batch there is cancelled, and the one before it is
not. -/
structure Begins (plan : Plan) (notes : List Note) (number : Nat) : Prop where
  inside : number < plan.batchCount
  cancelled : IsCancelled notes (plan.batchAt number)
  before : ∀ earlier, earlier + 1 = number → ¬IsCancelled notes (plan.batchAt earlier)

namespace Run

variable {run next : Run} {note : Option Note} {notes : List Note}
  {failures : List (Nat × FailureReason)} {setup : RunSetup} {telemetry : Telemetry}
  {events : List Event}

theorem reasonOf?_of_isCancelled (hexplained : run.Explained notes) (htraced : run.Traced notes)
    {batch : Batch} (hbatch : batch ∈ run.setup.plan.batches) {slot : Nat}
    (hslot : slot ∈ batch.slots) (hsettled : slot ∉ run.unsettled)
    (hcancelled : IsCancelled notes batch) :
    run.accounts.ledger.reasonOf? slot = some .cancelled := by
  rw [hexplained.settled batch hbatch slot hslot hsettled,
    reasonFor_eq_some_iff (.inl ⟨rfl, rfl⟩)]
  exact .inl ((htraced.fate_eq_cancelled batch).mpr hcancelled)

/-! ### Cycles are started in turn -/

/-- The cycles are started in turn, and what is cut off is in the one that was started last. -/
structure Sequenced (run : Run) (notes : List Note) : Prop where
  opened : ∀ cycle, .opened cycle ∈ notes ↔
    ∃ index < run.next, run.setup.plan.cycle? index = some cycle
  cut : ∀ batch, .cut batch ∈ notes → ∃ planned,
    run.setup.plan.cycle? (run.next - 1) = some planned ∧ batch ∈ planned.batches

theorem sequenced_start (setup : RunSetup) (telemetry : Telemetry) :
    (start setup telemetry).Sequenced [] where
  opened := by simp [start]
  cut := by simp

namespace Sequenced

theorem keep (h : run.Sequenced notes) (hsetup : next.setup = run.setup)
    (hnext : next.next = run.next)
    (hquiet : ∀ told ∈ note.toList, ¬told.opens ∧ ¬told.cuts) :
    next.Sequenced (notes ++ note.toList) where
  opened cycle := by
    rw [hsetup, hnext, ← h.opened, List.mem_append, or_iff_left fun htold =>
      (hquiet _ htold).1 rfl]
  cut batch hcut := by
    rw [hsetup, hnext]
    rw [List.mem_append, or_iff_left fun htold => (hquiet _ htold).2 rfl] at hcut
    exact h.cut batch hcut

/-- **Every move keeps a run sequenced.**  A cycle is started only before the token has fired, and
then nothing has been cut off. -/
theorem move (h : run.Sequenced notes) (horderly : run.Orderly) (hconfined : run.Confined)
    (htraced : run.Traced notes) (hmove : run.Move note failures next) :
    next.Sequenced (notes ++ note.toList) := by
  cases hmove with
  | fire | closeCycle | cancelRest | conclude => exact h.keep rfl rfl (by simp)
  | intake | deliver => exact h.keep rfl rfl (by simp [Note.opens, Note.cuts])
  | @openCycle planned _ hunfired hplanned =>
    constructor
    · intro cycle
      simp only [Option.toList_some, List.mem_append, List.mem_singleton, Note.opened.injEq,
        h.opened, Nat.lt_succ_iff_lt_or_eq]
      constructor
      · rintro (⟨index, hindex, hcycle⟩ | rfl)
        · exact ⟨index, .inl hindex, hcycle⟩
        · exact ⟨run.next, .inr rfl, hplanned⟩
      · rintro ⟨index, hindex | rfl, hcycle⟩
        · exact .inl ⟨index, hindex, hcycle⟩
        · exact .inr (Option.some.inj (hcycle.symm.trans hplanned))
    · intro batch hcut
      have hold : .cut batch ∈ notes := by simpa using hcut
      rw [htraced.fired batch hold] at hunfired
      exact absurd hunfired (by simp)
  | @pool cycle event pool signal hstage hpool =>
    obtain ⟨planned, hplanned, hpending, -⟩ := hconfined cycle hstage
    have hshift := Pool.shift_of_step? hpool
    constructor
    · intro other
      rw [← h.opened, List.mem_append, or_iff_left]
      intro htold
      obtain ⟨batch, -, hbatch⟩ := hshift.exists_batch htold
      simp [Note.batch?] at hbatch
    · intro batch hcut
      rcases List.mem_append.mp hcut with hold | hnew
      · exact h.cut batch hold
      · -- what a worker cuts off is in the pool of the open cycle
        obtain ⟨other, hother, hbatch⟩ := hshift.exists_batch hnew
        obtain rfl := Option.some.inj hbatch
        have hpooled := horderly.pooled.subset
        simp only [pooled, pending, hstage] at hpooled
        exact ⟨planned, hplanned, hpending (hpooled hother)⟩

end Sequenced

/-- **Every run is sequenced.** -/
theorem sequenced_of_execute (hsound : setup.plan.Sound)
    (h : (start setup telemetry).execute events = some run) :
    run.Sequenced ((start setup telemetry).notes events) := by
  refine (execute_induct (motive := fun now notes => now.Explained notes ∧ now.Traced notes ∧
    now.Confined ∧ now.Sequenced notes) h ⟨explained_start hsound telemetry, .start setup telemetry,
      fun cycle hstage => by simp [start] at hstage, sequenced_start setup telemetry⟩
    fun ⟨hexplained, htraced, hconfined, hsequenced⟩ hstep => ?_).2.2.2
  obtain ⟨failures, hmove⟩ := move_of_step? hstep
  have horderly := hexplained.accounted.orderly
  exact ⟨hexplained.move hmove, htraced.move hexplained hmove, hconfined.move horderly hmove,
    hsequenced.move horderly hconfined htraced hmove⟩

/-! ### Where cancelled batches begin -/

namespace Sequenced

variable {number : Nat}

theorem le_of_isCancelled (h : run.Sequenced notes) (hsound : run.setup.plan.Sound)
    (hnumber : number < run.setup.plan.batchCount)
    (hcancelled : IsCancelled notes (run.setup.plan.batchAt number)) :
    (run.next - 1) * run.setup.plan.batchesPerCycle ≤ number := by
  rw [← Nat.le_div_iff_mul_le hsound.one_le_batchesPerCycle]
  rcases hcancelled with hcut | hunopened
  · obtain ⟨planned, hplanned, hmem⟩ := h.cut _ hcut
    exact Nat.le_of_eq ((hsound.batchAt_mem_cycle hplanned).mp hmem).2.symm
  · by_contra hearlier
    obtain ⟨cycle, hcycle, hmem⟩ := hsound.exists_cycle hnumber
    refine hunopened cycle ((h.opened cycle).mpr ⟨_, by omega, hcycle⟩) hmem

theorem isCancelled_of_le (h : run.Sequenced notes) (hsound : run.setup.plan.Sound)
    (hle : run.next * run.setup.plan.batchesPerCycle ≤ number) :
    IsCancelled notes (run.setup.plan.batchAt number) := by
  rw [← Nat.le_div_iff_mul_le hsound.one_le_batchesPerCycle] at hle
  refine .inr fun cycle hopened hmem => ?_
  obtain ⟨index, hindex, hcycle⟩ := (h.opened cycle).mp hopened
  have hat := ((hsound.batchAt_mem_cycle hcycle).mp hmem).2
  omega

/-- **Cancelled batches begin in the cycle that was started last, or just behind it.** -/
theorem bounds_of_begins (h : run.Sequenced notes) (hsound : run.setup.plan.Sound)
    (hbegins : Begins run.setup.plan notes number) :
    (run.next - 1) * run.setup.plan.batchesPerCycle ≤ number ∧
      number ≤
        (run.next - 1) * run.setup.plan.batchesPerCycle + run.setup.plan.batchesPerCycle := by
  refine ⟨h.le_of_isCancelled hsound hbegins.inside hbegins.cancelled, ?_⟩
  by_contra hbehind
  -- the batch before it is behind that cycle as well
  refine hbegins.before (number - 1) (by omega) (h.isCancelled_of_le hsound ?_)
  have hnext : run.next ≤ run.next - 1 + 1 := by omega
  have hmul := Nat.mul_le_mul_right run.setup.plan.batchesPerCycle hnext
  rw [Nat.add_mul, Nat.one_mul] at hmul
  omega

end Sequenced

end Run

namespace Plan

variable {plan : Plan} {notes : List Note} {ledger : Ledger} {range : SlotRange} {order : ScanOrder}

/-- **A span begins where cancelled batches begin**, if the ledger holds the slots of the cancelled
batches and no others. -/
theorem Sized.exists_begins (h : plan.Sized) (hsource : plan.source = .span range order)
    (hcancelled : ∀ batch ∈ plan.batches, ∀ slot ∈ batch.slots,
      ledger.reasonOf? slot = some .cancelled ↔ IsCancelled notes batch)
    {span : Span} (hrun : span.IsRun ledger.reasonOf?) (hreason : span.reason = .cancelled)
    (hfirst : range.first ≤ span.first) (hlast : span.last ≤ range.last) :
    ∃ number, Begins plan notes number ∧ ∃ slot, (span.first ≤ slot ∧ slot ≤ span.last) ∧
      plan.source.slots[number * plan.batchSize]? = some slot := by
  obtain ⟨position, slot, hat, hin, hbefore⟩ := SlotSource.exists_beginning order hrun hfirst hlast
  rw [← hsource] at hat hbefore
  rw [hreason] at hbefore
  have hwithin : ∀ {position slot : Nat}, plan.source.slots[position]? = some slot →
      (ledger.reasonOf? slot = some .cancelled ↔
        IsCancelled notes (plan.batchAt (position / plan.batchSize))) := by
    intro position slot hat
    obtain ⟨hinside, hmem⟩ := h.mem_batchAt hat
    exact hcancelled _ (h.batchAt_mem hinside) slot hmem
  have hinside := (h.mem_batchAt hat).1
  have hhere := (hwithin hat).mp (hreason ▸ hrun.inside slot hin.1 hin.2)
  cases position with
  | zero =>
    rw [Nat.zero_div] at hinside hhere
    exact ⟨0, ⟨hinside, hhere, by simp⟩, slot, hin, by rwa [Nat.zero_mul]⟩
  | succ before =>
    -- the slot before it is in a batch that is not cancelled
    have hnot : ¬IsCancelled notes (plan.batchAt (before / plan.batchSize)) := by
      obtain ⟨hposition, -⟩ := List.getElem?_eq_some_iff.mp hat
      have hother := List.getElem?_eq_getElem (Nat.lt_of_succ_lt hposition)
      exact mt (hwithin hother).mpr (hbefore before _ rfl hother)
    have hdvd : plan.batchSize ∣ before + 1 := by
      by_contra hinner
      exact hnot (Nat.succ_div_of_not_dvd hinner ▸ hhere)
    refine ⟨(before + 1) / plan.batchSize, ⟨hinside, hhere, fun earlier hearlier => ?_⟩, slot, hin,
      (Nat.div_mul_cancel hdvd).symm ▸ hat⟩
    rw [Nat.succ_div_of_dvd hdvd, Nat.add_right_cancel_iff] at hearlier
    exact hearlier ▸ hnot

end Plan

namespace Run

variable {run : Run} {notes : List Note} {telemetry : Telemetry} {events : List Event}

/-! ### A run that is over -/

theorem eq_cancelled_of_onlyCancellations (hexplained : run.Explained notes)
    (htraced : run.Traced notes)
    (honly : OnlyCancellations run.setup.plan notes run.accounts.ledger) {slot : Nat}
    {reason : FailureReason} (hreason : run.accounts.ledger.reasonOf? slot = some reason) :
    reason = .cancelled := by
  obtain ⟨batch, hbatch, hslot, hsettled⟩ := hexplained.accounted.exists_batch hreason
  have hcancelled := honly batch hbatch slot hslot (Option.isSome_of_eq_some hreason)
  rw [reasonOf?_of_isCancelled hexplained htraced hbatch hslot hsettled hcancelled] at hreason
  exact (Option.some.inj hreason).symm

/-- Every span of the ledger begins where cancelled batches begin. -/
theorem exists_begins_of_mem_spans (hexplained : run.Explained notes) (htraced : run.Traced notes)
    (hmerged : run.accounts.ledger.Merged) (hover : run.unsettled = []) {range : SlotRange}
    {order : ScanOrder} (hsource : run.setup.plan.source = .span range order)
    (honly : OnlyCancellations run.setup.plan notes run.accounts.ledger) {span : Span}
    (hspan : span ∈ run.accounts.ledger.spans) :
    ∃ number, Begins run.setup.plan notes number ∧ ∃ slot,
      (span.first ≤ slot ∧ slot ≤ span.last) ∧
        run.setup.plan.source.slots[number * run.setup.plan.batchSize]? = some slot := by
  have hsound := hexplained.accounted.orderly.sound
  have hrun := hmerged.isRun hspan
  -- in the plan as in the ledger, the cancelled slots are those of the cancelled batches
  have hcancelled : ∀ batch ∈ run.setup.plan.batches, ∀ slot ∈ batch.slots,
      run.accounts.ledger.reasonOf? slot = some .cancelled ↔ IsCancelled notes batch := by
    intro batch hbatch slot hslot
    refine ⟨fun hreason => honly batch hbatch slot hslot (Option.isSome_of_eq_some hreason), ?_⟩
    exact reasonOf?_of_isCancelled hexplained htraced hbatch hslot (by simp [hover])
  -- the span is a run of the ledger, so all of it lies in the range that was asked for
  have hin : ∀ slot, span.first ≤ slot → slot ≤ span.last →
      range.first ≤ slot ∧ slot ≤ range.last := by
    intro slot hfirst hlast
    obtain ⟨batch, hbatch, hslot, -⟩ :=
      hexplained.accounted.exists_batch (hrun.inside slot hfirst hlast)
    exact SlotSource.mem_slots_span.mp (hsource ▸ hsound.mem_slots.mpr ⟨batch, hbatch, hslot⟩)
  have hreason := eq_cancelled_of_onlyCancellations hexplained htraced honly
    (hrun.inside span.first (Nat.le_refl _) hrun.nonempty)
  exact hsound.exists_begins hsource hcancelled hrun hreason
    (hin span.first (Nat.le_refl _) hrun.nonempty).1 (hin span.last hrun.nonempty (Nat.le_refl _)).2

/-- **A span for every two batches of a cycle, and one more**, is all that cancellations leave of a
range. -/
theorem spanCount_le_of_onlyCancellations (hexplained : run.Explained notes)
    (htraced : run.Traced notes) (hsequenced : run.Sequenced notes)
    (hmerged : run.accounts.ledger.Merged) (hover : run.unsettled = []) {range : SlotRange}
    {order : ScanOrder} (hsource : run.setup.plan.source = .span range order)
    (honly : OnlyCancellations run.setup.plan notes run.accounts.ledger) :
    run.accounts.ledger.spanCount ≤ run.setup.plan.batchesPerCycle / 2 + 1 := by
  have hbegin := fun span => @exists_begins_of_mem_spans run notes hexplained htraced hmerged hover
    range order hsource honly span
  choose! number hbegins slot hin hat using hbegin
  have hplaces : ∀ place ∈ run.accounts.ledger.spans.map number,
      Begins run.setup.plan notes place := by
    intro place hplace
    obtain ⟨span, hspan, rfl⟩ := List.mem_map.mp hplace
    exact hbegins span hspan
  have hwindow := fun place hplace =>
    hsequenced.bounds_of_begins hexplained.accounted.orderly.sound (hplaces place hplace)
  -- spans that begin at one place have a slot in common
  have hnodup : (run.accounts.ledger.spans.map number).Nodup := by
    refine List.pairwise_map.mpr (hmerged.pairwise.imp_of_mem ?_)
    intro left right hleft hright hlt hsame
    have hslot : slot left = slot right :=
      Option.some.inj ((hat left hleft).symm.trans (hsame ▸ hat right hright))
    have hinLeft := hin left hleft
    have hinRight := hin right hright
    omega
  rw [Ledger.spanCount, ← List.length_map number]
  refine length_le_of_apart hnodup hwindow fun place hplace hnext => ?_
  exact (hplaces _ hnext).before place rfl (hplaces place hplace).cancelled

/-! ### A whole run -/

/-- **What a cancellation leaves is small.**  A run over any range, in either direction, with any
sizes, workers and capacity, in which the token may fire at any moment, reports at most one span for
every two batches of a cycle, and one more, if the only failures are those of cancelled batches.
With a client that itself cancels nothing, these are the runs whose ledger has no other reason. -/
theorem cancelled_spans_le {settings : Settings} {hasSink : Bool} {first last : Nat}
    {range : SlotRange} {startedAt : Int} {elapsed : Elapsed} {outcome : RunOutcome}
    (hlast : last ≤ Word.max) (hrange : SlotRange.ofBounds first last = .ok range)
    (h : (start (.ofRange settings hasSink range startedAt) telemetry).execute events = some run)
    (houtcome : run.outcome? elapsed = some outcome) :
    let setup := RunSetup.ofRange settings hasSink range startedAt
    let notes := (start setup telemetry).notes events
    let ledger := outcome.report.ledger
    (OnlyCancellations setup.plan notes ledger →
        ledger.spanCount ≤ max settings.batchesPerCycle 1 / 2 + 1) ∧
      (NeverAnswers (.failed .cancelled) notes → (OnlyCancellations setup.plan notes ledger ↔
        ∀ slot reason, ledger.reasonOf? slot = some reason → reason = .cancelled)) := by
  intro setup notes ledger
  have hasks : setup.Asks range.slots := .overRange settings hasSink startedAt hlast hrange
  obtain ⟨hexplained, -⟩ := explained_of_execute hasks.sound h
  have htraced := traced_of_execute hasks.sound h
  have hsequenced := sequenced_of_execute hasks.sound h
  have hmerged := (resulted_of_execute hasks.sound h).merged
  have hsetup : run.setup = setup := setup_of_execute h
  obtain ⟨⟨cancelled, hstage⟩, -, -, -, -, hledger⟩ := outcome?_eq_some houtcome
  have hover := unsettled_of_over hstage
  simp only [ledger, hledger, ← hsetup]
  -- the bound; then both directions of the remark about what the client answers
  refine ⟨fun honly => ?_, fun hclient => ⟨fun honly slot reason hreason => ?_,
    fun hall batch hbatch slot hslot hsome => ?_⟩⟩
  · have hcycle : run.setup.plan.batchesPerCycle = max settings.batchesPerCycle 1 := by
      rw [hsetup]
      rfl
    rw [← hcycle]
    exact spanCount_le_of_onlyCancellations hexplained htraced hsequenced hmerged hover
      (by rw [hsetup]; rfl) honly
  · exact eq_cancelled_of_onlyCancellations hexplained htraced honly hreason
  · obtain ⟨reason, hreason⟩ := Option.isSome_iff_exists.mp hsome
    rw [hall slot reason hreason] at hreason
    exact ((reasonOf?_eq_cancelled hexplained htraced hclient hbatch hslot).mp hreason).2

/-- Five slots in three batches, walked downwards, two batches to a cycle.  When the token fires,
the second batch has its answer and the first one waits for it; the first one and the batch behind
the cycle are cancelled, which makes two spans. -/
theorem cancelled_spans_le_attained :
    let settings : Settings :=
      { (default : Settings) with
        batchSize := 2, batchesPerCycle := 2, workers := 2, scanOrder := .descending }
    let setup := RunSetup.ofRange settings false ⟨1, 5⟩ 0
    let block : Json := .obj []
    let events : List Event :=
      [.openCycle, .pool .enqueue, .pool (.take 0), .pool .enqueue, .pool (.take 1),
        .pool (.attempt 0 .start), .pool (.attempt 1 .start),
        .pool (.attempt 1 (.finish (.ok [(3, .fetched block), (2, .fetched block)]))), .fire,
        .pool (.attempt 0 .cut), .pool (.report 1), .intake, .pool (.report 0), .intake,
        .deliver 0 (.ok ()), .pool (.leave 0), .pool (.leave 1), .closeCycle, .cancelRest]
    SlotRange.ofBounds 1 5 = .ok ⟨1, 5⟩ ∧ ∃ run outcome,
      (start setup .zero).execute events = some run ∧ run.outcome? ⟨0⟩ = some outcome ∧
        outcome.report.ledger = ⟨[⟨1, 1, .cancelled⟩, ⟨4, 5, .cancelled⟩]⟩ ∧
        OnlyCancellations setup.plan ((start setup .zero).notes events) outcome.report.ledger ∧
        outcome.report.ledger.spanCount ≤ 2 / 2 + 1 := by
  intro settings setup block events
  have hrange : SlotRange.ofBounds 1 5 = .ok ⟨1, 5⟩ := rfl
  obtain ⟨run, hrun⟩ : ∃ run, (start setup .zero).execute events = some run :=
    Option.isSome_iff_exists.mp (by decide)
  -- one cancelled batch in the first cycle, and the whole of the second cycle
  have hend : ((start setup .zero).execute events).bind (fun run =>
      (run.outcome? ⟨0⟩).map (·.report.ledger)) =
        some ⟨[⟨1, 1, .cancelled⟩, ⟨4, 5, .cancelled⟩]⟩ := by decide
  rw [hrun, Option.bind_some, Option.map_eq_some_iff] at hend
  obtain ⟨outcome, houtcome, hledger⟩ := hend
  obtain ⟨hbound, honly⟩ := cancelled_spans_le (by decide) hrange hrun houtcome
  have hclient : NeverAnswers (.failed .cancelled) ((start setup .zero).notes events) := by decide
  have hcancelled : OnlyCancellations setup.plan ((start setup .zero).notes events)
      outcome.report.ledger := by
    refine (honly hclient).mpr fun slot reason hreason => ?_
    rw [hledger, Ledger.reasonOf?, Option.map_eq_some_iff] at hreason
    obtain ⟨span, hfound, rfl⟩ := hreason
    have hspan : span ∈ [⟨1, 1, .cancelled⟩, ⟨4, 5, .cancelled⟩] := List.mem_of_find?_eq_some hfound
    rcases List.mem_pair.mp hspan with rfl | rfl <;> rfl
  exact ⟨hrange, run, outcome, hrun, houtcome, hledger, hcancelled, hbound hcancelled⟩

end Run

end Backfill
