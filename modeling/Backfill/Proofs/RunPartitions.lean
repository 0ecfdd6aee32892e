import Backfill.Proofs.RunSchedules

/-!
# The partition does not matter

How a range is cut into batches and cycles, and in which direction it is walked, decides which
requests are sent and in which order the ledger is filled.  If the provider answers every request
and gives each slot the same outcome in whatever batch, and everything that is handed on is taken,
then nothing of this is left in the report.  The slots may also be given as a list, in any order
and with repetitions.

## Main definitions

* `RunSetup.Covers` — the runs of an engine over the slots of a range.
* `ProviderRule.Answers` — a provider that answers by a function from slots to outcomes.
* `SinkRule.accepting` — a sink that takes everything.

## Main results

* `RunSetup.Covers.run_eq` — each of these runs announces the range and the number of its slots.
* `Run.Undisturbed.reason_of_answers`, `Run.Undisturbed.forwarded_of_answers` — reasons and
  forwarded records in terms of the slots alone.
* `Run.partition_irrelevant` — **any two runs over the slots of one range lead to the same.**
-/

namespace Backfill

/-! ### Runs over the slots of a range -/

/-- The smallest range over the slots of a range is that range. -/
theorem SlotRange.bounding_eq {range : SlotRange} (hrange : range.first ≤ range.last)
    {slots : List Nat} (h : ∀ slot, slot ∈ slots ↔ slot ∈ range.slots) :
    bounding slots = some range := by
  cases slots with
  | nil => exact absurd ((h range.first).mpr (by simp [hrange])) List.not_mem_nil
  | cons slot rest =>
    -- The bounds of the range are among the slots, and no slot lies outside.
    have hmin : (slot :: rest).min? = some range.first := by
      refine List.min?_eq_some_iff.mpr ⟨(h _).mpr (by simp [hrange]), fun other hother => ?_⟩
      exact (mem_slots.mp ((h other).mp hother)).1
    have hmax : (slot :: rest).max? = some range.last := by
      refine List.max?_eq_some_iff.mpr ⟨(h _).mpr (by simp [hrange]), fun other hother => ?_⟩
      exact (mem_slots.mp ((h other).mp hother)).2
    rw [List.min?_cons'] at hmin
    rw [List.max?_cons'] at hmax
    rw [bounding, Option.some.inj hmin, Option.some.inj hmax]

namespace RunSetup

/-- The runs of an engine over the slots of a range: over the range itself, or over a list of these
slots in any order and with any repetitions. -/
inductive Covers (range : SlotRange) : RunSetup → Prop
  | overRange (settings : Settings) (hasSink : Bool) (startedAt : Int) :
    Covers range (ofRange settings hasSink range startedAt)
  | overSlots {slots : List Nat} (settings : Settings) (hasSink : Bool) (startedAt : Int)
    (hlength : slots.length ≤ Word.max) (hslots : ∀ slot, slot ∈ slots ↔ slot ∈ range.slots) :
    Covers range (ofSlots settings hasSink slots startedAt)

variable {setup : RunSetup} {first last : Nat} {range : SlotRange}

theorem Covers.exists_asks (h : setup.Covers range) (hlast : last ≤ Word.max)
    (hrange : SlotRange.ofBounds first last = .ok range) :
    ∃ asked, setup.Asks asked ∧ ∀ slot, slot ∈ asked ↔ slot ∈ range.slots := by
  cases h with
  | overRange settings hasSink startedAt =>
    exact ⟨_, .overRange settings hasSink startedAt hlast hrange, fun _ => .rfl⟩
  | overSlots settings hasSink startedAt hlength hslots =>
    exact ⟨_, .overSlots settings hasSink startedAt hlength, hslots⟩

theorem Covers.slots_perm (h : setup.Covers range) (hlast : last ≤ Word.max)
    (hrange : SlotRange.ofBounds first last = .ok range) :
    setup.plan.source.slots.Perm range.slots := by
  obtain ⟨asked, hasks, hsame⟩ := h.exists_asks hlast hrange
  have hnodup : range.slots.Nodup := List.nodup_range'
  refine (List.perm_ext_iff_of_nodup hasks.sound.nodup hnodup).mpr fun slot => ?_
  rw [hasks.mem_slots, hsame]

/-- Each of these runs announces the range, and the number of its slots. -/
theorem Covers.run_eq (h : setup.Covers range) (hlast : last ≤ Word.max)
    (hrange : SlotRange.ofBounds first last = .ok range) :
    setup.run.range = range ∧ setup.run.requested = range.slots.length := by
  obtain ⟨asked, hasks, -⟩ := h.exists_asks hlast hrange
  refine ⟨?_, hasks.requested_eq.trans (h.slots_perm hlast hrange).length_eq⟩
  cases h with
  | overRange => rfl
  | overSlots settings hasSink startedAt hlength hslots =>
    have hle := (bounds_of_ofBounds hlast hrange).1
    have hbounding := SlotRange.bounding_eq hle fun slot => mem_sorted.trans (hslots slot)
    rw [ofSlots, ofPlan, hbounding]
    rfl

end RunSetup

/-! ### Providers and sinks -/

/-- A provider that answers every request, each slot with the outcome of a function. -/
def ProviderRule.Answers (answer : Nat → Outcome) (provider : ProviderRule) : Prop :=
  ∀ slots n, ∃ outcomes, provider slots n = .ok outcomes ∧
    ∀ slot ∈ slots, Accounts.outcomeOf outcomes slot = answer slot

/-- A sink that takes everything. -/
def SinkRule.accepting : SinkRule := fun _ => .ok ()

/-- The provider that answers a request with the outcomes of its slots and no others. -/
def ProviderRule.answering (answer : Nat → Outcome) : ProviderRule :=
  fun slots _ => .ok (.ofList (slots.map fun slot => (slot, answer slot)))

theorem ProviderRule.answers_answering (answer : Nat → Outcome) :
    (answering answer).Answers answer :=
  fun _ _ => ⟨_, rfl, fun _ hslot => Accounts.outcomeOf_ofList hslot answer⟩

namespace Outcome

/-- The reason of a slot with an outcome, when everything that is handed on is taken. -/
def reason? : Outcome → Option FailureReason
  | .fetched _ => none
  | .failed reason => some reason

/-- What is handed on of a slot with an outcome. -/
def record? (filter : BlockFilter) (slot : Nat) : Outcome → Option DispatchRecord
  | .fetched block => (filter.apply block).map (DispatchRecord.ofBlock slot)
  | .failed _ => none

end Outcome

theorem BatchResult.record?_eq (filter : BlockFilter) (result : BatchResult) (slot : Nat) :
    result.record? filter slot =
      (Accounts.outcomeOf result.outcomes slot).record? filter slot := by
  unfold record?
  cases Accounts.outcomeOf result.outcomes slot <;> rfl

theorem Delivery.endBy_accepting (delivery : Delivery) : delivery.endBy .accepting = .ok () := by
  unfold endBy
  split <;> rfl

/-- A sink that takes everything takes the records of a result, if there is a sink. -/
theorem BatchResult.flatMap_taken_accepting (setup : RunSetup) {result : BatchResult}
    (h : result.batch.slots.Nodup) :
    ((result.delivery? setup).toList.flatMap fun delivery =>
      delivery.taken (delivery.endBy .accepting)) =
        if setup.hasSink then result.records setup.filter else [] := by
  simp only [Delivery.endBy_accepting, Delivery.taken]
  cases hdelivery : result.delivery? setup with
  | none =>
    -- nothing was fetched, so there are no records either
    have hempty : result.blocks = [] := by
      by_contra hne
      simp [delivery?, hne] at hdelivery
    rw [← filterMap_record?_blocks h, hempty]
    split <;> rfl
  | some delivery =>
    rw [Option.toList_some, List.flatMap_singleton]
    split
    · next hsink => exact records_of_delivery? hsink h hdelivery
    · next hsink =>
      unfold delivery? at hdelivery
      split at hdelivery
      · simp at hdelivery
      · rw [← Option.some.inj hdelivery, Delivery.ofBlocks, if_neg hsink]

theorem BatchResult.reason?_accepting (setup : RunSetup) (result : BatchResult) (slot : Nat) :
    result.reason? setup .accepting slot =
      (Accounts.outcomeOf result.outcomes slot).reason? := by
  unfold reason?
  cases Accounts.outcomeOf result.outcomes slot with
  | failed reason => rfl
  | fetched block =>
    cases result.delivery? setup <;>
      simp [Delivery.endBy_accepting, dispatchReason?, Outcome.reason?]

namespace Run.Undisturbed

variable {run : Run} {setup : RunSetup} {provider : ProviderRule} {sink : SinkRule}
  {telemetry : Telemetry} {events : List Event} {batch : Batch} {answer : Nat → Outcome}

/-! ### In terms of slots -/

/-- Every slot has the outcome that the provider gives it. -/
theorem outcomeOf_eq (h : Undisturbed provider sink setup telemetry events run)
    (hsound : setup.plan.Sound) (hprovider : provider.Answers answer) {cancelled : Bool}
    (hstage : run.stage = .over cancelled) (hbatch : batch ∈ setup.plan.batches) {slot : Nat}
    (hslot : slot ∈ batch.slots) :
    Accounts.outcomeOf ((storyOf batch ((start setup telemetry).notes events)).result setup.policy
      batch).outcomes slot = answer slot := by
  have hkeeps := h.keepsTo hsound batch
  have hended := (h.ended hsound hstage hbatch).1
  generalize storyOf batch ((start setup telemetry).notes events) = story at hkeeps hended ⊢
  -- no request was refused, so the attempts have ended with an answer
  have hnone : story.refusals = [] := by
    cases hrefusals : story.refusals with
    | nil => rfl
    | cons error rest =>
      obtain ⟨outcomes, hok, -⟩ := hprovider batch.slots 1
      have herror := hkeeps.refused 0 error (by rw [hrefusals]; rfl)
      rw [hok] at herror
      simp at herror
  have hanswered : story.answer ≠ none := by
    refine hended.resolve_right fun hall => ?_
    have hmax := setup.policy.one_le_maxAttempts
    rw [hnone, List.length_nil] at hall
    omega
  obtain ⟨outcomes, houtcomes⟩ := Option.ne_none_iff_exists'.mp hanswered
  obtain ⟨found, hok, hfound⟩ := hprovider batch.slots story.requests
  have hsame : found = outcomes :=
    Except.ok.inj (hok.symm.trans (hkeeps.answered outcomes houtcomes).1)
  simp only [Story.result, Story.fate, houtcomes]
  exact hsame ▸ hfound slot hslot

/-- **The reason of every slot is that of its outcome.** -/
theorem reason_of_answers (h : Undisturbed provider .accepting setup telemetry events run)
    (hsound : setup.plan.Sound) (hprovider : provider.Answers answer) {cancelled : Bool}
    (hstage : run.stage = .over cancelled) {slot : Nat}
    (hslot : slot ∈ setup.plan.source.slots) :
    run.accounts.ledger.reasonOf? slot = (answer slot).reason? := by
  obtain ⟨batch, hbatch, hin⟩ := hsound.mem_slots.mp hslot
  rw [h.reasonOf?_eq hsound hstage hbatch hin, BatchResult.reason?_accepting,
    h.outcomeOf_eq hsound hprovider hstage hbatch hin]

/-- **What was forwarded is what there is to hand on of the slots.** -/
theorem forwarded_of_answers (h : Undisturbed provider .accepting setup telemetry events run)
    (hsound : setup.plan.Sound) (hprovider : provider.Answers answer) {cancelled : Bool}
    (hstage : run.stage = .over cancelled) :
    run.accounts.forwarded = if setup.hasSink then (setup.plan.source.slots.filterMap fun slot =>
      (answer slot).record? setup.filter slot).length else 0 := by
  have hslots := hsound.flatMap_slots_batches 0
  rw [List.drop_zero, Nat.zero_mul, List.drop_zero] at hslots
  -- Batch by batch: what is forwarded depends on the answers to its slots only.
  have hbatch : ∀ batch ∈ setup.plan.batches,
      ((((storyOf batch ((start setup telemetry).notes events)).result setup.policy
        batch).delivery? setup).toList.flatMap fun delivery =>
          delivery.taken (delivery.endBy .accepting)) =
      if setup.hasSink then batch.slots.filterMap fun slot =>
        (answer slot).record? setup.filter slot else [] := by
    intro batch hbatch
    have hnodup := hsound.nodup_slots_of_mem hbatch
    rw [BatchResult.flatMap_taken_accepting setup (by rwa [Story.batch_result]),
      BatchResult.records, Story.batch_result]
    refine if_congr .rfl (List.filterMap_congr fun slot hslot => ?_) rfl
    rw [BatchResult.record?_eq, h.outcomeOf_eq hsound hprovider hstage hbatch hslot]
  rw [h.forwarded_eq hsound hstage, List.filterMap_eq_flatMap_toList, List.flatMap_assoc,
    List.flatMap_congr hbatch]
  split
  · rw [← hslots, List.filterMap_flatMap]
  · simp

end Run.Undisturbed

namespace Run

variable {setup other : RunSetup} {provider provider' : ProviderRule}
  {telemetry telemetry' : Telemetry} {events events' : List Event} {run run' : Run}
  {answer : Nat → Outcome} {first last : Nat} {range : SlotRange}

/-- **The partition does not matter.**  Take any two runs of an engine over the slots of an accepted
range, over the range itself or over a list of its slots, whatever the sizes, the direction, the
retries, the workers and the queues are and however the events follow each other.  If nothing
disturbs them, all requests are answered by one function from slots to outcomes and everything that
is handed on is taken, then both lead to the same, and announce the range and the number of its
slots. -/
theorem partition_irrelevant (hlast : last ≤ Word.max)
    (hrange : SlotRange.ofBounds first last = .ok range) (hsetup : setup.Covers range)
    (hother : other.Covers range) (hsink : setup.hasSink = other.hasSink)
    (hfilter : setup.filter = other.filter) (hprovider : provider.Answers answer)
    (hprovider' : provider'.Answers answer)
    (h : Undisturbed provider .accepting setup telemetry events run)
    (h' : Undisturbed provider' .accepting other telemetry' events' run')
    {elapsed elapsed' : Elapsed} {outcome outcome' : RunOutcome}
    (houtcome : run.outcome? elapsed = some outcome)
    (houtcome' : run'.outcome? elapsed' = some outcome') :
    outcome.Agrees outcome' ∧
      outcome.report.run.requested = range.slots.length ∧
      outcome'.report.run.requested = range.slots.length ∧
      outcome.report.run.range = range ∧ outcome'.report.run.range = range := by
  obtain ⟨_, hasks, -⟩ := hsetup.exists_asks hlast hrange
  obtain ⟨_, hasks', -⟩ := hother.exists_asks hlast hrange
  have hsound := hasks.sound
  have hsound' := hasks'.sound
  obtain ⟨hrun, hrequested⟩ := hsetup.run_eq hlast hrange
  obtain ⟨hrun', hrequested'⟩ := hother.run_eq hlast hrange
  -- Both runs go over the same slots, in whatever order and pieces.
  have hslots := (hsetup.slots_perm hlast hrange).trans (hother.slots_perm hlast hrange).symm
  obtain ⟨⟨cancelled, hstage⟩, hmeta, -⟩ := outcome?_eq_some houtcome
  obtain ⟨⟨cancelled', hstage'⟩, hmeta', -⟩ := outcome?_eq_some houtcome'
  rw [setup_of_execute h.execute] at hmeta
  rw [setup_of_execute h'.execute] at hmeta'
  have hforwarded : run.accounts.forwarded = run'.accounts.forwarded := by
    rw [h.forwarded_of_answers hsound hprovider hstage,
      h'.forwarded_of_answers hsound' hprovider' hstage', hsink, hfilter]
    exact if_congr .rfl (hslots.filterMap _).length_eq rfl
  have hreasons : ∀ slot ∈ setup.plan.source.slots,
      run.accounts.ledger.reasonOf? slot = run'.accounts.ledger.reasonOf? slot := by
    intro slot hslot
    rw [h.reason_of_answers hsound hprovider hstage hslot,
      h'.reason_of_answers hsound' hprovider' hstage' (hslots.mem_iff.mp hslot)]
  obtain ⟨hagrees, -⟩ := h.agrees h' hsound hsound' (hrequested.trans hrequested'.symm) hslots
    hsink hforwarded hreasons houtcome houtcome'
  rw [hmeta, hmeta']
  exact ⟨hagrees, hrequested, hrequested', hrun, hrun'⟩

/-- A range of three slots walked downwards in batches of two, and a list of its slots in batches of
one and cycles of two. -/
theorem partition_irrelevant_range_or_list :
    let setup := RunSetup.ofRange
      { (default : Settings) with batchSize := 2, scanOrder := .descending } true ⟨5, 7⟩ 0
    let settings := { (default : Settings) with batchSize := 1, batchesPerCycle := 2 }
    let other := RunSetup.ofSlots settings true [7, 5, 6, 5] 0
    let block : Json := .obj [("transactions", .arr [.null])]
    let answer : Nat → Outcome := fun slot => if slot = 6 then .fetched block else .failed .notFound
    let provider := ProviderRule.answering answer
    let tried (slots : List Nat) : List Event :=
      [.pool .enqueue, .pool (.take 0), .pool (.attempt 0 .start),
        .pool (.attempt 0 (.finish (provider slots 1))), .pool (.report 0), .intake]
    let events := .openCycle :: tried [7, 6] ++
      [.deliver 0 (.ok ()), .pool (.leave 0), .closeCycle, .openCycle] ++ tried [5] ++
      [.pool (.leave 0), .closeCycle, .conclude]
    let events' := .openCycle :: tried [5] ++ tried [6] ++
      [.pool (.leave 0), .deliver 0 (.ok ()), .closeCycle, .openCycle] ++ tried [7] ++
      [.pool (.leave 0), .closeCycle, .conclude]
    setup.Covers ⟨5, 7⟩ ∧ other.Covers ⟨5, 7⟩ ∧
      ∃ run run', Undisturbed provider .accepting setup .zero events run ∧
        Undisturbed provider .accepting other .zero events' run' ∧
        ∃ outcome outcome', run.outcome? ⟨0⟩ = some outcome ∧
          run'.outcome? ⟨0⟩ = some outcome' ∧ outcome.Agrees outcome' ∧
          outcome.report.run.requested = 3 ∧ outcome'.report.run.requested = 3 ∧
          outcome.report.run.range = ⟨5, 7⟩ ∧ outcome'.report.run.range = ⟨5, 7⟩ := by
  intro setup settings other block answer provider tried events events'
  have hslots : ∀ slot, slot ∈ [7, 5, 6, 5] ↔ slot ∈ (⟨5, 7⟩ : SlotRange).slots := by
    intro slot
    simp only [SlotRange.mem_slots, List.mem_cons, List.not_mem_nil, or_false]
    omega
  have hsetup : setup.Covers ⟨5, 7⟩ := .overRange _ true 0
  have hother : other.Covers ⟨5, 7⟩ := .overSlots _ true 0 (by decide) hslots
  -- The list is sorted and freed of repetitions before it is cut into batches.
  have hlisted : other = RunSetup.ofPlan settings true ⟨.replay, ⟨5, 7⟩, 3, 0⟩
      (.ofSource (.listed [5, 6, 7]) 1 2) := by
    have hsorted : RunSetup.sorted [7, 5, 6, 5] = [5, 6, 7] := by
      refine RunSetup.sorted_eq (by decide) fun slot => ?_
      rw [hslots, SlotRange.mem_slots]
      simp only [List.mem_cons, List.not_mem_nil, or_false]
      omega
    simp only [other, RunSetup.ofSlots, hsorted]
    rfl
  obtain ⟨run, outcome, h, houtcome⟩ := @exists_undisturbed provider .accepting setup .zero events
    ⟨0⟩ (by decide) (by decide)
  obtain ⟨run', outcome', h', houtcome'⟩ := @exists_undisturbed provider .accepting other .zero
    events' ⟨0⟩ (by rw [hlisted]; decide) (by rw [hlisted]; decide)
  exact ⟨hsetup, hother, run, run', h, h', outcome, outcome', houtcome, houtcome',
    @partition_irrelevant setup other provider provider .zero .zero events events' run run' answer
      5 7 ⟨5, 7⟩ (by decide) rfl hsetup hother rfl rfl (ProviderRule.answers_answering answer)
      (ProviderRule.answers_answering answer) h h' _ _ _ _ houtcome houtcome'⟩

end Run

end Backfill
