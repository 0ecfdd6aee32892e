import Backfill.Proofs.RunDeliveries
import Backfill.Proofs.RunExplained
import Mathlib.Data.Nat.ModEq

/-!
# What a run adds to the counters

The counters of an engine go on from run to run and go round at the upper end, so all that can be
said about them is by how much they were raised, up to a multiple of the number of words.  What a
run adds is told by its history: each counter stands for something that is noted, or for a total
of the accounts.  A request that is repeated is not noted as such.  It is a refusal that was not
the last one, so the repetitions are counted batch by batch.

## Main definitions

* `Stats.Raised` — the counters were raised by so much.
* `Story.retries` — how many requests for a batch were repeated.
* `total` — something counted in the stories of several batches.
* `Run.gain` — what a run has added to the counters, according to its history.

## Main results

* `Pool.total_step?` — what a transition of the pool signals is what it adds to the stories.
* `Run.raised_of_execute` — **the counters are raised by what the history says.**
-/

namespace Backfill

/-! ### Counters that go round -/

/-- The counters were raised by so much, up to going round. -/
structure Stats.Raised (before gain after : Stats) : Prop where
  attempts : after.attempts ≡ before.attempts + gain.attempts [MOD Word.max + 1]
  retries : after.retries ≡ before.retries + gain.retries [MOD Word.max + 1]
  batches : after.batches ≡ before.batches + gain.batches [MOD Word.max + 1]
  successes : after.successes ≡ before.successes + gain.successes [MOD Word.max + 1]
  failures : after.failures ≡ before.failures + gain.failures [MOD Word.max + 1]
  transactions : after.transactions ≡ before.transactions + gain.transactions [MOD Word.max + 1]

theorem Word.wrap_add_modEq {counter before gain : Nat}
    (h : counter ≡ before + gain [MOD max + 1]) (more : Nat) :
    wrap (counter + more) ≡ before + (gain + more) [MOD max + 1] := by
  refine (Nat.mod_modEq _ _).trans ?_
  rw [← Nat.add_assoc]
  exact h.add_right more

namespace Accounts

/-- The counters were raised by so many requests, repeated requests, batches and transactions, and
by the totals of the accounts. -/
def Counted (before : Stats) (requests retries batches transactions : Nat) (accounts : Accounts) :
    Prop :=
  before.Raised ⟨requests, retries, batches, accounts.succeeded, accounts.failed, transactions⟩
    accounts.telemetry.stats

variable {before : Stats} {requests retries batches transactions : Nat} {accounts : Accounts}

theorem Counted.fail (h : accounts.Counted before requests retries batches transactions)
    (range : SlotRange) (reason : FailureReason) :
    (accounts.fail range reason).Counted before requests retries batches transactions where
  attempts := h.attempts
  retries := h.retries
  batches := h.batches
  successes := h.successes
  failures := Word.wrap_add_modEq h.failures range.count
  transactions := h.transactions

theorem Counted.failSlots (h : accounts.Counted before requests retries batches transactions)
    (failures : List (Nat × FailureReason)) :
    (accounts.failSlots failures).Counted before requests retries batches transactions := by
  induction failures generalizing accounts with
  | nil => exact h
  | cons failure rest ih => exact ih (h.fail (.single failure.1) failure.2)

theorem Counted.failRanges (h : accounts.Counted before requests retries batches transactions)
    (ranges : List SlotRange) (reason : FailureReason) :
    (accounts.failRanges ranges reason).Counted before requests retries batches transactions := by
  induction ranges generalizing accounts with
  | nil => exact h
  | cons range rest ih => exact ih (h.fail range reason)

theorem Counted.succeed (h : accounts.Counted before requests retries batches transactions)
    (more : Nat) :
    (accounts.succeed more).Counted before requests retries batches (transactions + more) where
  attempts := h.attempts
  retries := h.retries
  batches := h.batches
  successes := Word.wrap_add_modEq h.successes 1
  failures := h.failures
  transactions := Word.wrap_add_modEq h.transactions more

theorem Counted.foldl_succeed (h : accounts.Counted before requests retries batches transactions)
    (slots : List (Nat × Nat)) :
    (slots.foldl (fun accounts slot => accounts.succeed slot.2) accounts).Counted before requests
      retries batches (transactions + (slots.map (·.2)).sum) := by
  induction slots generalizing accounts transactions with
  | nil => exact h
  | cons slot rest ih =>
    rw [List.map_cons, List.sum_cons, ← Nat.add_assoc]
    exact ih (h.succeed slot.2)

theorem Counted.settle (h : accounts.Counted before requests retries batches transactions)
    (result : BatchResult) :
    (accounts.settle result).1.Counted before requests retries (batches + 1) transactions := by
  have htold : Counted before requests retries (batches + 1) transactions
      { accounts with telemetry := accounts.telemetry.batch } :=
    { h with batches := Word.wrap_add_modEq h.batches 1 }
  exact htold.failSlots _

end Accounts

/-- How many transactions the end of a delivery adds: those of its blocks, if it has worked. -/
def Delivery.transactions (delivery : Delivery) : Except DispatchError Unit → Nat
  | .ok () => (delivery.slots.map (·.2)).sum
  | .error _ => 0

/-- How many transactions are counted by what is noted. -/
def Note.transactions : Note → Nat
  | .delivered delivery result => delivery.transactions result
  | _ => 0

theorem Pool.Shift.sum_transactions {policy : RetryPolicy} {fired : Bool} {before after : Pool}
    {note : Option Note} (h : before.Shift policy fired after note) :
    (note.toList.map Note.transactions).sum = 0 := by
  cases note with
  | none => rfl
  | some told =>
    obtain ⟨batch, -, hbatch⟩ := h.exists_batch List.mem_cons_self
    cases told with
    | delivered => simp [Note.batch?] at hbatch
    | _ => rfl

/-- A delivery that is over adds its transactions. -/
theorem Accounts.Counted.deliver {before : Stats} {requests retries batches transactions : Nat}
    {accounts : Accounts} (h : accounts.Counted before requests retries batches transactions)
    (delivery : Delivery) (result : Except DispatchError Unit) :
    (accounts.deliver delivery result).Counted before requests retries batches
      (transactions + delivery.transactions result) := by
  cases result with
  -- The slots are told one by one; what was forwarded is no counter of the statistics.
  | ok =>
    have htold : Counted before requests retries batches transactions
        { accounts with
          forwarded := accounts.forwarded + delivery.records.length
          skipped := accounts.skipped + delivery.skipped } := h
    exact htold.foldl_succeed delivery.slots
  | error error =>
    have htold : Counted before requests retries batches transactions
        { accounts with telemetry := accounts.telemetry.dispatchFailure } := h
    exact htold.failSlots _

/-! ### What the stories add up to -/

/-- How many requests for a batch were repeated: those that were refused, except for the one with
which the attempts were used up. -/
def Story.retries (policy : RetryPolicy) (story : Story) : Nat :=
  min story.refusals.length (policy.maxAttempts - 1)

/-- Something counted in the stories of several batches. -/
def total (count : Story → Nat) (batches : List Batch) (notes : List Note) : Nat :=
  (batches.map fun batch => count (storyOf batch notes)).sum

theorem total_congr {count : Story → Nat} {batches : List Batch} {notes more : List Note}
    (h : ∀ batch ∈ batches, count (storyOf batch notes) = count (storyOf batch more)) :
    total count batches notes = total count batches more :=
  congrArg List.sum (List.map_congr_left h)

/-- Notes do not matter if they say nothing of what is counted. -/
theorem total_append_of_forall {count : Story → Nat} {more : List Note}
    (h : ∀ note ∈ more, ∀ story : Story, count (story.tell note) = count story)
    (batches : List Batch) (notes : List Note) :
    total count batches (notes ++ more) = total count batches notes := by
  -- A story is told a part of the notes, and no part of them changes its count.
  have hfold : ∀ told ⊆ more, ∀ story : Story,
      count (told.foldl Story.tell story) = count story := by
    intro told
    induction told with
    | nil => exact fun _ _ => rfl
    | cons note rest ih =>
      intro hsubset story
      obtain ⟨hnote, hrest⟩ := List.cons_subset.mp hsubset
      rw [List.foldl_cons, ih hrest, h note hnote]
  refine total_congr fun batch _ => ?_
  rw [storyOf_append, hfold _ (List.filter_subset_self _)]

/-- A note that says nothing of requests. -/
def Note.IsMute (note : Note) : Prop := ∀ story : Story,
  (story.tell note).requests = story.requests ∧ (story.tell note).refusals = story.refusals

theorem total_append_of_mute {more : List Note} (h : ∀ note ∈ more, note.IsMute)
    (policy : RetryPolicy) (batches : List Batch) (notes : List Note) :
    total Story.requests batches (notes ++ more) = total Story.requests batches notes ∧
      total (Story.retries policy) batches (notes ++ more) =
        total (Story.retries policy) batches notes := by
  refine ⟨total_append_of_forall (fun note hnote story => ?_) _ _,
    total_append_of_forall (fun note hnote story => ?_) _ _⟩
  · exact (h note hnote story).1
  · rw [Story.retries, (h note hnote story).2, Story.retries]

/-- What workers note about one batch is counted in the story of that batch. -/
theorem total_append_self {batches : List Batch} {batch : Batch} (hnodup : batches.Nodup)
    (hbatch : batch ∈ batches) (count : Story → Nat) (notes : List Note) {more : List Note}
    (hmore : ∀ note ∈ more, note.batch? = some batch) :
    total count batches (notes ++ more) + count (storyOf batch notes) =
      total count batches notes + count (more.foldl Story.tell (storyOf batch notes)) := by
  -- The total is split into the one story that grows and those of the other batches.
  have hsplit : ∀ told, total count batches told =
      count (storyOf batch told) + total count (batches.erase batch) told := fun told => by
    rw [total, ((List.perm_cons_erase hbatch).map _).sum_nat, List.map_cons, List.sum_cons, total]
  have hothers : total count (batches.erase batch) (notes ++ more) =
      total count (batches.erase batch) notes := by
    refine total_congr fun other hother => ?_
    rw [storyOf_append_of_ne ?_ notes hmore]
    exact fun heq => (hnodup.mem_erase_iff.mp hother).1 heq
  rw [hsplit, hsplit, hothers, storyOf_append_self notes hmore]
  omega

namespace Pool

/-- How many requests a transition signals. -/
def Signal.requests : Signal → Nat
  | .attempt => 1
  | _ => 0

/-- How many repeated requests a transition signals. -/
def Signal.retries : Signal → Nat
  | .retry => 1
  | _ => 0

/-- **What the attempts for a batch signal is what they add to its story.** -/
theorem signalOf_eq {policy : RetryPolicy} {fired : Bool} {story : Story} {attempt : Attempt}
    {next : Attempt.Next Outcomes TransportError} {batch : Batch}
    {event : RetryPolicy.Event Outcomes TransportError} (h : story.Underway policy attempt)
    (hstep : policy.step? TransportError.isRetryable fired attempt event = some next) :
    let after := (Note.ofAttempt batch event).toList.foldl Story.tell story
    after.requests = story.requests + (signalOf policy attempt event).requests ∧
      after.retries policy = story.retries policy + (signalOf policy attempt event).retries := by
  cases event with
  | start => exact ⟨rfl, rfl⟩
  | resume => exact ⟨rfl, rfl⟩
  | cut => exact ⟨rfl, rfl⟩
  | finish result =>
    cases result with
    | ok outcomes => exact ⟨rfl, rfl⟩
    | error error =>
      cases attempt with
      | running n =>
        have hone := h.one_le
        have hrefusals := h.refusals
        simp only [Attempt.number, Attempt.refused] at hone hrefusals
        simp only [Note.ofAttempt, Option.toList_some, List.foldl_cons, List.foldl_nil, Story.tell,
          Story.retries, List.length_append, List.length_singleton, signalOf,
          RetryPolicy.repeats, TransportError.isRetryable, Attempt.number]
        -- the refusal is followed by another request as long as it is not the last one allowed
        by_cases hless : n < policy.maxAttempts
        · simp only [hless, decide_true, Bool.and_self, if_true, Signal.requests, Signal.retries]
          omega
        · simp only [hless, decide_false, Bool.and_false, Signal.requests, Signal.retries,
            Bool.false_eq_true, if_false]
          omega
      | waiting | pausing => simp [RetryPolicy.step?] at hstep

/-- A transition that is not about attempts signals nothing, and notes nothing of requests. -/
theorem mute_of_step? {policy : RetryPolicy} {fired : Bool} {before after : Pool} {event : Event}
    {signal : Signal} (h : before.step? policy fired event = some (after, signal))
    (hevent : ∀ worker attempt, event ≠ .attempt worker attempt) :
    signal = .none ∧ ∀ note ∈ (before.note? fired event).toList, note.IsMute := by
  obtain rfl := signal_of_step? h
  cases turn_of_step? h with
  | attempt => exact absurd rfl (hevent _ _)
  -- Taking a batch is noted only when it is dropped, after the token fired.
  | take =>
    refine ⟨rfl, fun note hnote => ?_⟩
    simp only [note?, Option.mem_toList] at hnote
    split at hnote
    · obtain ⟨batch, -, rfl⟩ := Option.map_eq_some_iff.mp hnote
      exact fun _ => ⟨rfl, rfl⟩
    · simp at hnote
  | breakDown htrying =>
    refine ⟨rfl, fun note hnote => ?_⟩
    simp only [note?, htrying] at hnote
    obtain rfl := List.mem_singleton.mp hnote
    exact fun _ => ⟨rfl, rfl⟩
  | enqueue | report | leave => exact ⟨rfl, by simp [note?]⟩

/-- **What a transition signals is what it adds to the stories.** -/
theorem total_step? {policy : RetryPolicy} {fired : Bool} {before after : Pool} {event : Event}
    {signal : Signal} {batches : List Batch} {notes : List Note}
    (h : before.step? policy fired event = some (after, signal))
    (hfaithful : before.Faithful policy notes) (hsubset : before.batches ⊆ batches)
    (hnodup : batches.Nodup) :
    let more := (before.note? fired event).toList
    total Story.requests batches (notes ++ more) =
        total Story.requests batches notes + signal.requests ∧
      total (Story.retries policy) batches (notes ++ more) =
        total (Story.retries policy) batches notes + signal.retries := by
  by_cases hevent : ∀ worker attempt, event ≠ .attempt worker attempt
  · obtain ⟨rfl, hmute⟩ := mute_of_step? h hevent
    exact total_append_of_mute hmute policy batches notes
  · simp only [not_forall, not_not] at hevent
    obtain ⟨worker, event, rfl⟩ := hevent
    obtain rfl := signal_of_step? h
    cases turn_of_step? h with
    | @attempt worker batch attempt event next htrying hstep =>
      have htried : (batch, attempt) ∈ before.tried :=
        List.mem_filterMap.mpr ⟨_, List.mem_of_getElem? htrying, rfl⟩
      have hunderway : (storyOf batch notes).Underway policy attempt := hfaithful.tried _ htried
      have hbatch : batch ∈ batches := hsubset <|
        List.mem_append_left _ (List.mem_append_right _ (List.mem_map.mpr ⟨_, htried, rfl⟩))
      have hnoted : ∀ note ∈ (Note.ofAttempt batch event).toList, note.batch? = some batch :=
        fun _ => Note.batch?_of_mem_ofAttempt
      -- the story of this batch grows by what is signalled, and the other stories stay
      obtain ⟨hrequests, hretries⟩ := @signalOf_eq _ _ _ _ _ batch _ hunderway hstep
      have hrequestsTotal := total_append_self hnodup hbatch Story.requests notes hnoted
      have hretriesTotal := total_append_self hnodup hbatch (Story.retries policy) notes hnoted
      simp only [note?, htrying, signalled_attempt htrying]
      omega

end Pool

/-! ### A whole run -/

namespace Run

/-- What a run has added to the counters: the requests and the repeated requests that its history
tells of, the results that have come in, the totals of its accounts, and the transactions of the
deliveries that have worked. -/
def gain (run : Run) (notes : List Note) : Stats where
  attempts := total Story.requests run.setup.plan.batches notes
  retries := total (Story.retries run.setup.policy) run.setup.plan.batches notes
  batches := (resultsIn notes).length
  successes := run.accounts.succeeded
  failures := run.accounts.failed
  transactions := (notes.map Note.transactions).sum

variable {run next : Run} {note : Option Note} {notes : List Note}
  {failures : List (Nat × FailureReason)} {before : Stats}

theorem counted_count {requests retries batches transactions : Nat} {accounts : Accounts}
    (h : accounts.Counted before requests retries batches transactions) (signal : Pool.Signal) :
    (count accounts signal).Counted before (requests + signal.requests) (retries + signal.retries)
      batches transactions := by
  cases signal with
  | none => exact h
  | attempt => exact { h with attempts := Word.wrap_add_modEq h.attempts 1 }
  | retry => exact { h with retries := Word.wrap_add_modEq h.retries 1 }

theorem raised_of_counted {requests retries batches transactions : Nat}
    (h : run.accounts.Counted before requests retries batches transactions)
    (hrequests : total Story.requests run.setup.plan.batches notes = requests)
    (hretries : total (Story.retries run.setup.policy) run.setup.plan.batches notes = retries)
    (hbatches : (resultsIn notes).length = batches)
    (htransactions : (notes.map Note.transactions).sum = transactions) :
    before.Raised (run.gain notes) run.accounts.telemetry.stats := by
  subst hrequests hretries hbatches htransactions
  exact h

/-- **Every move raises the counters by what it adds to the history.** -/
theorem Explained.raised_move (h : run.Explained notes) (hmove : run.Move note failures next)
    (hraised : before.Raised (run.gain notes) run.accounts.telemetry.stats) :
    before.Raised (next.gain (notes ++ note.toList)) next.accounts.telemetry.stats := by
  have horderly := h.accounted.orderly
  have hcounted : run.accounts.Counted before (total Story.requests run.setup.plan.batches notes)
      (total (Story.retries run.setup.policy) run.setup.plan.batches notes)
      (resultsIn notes).length (notes.map Note.transactions).sum := hraised
  -- outside the pool, no note is about requests
  have hmute : ∀ told : Note, told.IsMute →
      total Story.requests run.setup.plan.batches (notes ++ [told]) =
          total Story.requests run.setup.plan.batches notes ∧
        total (Story.retries run.setup.policy) run.setup.plan.batches (notes ++ [told]) =
          total (Story.retries run.setup.policy) run.setup.plan.batches notes := fun told htold =>
    total_append_of_mute (fun _ hnote => List.mem_singleton.mp hnote ▸ htold) _ _ _
  cases hmove with
  | fire | conclude =>
    rw [Option.toList_none, List.append_nil]
    exact hraised
  | @openCycle cycle =>
    obtain ⟨hrequests, hretries⟩ := hmute (.opened cycle) fun _ => ⟨rfl, rfl⟩
    exact raised_of_counted hcounted hrequests hretries (by simp [resultsIn, Note.result?])
      (by simp [Note.transactions])
  | @pool cycle event pool signal hstage hpool =>
    have hsubset : cycle.pool.batches ⊆ run.setup.plan.batches := fun batch hbatch =>
      horderly.mem_batches <| List.mem_append_right _ <| horderly.pooled.subset <| by
        rwa [Run.pooled, hstage]
    obtain ⟨hrequests, hretries⟩ := Pool.total_step? hpool (h.pooled cycle hstage) hsubset
      horderly.sound.nodup_batches
    have hshift := Pool.shift_of_step? hpool
    refine raised_of_counted (counted_count hcounted signal) hrequests hretries ?_ ?_
    · rw [resultsIn_append, hshift.quiet.1, List.append_nil]
    · rw [List.map_append, List.sum_append_nat, hshift.sum_transactions, Nat.add_zero]
  | @intake cycle result =>
    obtain ⟨hrequests, hretries⟩ := hmute (.settled result) fun _ => ⟨rfl, rfl⟩
    exact raised_of_counted (hcounted.settle result) hrequests hretries
      (by simp [resultsIn, Note.result?]) (by simp [Note.transactions])
  | @deliver cycle position delivery result =>
    obtain ⟨hrequests, hretries⟩ := hmute (.delivered delivery result) fun _ => ⟨rfl, rfl⟩
    exact raised_of_counted (hcounted.deliver delivery result) hrequests hretries
      (by simp [resultsIn, Note.result?]) (by simp [Note.transactions])
  | @closeCycle cycle telemetry _ _ hstats =>
    rw [Option.toList_none, List.append_nil, hstats]
    exact hcounted.failSlots cycle.lostSlots
  | cancelRest =>
    rw [Option.toList_none, List.append_nil]
    exact hcounted.failRanges _ _

theorem raised_start (setup : RunSetup) (telemetry : Telemetry) :
    telemetry.stats.Raised ((start setup telemetry).gain [])
      (start setup telemetry).accounts.telemetry.stats := by
  have htotal : ∀ {count : Story → Nat}, count .blank = 0 →
      total count setup.plan.batches [] = 0 := fun hblank =>
    List.sum_eq_zero_iff_forall_eq_nat.mpr fun number hnumber => by
      obtain ⟨batch, -, rfl⟩ := List.mem_map.mp hnumber
      exact hblank
  have hcounted : (start setup telemetry).accounts.Counted telemetry.stats 0 0 0 0 :=
    ⟨.refl _, .refl _, .refl _, .refl _, .refl _, .refl _⟩
  exact raised_of_counted hcounted (htotal rfl) (htotal (Nat.zero_min _)) rfl rfl

/-- **The counters are raised by what the history says.** -/
theorem raised_of_execute {setup : RunSetup} (h : setup.plan.Sound) {telemetry : Telemetry}
    {events : List Event} (hrun : (start setup telemetry).execute events = some run) :
    telemetry.stats.Raised (run.gain ((start setup telemetry).notes events))
      run.accounts.telemetry.stats := by
  refine (execute_induct (motive := fun run notes => run.Explained notes ∧
    telemetry.stats.Raised (run.gain notes) run.accounts.telemetry.stats) hrun
    ⟨explained_start h telemetry, raised_start setup telemetry⟩
    fun ⟨hexplained, hraised⟩ hstep => ?_).2
  obtain ⟨failures, hmove⟩ := move_of_step? hstep
  exact ⟨hexplained.move hmove, hexplained.raised_move hmove hraised⟩

end Run

end Backfill
