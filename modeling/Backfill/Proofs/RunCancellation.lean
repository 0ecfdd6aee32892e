import Backfill.Proofs.RunEndings
import Backfill.Proofs.RunSchedules

/-!
# What the token cuts off

The token may fire at any moment of a run: while a request is underway, while a batch waits in the
queue, during a delay, or while fetched blocks are handed on.  From then on no request is sent, so
no answer comes any more; batches without an answer are cut off as soon as a worker notices, and
the cycles that were not started are cancelled as a whole.  What the client had answered by then is
entered and handed on as it would have been without the token.

## Main definitions

* `Note.IsAftermath` — what can be noted after the token has fired.
* `Run.KeepsAnswer` — what becomes of a batch is what the client has answered for it.

## Main results

* `Run.aftermath_of_execute` — after the token has fired no request is sent.
* `Run.keepsAnswer` — **an answer is kept**, whatever the token does.
* `Run.reasonOf?_eq_cancelled` — a slot is cancelled only with a batch that was cut off, or with a
  cycle that was not started.
* `Run.cancellation_is_sharp` — all of it, for every run and every moment of the token.
-/

namespace Backfill

/-! ### After the token has fired -/

/-- What can be noted after the token has fired: batches are cut off, results come in and deliveries
end.  In particular no cycle is started, no request is sent and the client answers nothing. -/
def Note.IsAftermath : Note → Prop
  | .cut _ | .settled _ | .delivered .. => True
  | _ => False

namespace Accounts

/-- How many requests have been sent. -/
def attempts (accounts : Accounts) : Nat := accounts.telemetry.stats.attempts

@[simp] theorem attempts_failSlots (accounts : Accounts) (failures : List (Nat × FailureReason)) :
    (accounts.failSlots failures).attempts = accounts.attempts := by
  induction failures generalizing accounts with
  | nil => rfl
  | cons failure rest ih => exact ih (accounts.fail (.single failure.1) failure.2)

@[simp] theorem attempts_failRanges (accounts : Accounts) (ranges : List SlotRange)
    (reason : FailureReason) :
    (accounts.failRanges ranges reason).attempts = accounts.attempts := by
  induction ranges generalizing accounts with
  | nil => rfl
  | cons range rest ih => exact ih (accounts.fail range reason)

@[simp] theorem attempts_settle (accounts : Accounts) (result : BatchResult) :
    (accounts.settle result).1.attempts = accounts.attempts := by
  rw [settle_eq, attempts_failSlots]
  rfl

/-- A delivery is not counted as a request. -/
@[simp] theorem attempts_deliver (accounts : Accounts) (delivery : Delivery)
    (result : Except DispatchError Unit) :
    (accounts.deliver delivery result).attempts = accounts.attempts := by
  have hsucceed : ∀ (slots : List (Nat × Nat)) (accounts : Accounts),
      (slots.foldl (fun accounts slot => accounts.succeed slot.2) accounts).attempts =
        accounts.attempts := by
    intro slots
    induction slots with
    | nil => exact fun _ => rfl
    | cons slot rest ih => exact fun accounts => ih (accounts.succeed slot.2)
  cases result with
  | ok => exact hsucceed delivery.slots _
  | error error => exact attempts_failSlots _ _

end Accounts

/-- Workers that notice that the token has fired send no request and cut their batches off. -/
theorem Pool.aftermath {policy : RetryPolicy} {before after : Pool} {event : Event}
    {signal : Signal} (h : before.step? policy true event = some (after, signal)) :
    signal = .none ∧ ∀ told ∈ (before.note? true event).toList, told.IsAftermath := by
  obtain rfl := signal_of_step? h
  cases turn_of_step? h with
  | take =>
    refine ⟨rfl, fun told htold => ?_⟩
    simp only [note?, if_true, Option.mem_toList, Option.map_eq_some_iff] at htold
    obtain ⟨batch, -, rfl⟩ := htold
    trivial
  | @attempt worker batch attempt event next htrying hstep =>
    -- After the token fired an attempt can only be cut off.
    obtain rfl : event = .cut := by
      cases event with
      | cut => rfl
      | finish result => cases result <;> cases attempt <;> simp [RetryPolicy.step?] at hstep
      | _ => cases attempt <;> simp [RetryPolicy.step?] at hstep
    refine ⟨signalled_attempt htrying .cut, fun told htold => ?_⟩
    simp only [note?, htrying, Note.ofAttempt, Option.toList_some, List.mem_singleton] at htold
    exact htold ▸ trivial
  | breakDown _ hfired => cases hfired
  | enqueue | report | leave => exact ⟨rfl, by simp [note?]⟩

namespace Run

variable {run next final : Run} {note : Option Note} {notes : List Note} {events : List Event}
  {failures : List (Nat × FailureReason)}

/-- **After the token has fired, a move sends no request**, and the token does not fire back. -/
theorem Move.aftermath (h : run.Move note failures next) (hfired : run.fired = true) :
    next.fired = true ∧ next.accounts.attempts = run.accounts.attempts ∧
      ∀ told ∈ note.toList, told.IsAftermath := by
  cases h with
  | fire => exact ⟨rfl, rfl, by simp⟩
  -- No cycle is opened any more, and inside one only the pool could still send a request.
  | openCycle _ hunfired => simp [hunfired] at hfired
  | pool hstage hpool =>
    rw [hfired] at hpool ⊢
    obtain ⟨rfl, haftermath⟩ := Pool.aftermath hpool
    exact ⟨rfl, rfl, haftermath⟩
  | intake =>
    refine ⟨hfired, Accounts.attempts_settle _ _, fun told htold => ?_⟩
    exact (List.mem_singleton.mp htold) ▸ trivial
  | deliver =>
    refine ⟨hfired, Accounts.attempts_deliver _ _ _, fun told htold => ?_⟩
    exact (List.mem_singleton.mp htold) ▸ trivial
  | @closeCycle cycle telemetry _ _ hstats =>
    refine ⟨hfired, ?_, by simp⟩
    rw [Accounts.attempts, hstats]
    exact Accounts.attempts_failSlots _ _
  | cancelRest => exact ⟨hfired, Accounts.attempts_failRanges _ _ _, by simp⟩
  | conclude => exact ⟨hfired, rfl, by simp⟩

/-- **After the token has fired, no request is sent any more.** -/
theorem aftermath_of_execute (hrun : run.execute events = some final) (hfired : run.fired = true) :
    final.accounts.attempts = run.accounts.attempts ∧
      ∀ told ∈ run.notes events, told.IsAftermath := by
  refine (execute_induct (motive := fun now told => now.fired = true ∧
    now.accounts.attempts = run.accounts.attempts ∧ ∀ note ∈ told, note.IsAftermath) hrun
    ⟨hfired, rfl, by simp⟩ fun ⟨hnow, hattempts, htold⟩ hstep => ?_).2
  obtain ⟨failures, hmove⟩ := move_of_step? hstep
  obtain ⟨hnext, hsame, hnew⟩ := hmove.aftermath hnow
  exact ⟨hnext, hsame.trans hattempts, List.forall_mem_append.mpr ⟨htold, hnew⟩⟩

/-! ### Answers are kept -/

/-- What becomes of a batch is what the client has answered for it: the answer comes in as its
result, and its slots are settled as the answer says. -/
structure KeepsAnswer (run : Run) (notes : List Note) (batch : Batch) (outcomes : Outcomes) :
    Prop where
  result : batch ∉ run.ahead ++ run.pending →
    ∃ result ∈ resultsIn notes, result.batch = batch ∧ result.outcomes = outcomes
  settled : run.SettledAs notes batch outcomes

/-- **An answer is kept**, whatever the token does. -/
theorem keepsAnswer (hexplained : run.Explained notes) (hdelivered : run.Delivered notes)
    (hresulted : run.Resulted notes) (htraced : run.Traced notes) {batch : Batch}
    {outcomes : Outcomes} (hanswered : .answered batch outcomes ∈ notes) :
    run.KeepsAnswer notes batch outcomes := by
  have hplan := htraced.planned _ hanswered batch rfl
  have hfate : (storyOf batch notes).fate run.setup.policy = .answered outcomes :=
    Story.fate_eq_answered.mpr (htraced.answered batch outcomes hanswered)
  -- outside all places the result has come in, and it is the answer
  have hresult : batch ∉ run.ahead ++ run.pending →
      ∃ result ∈ resultsIn notes, result.batch = batch ∧ result.outcomes = outcomes := by
    intro hnot
    rcases htraced.gone batch hplan hnot (htraced.opened_of_answered hanswered) with hin | hlost
    · obtain ⟨result, hcame, rfl⟩ := List.mem_map.mp hin
      have hexplains := hresulted.explains result hcame
      simp only [Story.Explains, hfate] at hexplains
      exact ⟨result, hcame, rfl, hexplains⟩
    · simp [hfate] at hlost
  have hsettledAs : ∀ slot ∈ batch.slots, slot ∉ run.unsettled →
      run.SettledAs notes batch outcomes := by
    intro slot hslot hsettled
    obtain ⟨result, hin, rfl, rfl⟩ := hresult (Explained.not_mem_places hslot hsettled)
    exact settledAs_of_mem_resultsIn hexplained hdelivered hresulted hin
  refine ⟨hresult, fun slot hslot hsettled => ?_, fun slot hslot hsettled => ?_⟩
  · exact (hsettledAs slot hslot hsettled).failed slot hslot hsettled
  · exact (hsettledAs slot hslot hsettled).fetched slot hslot hsettled

/-! ### What is cancelled -/

/-- A reason is the one of a slot of the plan, which is settled. -/
theorem Accounted.exists_batch (h : run.Accounted notes) {slot : Nat} {reason : FailureReason}
    (hreason : run.accounts.ledger.reasonOf? slot = some reason) :
    ∃ batch ∈ run.setup.plan.batches, slot ∈ batch.slots ∧ slot ∉ run.unsettled := by
  have hmem : slot ∈ run.accounts.ledger.slots := by
    by_contra hnot
    simp [Ledger.not_mem_slots.mp hnot] at hreason
  have hplan := h.partition.mem_iff.mp (List.mem_append_left _ (List.mem_append_right _ hmem))
  have hslots := h.orderly.sound.flatMap_slots_batches 0
  rw [Nat.zero_mul, List.drop_zero, List.drop_zero] at hslots
  rw [← hslots] at hplan
  obtain ⟨batch, hbatch, hslot⟩ := List.mem_flatMap.mp hplan
  refine ⟨batch, hbatch, hslot, fun hunsettled => ?_⟩
  simp [h.reasonOf?_of_mem_unsettled hunsettled] at hreason

/-- What becomes of a batch is a cancellation just when it was cut off, or when its cycle was not
started. -/
theorem Traced.fate_eq_cancelled (h : run.Traced notes) {policy : RetryPolicy} (batch : Batch) :
    (storyOf batch notes).fate policy = .cancelled ↔
      .cut batch ∈ notes ∨ ∀ cycle, .opened cycle ∈ notes → batch ∉ cycle.batches := by
  rw [(h.endsOnce batch).fate_eq_cancelled (h.blank batch), storyOf_cut, Bool.eq_false_iff, Ne,
    storyOf_opened]
  simp only [not_exists, not_and]

/-- **A slot is cancelled only with a batch that was cut off, or with a cycle that was not
started**, if the client itself cancels nothing. -/
theorem reasonOf?_eq_cancelled (hexplained : run.Explained notes) (htraced : run.Traced notes)
    (hclient : NeverAnswers (.failed .cancelled) notes) {batch : Batch}
    (hbatch : batch ∈ run.setup.plan.batches) {slot : Nat} (hslot : slot ∈ batch.slots) :
    run.accounts.ledger.reasonOf? slot = some .cancelled ↔ slot ∉ run.unsettled ∧
      (.cut batch ∈ notes ∨ ∀ cycle, .opened cycle ∈ notes → batch ∉ cycle.batches) := by
  have hclientless : ¬∃ outcomes, (storyOf batch notes).answer = some outcomes ∧
      Accounts.outcomeOf outcomes slot = .failed .cancelled := by
    rintro ⟨outcomes, hanswer, houtcome⟩
    exact hclient.outcomeOf_ne (by simp) (htraced.answer_eq_some.mp hanswer) slot houtcome
  have hcalled : reasonFor run.setup.policy notes batch slot = some .cancelled ↔
      .cut batch ∈ notes ∨ ∀ cycle, .opened cycle ∈ notes → batch ∉ cycle.batches := by
    rw [reasonFor_eq_some_iff (.inl ⟨rfl, rfl⟩), or_iff_left hclientless,
      htraced.fate_eq_cancelled]
  -- An unsettled slot has no reason yet, and a settled one the reason its history gives.
  by_cases hunsettled : slot ∈ run.unsettled
  · simp [hexplained.accounted.reasonOf?_of_mem_unsettled hunsettled, hunsettled]
  · rw [hexplained.settled batch hbatch slot hslot hunsettled, hcalled]
    exact (and_iff_right hunsettled).symm

/-! ### A whole run -/

variable {setup : RunSetup} {asked : List Nat} {telemetry : Telemetry}

/-- **Cancellation is sharp.**  In every run, wherever among its transitions the token fires, with
a client that itself cancels nothing:

* After the token has fired no request is sent, none is counted, and all that is noted is that
  batches are cut off, results come in and deliveries end.
* A batch that the client has answered keeps the answer for all its slots: it comes in as its
  result, fetched blocks are handed on, and no slot of it is ever cancelled.
* A slot is cancelled just when it is settled and its batch was cut off or its cycle was not
  started; so a batch that was cut off is cancelled as a whole, and no other slots are.
* As long as the token has not fired, no slot is cancelled.

In the report every slot is settled, with the same entries and counters. -/
theorem cancellation_is_sharp (hasks : setup.Asks asked)
    (h : (start setup telemetry).execute events = some run)
    (hclient : NeverAnswers (.failed .cancelled) ((start setup telemetry).notes events)) :
    let notes := (start setup telemetry).notes events
    (∀ before after atFire, events = before ++ .fire :: after →
      (start setup telemetry).execute before = some atFire →
        run.accounts.attempts = atFire.accounts.attempts ∧
          notes = (start setup telemetry).notes before ++ atFire.notes (.fire :: after) ∧
          ∀ told ∈ atFire.notes (.fire :: after), told.IsAftermath) ∧
      (∀ batch outcomes, .answered batch outcomes ∈ notes →
        run.KeepsAnswer notes batch outcomes ∧
          ∀ slot ∈ batch.slots, run.accounts.ledger.reasonOf? slot ≠ some .cancelled) ∧
      (∀ batch ∈ setup.plan.batches, ∀ slot ∈ batch.slots,
        run.accounts.ledger.reasonOf? slot = some .cancelled ↔ slot ∉ run.unsettled ∧
          (.cut batch ∈ notes ∨ ∀ cycle, .opened cycle ∈ notes → batch ∉ cycle.batches)) ∧
      (run.fired = false → ∀ slot, run.accounts.ledger.reasonOf? slot ≠ some .cancelled) ∧
      ∀ elapsed outcome, run.outcome? elapsed = some outcome → run.unsettled = [] ∧
        outcome.report.ledger = run.accounts.ledger ∧
        outcome.report.stats.attempts = run.accounts.attempts ∧
        outcome.report.succeeded = (notes.flatMap Note.fetched).length := by
  intro notes
  obtain ⟨hexplained, -⟩ := explained_of_execute hasks.sound h
  have hdelivered := delivered_of_execute hasks.sound h
  have hresulted := resulted_of_execute hasks.sound h
  have htraced := traced_of_execute hasks.sound h
  obtain rfl := setup_of_execute h
  have hcancelled : ∀ batch ∈ run.setup.plan.batches, ∀ slot ∈ batch.slots,
      run.accounts.ledger.reasonOf? slot = some .cancelled ↔ slot ∉ run.unsettled ∧
        (.cut batch ∈ notes ∨ ∀ cycle, .opened cycle ∈ notes → batch ∉ cycle.batches) :=
    fun batch hbatch slot => reasonOf?_eq_cancelled hexplained htraced hclient hbatch
  refine ⟨fun before after atFire hevents hbefore => ?_, fun batch outcomes hanswered => ?_,
    hcancelled, fun hfired slot hreason => ?_, fun elapsed outcome houtcome => ?_⟩
  · subst hevents
    rw [execute_append, hbefore, Option.bind_some, execute_cons, Option.bind_eq_some_iff] at h
    obtain ⟨fired, hfire, hafter⟩ := h
    have hhistory :=
      @notes_append (start run.setup telemetry) atFire before (.fire :: after) hbefore
    -- the firing itself is not noted
    have hmore : atFire.notes (.fire :: after) = fired.notes after := notes_cons hfire after
    simp only [step?] at hfire
    split at hfire
    · simp at hfire
    · obtain rfl := Option.some.inj hfire
      obtain ⟨hattempts, haftermath⟩ := aftermath_of_execute hafter rfl
      exact ⟨hattempts, hhistory, hmore ▸ haftermath⟩
  · have hkeeps := keepsAnswer hexplained hdelivered hresulted htraced hanswered
    have hplan := htraced.planned _ hanswered batch rfl
    have hanswer := htraced.answered batch outcomes hanswered
    refine ⟨hkeeps, fun slot hslot hreason => ?_⟩
    obtain ⟨-, hcut | hunopened⟩ := (hcancelled batch hplan slot hslot).mp hreason
    · simp [(htraced.endsOnce batch).cut (storyOf_cut.mpr hcut)] at hanswer
    · obtain ⟨cycle, hnoted, hmem⟩ := storyOf_opened.mp (htraced.opened_of_answered hanswered)
      exact hunopened cycle hnoted hmem
  · obtain ⟨batch, hbatch, hslot, hsettled⟩ := hexplained.accounted.exists_batch hreason
    obtain ⟨-, hcut | hunopened⟩ := (hcancelled batch hbatch slot hslot).mp hreason
    · simp [htraced.fired batch hcut] at hfired
    · have hahead : batch ∉ run.ahead := fun hmem =>
        Explained.not_mem_places hslot hsettled (List.mem_append_left _ hmem)
      obtain ⟨cycle, hnoted, hmem⟩ :=
        storyOf_opened.mp (hresulted.opened hfired batch hbatch hahead)
      exact hunopened cycle hnoted hmem
  · obtain ⟨⟨cancelled, hstage⟩, -, hsucceeded, -, -, hledger⟩ := outcome?_eq_some houtcome
    refine ⟨unsettled_of_over hstage, hledger, ?_,
      hsucceeded.trans hexplained.accounted.succeeded⟩
    rw [(isUnreachable_eq hstage houtcome).2]
    rfl

/-- Four batches in two cycles.  When the token fires, the first batch has its answer and the second
one waits for it; the second cycle is never started. -/
theorem cancellation_is_sharp_mid_cycle :
    let settings : Settings := { (default : Settings) with batchesPerCycle := 2, workers := 2 }
    let setup := RunSetup.ofRange settings true ⟨5, 8⟩ 0
    let block : Json := .obj [("transactions", .arr [.null])]
    let before : List Event :=
      [.openCycle, .pool .enqueue, .pool (.take 0), .pool (.attempt 0 .start), .pool .enqueue,
        .pool (.take 1), .pool (.attempt 1 .start),
        .pool (.attempt 0 (.finish (.ok [(5, .fetched block)])))]
    let after : List Event :=
      [.pool (.attempt 1 .cut), .pool (.report 0), .intake, .pool (.report 1), .intake,
        .deliver 0 (.ok ()), .pool (.leave 0), .pool (.leave 1), .closeCycle, .cancelRest]
    setup.Asks [5, 6, 7, 8] ∧
      ∃ atFire run, (start setup .zero).execute before = some atFire ∧
        (start setup .zero).execute (before ++ .fire :: after) = some run ∧
        run.accounts.attempts = atFire.accounts.attempts ∧
        run.KeepsAnswer ((start setup .zero).notes (before ++ .fire :: after)) ⟨0, [5]⟩
          [(5, .fetched block)] ∧
        run.accounts.succeeded = 1 ∧ run.accounts.ledger = ⟨[⟨6, 8, .cancelled⟩]⟩ := by
  intro settings setup block before after
  have hasks : setup.Asks [5, 6, 7, 8] :=
    @RunSetup.Asks.overRange 5 8 ⟨5, 8⟩ settings true 0 (by decide) rfl
  obtain ⟨atFire, hbefore⟩ : ∃ atFire, (start setup .zero).execute before = some atFire :=
    Option.isSome_iff_exists.mp (by decide)
  obtain ⟨run, hrun⟩ : ∃ run, (start setup .zero).execute (before ++ .fire :: after) = some run :=
    Option.isSome_iff_exists.mp (by decide)
  have hend : ((start setup .zero).execute (before ++ .fire :: after)).map (fun run =>
      (run.accounts.succeeded, run.accounts.ledger)) = some (1, ⟨[⟨6, 8, .cancelled⟩]⟩) := by decide
  rw [hrun] at hend
  obtain ⟨hsucceeded, hledger⟩ := Prod.mk.inj (Option.some.inj hend)
  -- The token fires with the first batch answered and the second one under way.
  have hanswered : (⟨0, [5]⟩, [(5, .fetched block)]) ∈
      answersIn ((start setup .zero).notes (before ++ .fire :: after)) := by decide
  obtain ⟨hfire, hkept, -⟩ := cancellation_is_sharp hasks hrun (by decide)
  exact ⟨hasks, atFire, run, hbefore, hrun, (hfire before after atFire rfl hbefore).1,
    (hkept _ _ (mem_answersIn.mp hanswered)).1, hsucceeded, hledger⟩

end Run

end Backfill
