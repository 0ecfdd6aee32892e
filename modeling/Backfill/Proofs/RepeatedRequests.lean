import Mathlib.Data.List.Induction
import Backfill.Proofs.EngineAccounts
import Backfill.Proofs.RunEndings

/-!
# Requests that are repeated

The first request for a batch is followed by another one as long as the client refuses and the
policy allows it.  An engine counts the repeated request as soon as the one in front of it has been
refused: before the delay, and before the limiter lets the repetition through.  Between the two the
token may fire, and the repetition that was counted is never sent.

So the counter of repeated requests shows the requests that repeat an earlier one for the same
batch, and one more for every batch that the token has cut off between a refusal and the repetition.
Nothing else comes between the two: a worker breaks down only during a request.

## Main definitions

* `Story.repeats`, `startedIn` — requests that repeat an earlier one, and batches with a request.
* `Story.AwaitsRepeat` — a request was refused and may be repeated, but was not.
* `Story.IsAbandoned`, `abandonedIn` — the token has cut a batch off there.
* `Repeating` — a repetition is awaited only by batches that are tried or were cut off.
* `Run.CountsRepeats` — what the counters say about repeated requests.

## Main results

* `Story.Reckoned.retries_eq` — what is counted for a batch is its repetitions and the one awaited.
* `Run.Explained.repeating_move` — every move keeps to the invariant.
* `Run.repeats_of_outcome` — **the repeated requests are counted, and so are the repetitions that
  the token has cut off.**
* `Run.not_retries_eq_repeats` — a repetition may be counted that was never sent.
-/

namespace Backfill

/-! ### First requests and repetitions -/

namespace Story

variable {policy : RetryPolicy} {story : Story} {attempt : Attempt} {fired : Bool}
  {event : RetryPolicy.Event Outcomes TransportError} {verdict : Verdict Outcomes TransportError}

/-- How many requests repeat an earlier one for the same batch. -/
def repeats (story : Story) : Nat := story.requests - 1

/-- The last request was refused and may be repeated, but was not. -/
structure AwaitsRepeat (policy : RetryPolicy) (story : Story) : Prop where
  requested : 0 < story.requests
  refused : story.refusals.length = story.requests
  remains : story.requests < policy.maxAttempts

instance (policy : RetryPolicy) (story : Story) : Decidable (story.AwaitsRepeat policy) :=
  decidable_of_iff (0 < story.requests ∧ story.refusals.length = story.requests ∧
    story.requests < policy.maxAttempts) ⟨fun h => ⟨h.1, h.2.1, h.2.2⟩, fun h => ⟨h.1, h.2, h.3⟩⟩

/-- The token has cut the batch off between a request that was refused and its repetition. -/
structure IsAbandoned (story : Story) : Prop where
  cut : story.cut = true
  requested : 0 < story.requests
  refused : story.refusals.length = story.requests

instance (story : Story) : Decidable story.IsAbandoned :=
  decidable_of_iff (story.cut = true ∧ 0 < story.requests ∧
    story.refusals.length = story.requests) ⟨fun h => ⟨h.1, h.2.1, h.2.2⟩, fun h => ⟨h.1, h.2, h.3⟩⟩

/-- The requests for a batch follow each other: all but the last one were refused, there are no more
than the policy allows, and the token cuts off only what could have been repeated. -/
structure Reckoned (policy : RetryPolicy) (story : Story) : Prop where
  refusals_le : story.refusals.length ≤ story.requests
  requests_le : story.requests ≤ story.refusals.length + 1
  within : story.requests ≤ policy.maxAttempts
  cut_lt : story.cut = true → story.refusals.length < policy.maxAttempts

theorem reckoned_blank (policy : RetryPolicy) : blank.Reckoned policy :=
  ⟨Nat.le_refl _, Nat.zero_le _, Nat.zero_le _, nofun⟩

/-- **What is counted for a batch** is its repetitions, and the one that is awaited. -/
theorem Reckoned.retries_eq (h : story.Reckoned policy) :
    story.retries policy = story.repeats + if story.AwaitsRepeat policy then 1 else 0 := by
  obtain ⟨hrefusals, hrequests, hwithin, -⟩ := h
  simp only [Story.retries, repeats]
  split
  · next hawaits =>
    obtain ⟨hone, hrefused, hremains⟩ := hawaits
    omega
  · next hnot =>
    -- nothing is awaited, so the last request was not refused, or there was none, or no more
    have hcases : story.requests = 0 ∨ story.refusals.length ≠ story.requests ∨
        policy.maxAttempts ≤ story.requests := by
      by_contra hall
      simp only [not_or, not_not, Nat.not_le] at hall
      exact hnot ⟨Nat.pos_of_ne_zero hall.1, hall.2.1, hall.2.2⟩
    omega

theorem Reckoned.outside (h : story.Reckoned policy) {note : Note} (hnote : note.batch? = none) :
    (story.tell note).Reckoned policy := by
  cases note with
  | opened | settled | delivered => exact ⟨h.refusals_le, h.requests_le, h.within, h.cut_lt⟩
  | _ => simp [Note.batch?] at hnote

theorem AwaitsRepeat.of_outside {note : Note} (h : (story.tell note).AwaitsRepeat policy)
    (hnote : note.batch? = none) : story.AwaitsRepeat policy := by
  cases note with
  | opened | settled | delivered => exact ⟨h.requested, h.refused, h.remains⟩
  | _ => simp [Note.batch?] at hnote

theorem Underway.reckoned (h : story.Underway policy attempt) : story.Reckoned policy := by
  obtain ⟨-, -, hcut, -, hone, hrequests, hrefusals, hremains⟩ := h
  have hplace : attempt.refused ≤ attempt.sent ∧ attempt.sent ≤ attempt.refused + 1 ∧
      attempt.sent ≤ policy.maxAttempts := by
    cases attempt <;> simp only [Attempt.number, Attempt.sent, Attempt.refused] at * <;> omega
  refine ⟨by omega, by omega, by omega, fun htrue => ?_⟩
  simp [hcut] at htrue

/-- At the end of the attempts a repetition is awaited only if the token has cut them off. -/
theorem Underway.reckoned_of_ended (h : story.Underway policy attempt) (batch : Batch)
    (hstep : policy.step? TransportError.isRetryable fired attempt event = some (.inr verdict)) :
    let after := (Note.ofAttempt batch event).toList.foldl tell story
    after.Reckoned policy ∧
      (after.AwaitsRepeat policy → .cut batch ∈ (Note.ofAttempt batch event).toList) := by
  obtain ⟨hrefusals, hrequests, hwithin, -⟩ := h.reckoned
  have hremains := h.remains
  have hrefused := h.refusals
  have hsent := h.requests
  have hone := h.one_le
  have hcut := h.cut
  rcases RetryPolicy.cases_of_inr hstep with ⟨rfl, rfl⟩ | ⟨n, outcomes, rfl, rfl, rfl⟩ |
    ⟨n, error, rfl, rfl, hlast, rfl⟩
  · exact ⟨⟨hrefusals, hrequests, hwithin, fun _ => hrefused ▸ hremains⟩,
      fun _ => List.mem_singleton_self _⟩
  · -- the last request was answered
    simp only [Attempt.number, Attempt.sent, Attempt.refused] at hone hsent hrefused
    refine ⟨⟨hrefusals, hrequests, hwithin, fun htrue => ?_⟩, fun hawaits => ?_⟩
    · exact absurd (hcut.symm.trans htrue) Bool.false_ne_true
    · have hsame : story.refusals.length = story.requests := hawaits.refused
      omega
  · -- the last request was refused, and no other one is allowed
    simp only [Attempt.number, Attempt.sent, Attempt.refused] at hone hsent hrefused hremains
    have hlength : (story.refusals ++ [error]).length = story.refusals.length + 1 := by simp
    refine ⟨⟨?_, ?_, hwithin, fun htrue => ?_⟩, fun hawaits => ?_⟩
    · show (story.refusals ++ [error]).length ≤ story.requests
      omega
    · show story.requests ≤ (story.refusals ++ [error]).length + 1
      omega
    · exact absurd (hcut.symm.trans htrue) Bool.false_ne_true
    · have hless : story.requests < policy.maxAttempts := hawaits.remains
      omega

end Story

/-- How many of the batches had a request. -/
def startedIn (batches : List Batch) (notes : List Note) : Nat :=
  batches.countP fun batch => 0 < (storyOf batch notes).requests

/-- How many of the batches the token has cut off between a request that was refused and its
repetition. -/
def abandonedIn (batches : List Batch) (notes : List Note) : Nat :=
  batches.countP fun batch => (storyOf batch notes).IsAbandoned

/-- How many of the batches await a repetition. -/
def awaitingIn (policy : RetryPolicy) (batches : List Batch) (notes : List Note) : Nat :=
  batches.countP fun batch => (storyOf batch notes).AwaitsRepeat policy

section Totals

variable {policy : RetryPolicy} {batches : List Batch} {notes : List Note}

theorem total_requests_eq (batches : List Batch) (notes : List Note) :
    total Story.requests batches notes =
      startedIn batches notes + total Story.repeats batches notes := by
  induction batches with
  | nil => rfl
  | cons batch rest ih =>
    simp only [total, startedIn, List.map_cons, List.sum_cons, List.countP_cons, Story.repeats,
      decide_eq_true_iff] at ih ⊢
    rw [ih]
    split <;> omega

theorem total_retries_eq (h : ∀ batch, (storyOf batch notes).Reckoned policy) :
    total (Story.retries policy) batches notes =
      total Story.repeats batches notes + awaitingIn policy batches notes := by
  induction batches with
  | nil => rfl
  | cons batch rest ih =>
    simp only [total, awaitingIn, List.map_cons, List.sum_cons, List.countP_cons,
      decide_eq_true_iff] at ih ⊢
    rw [ih, (h batch).retries_eq]
    omega

/-- The requests of the history are those of the batches that it is about. -/
theorem requestsIn_eq_total (hnodup : batches.Nodup)
    (hplanned : ∀ note ∈ notes, ∀ batch, note.batch? = some batch → batch ∈ batches) :
    requestsIn notes = total Story.requests batches notes := by
  -- From the end: each note lengthens one story, and only a request adds to the count.
  induction notes using List.reverseRecOn with
  | nil =>
    refine (List.sum_eq_zero_iff_forall_eq_nat.mpr fun n hn => ?_).symm
    obtain ⟨batch, -, rfl⟩ := List.mem_map.mp hn
    rfl
  | append_singleton notes note ih =>
    have hbefore := ih fun told htold => hplanned told (List.mem_append_left _ htold)
    rw [requestsIn_append, hbefore]
    cases note with
    | requested batch =>
      have hbatch := hplanned _ (List.mem_append_right _ List.mem_cons_self) batch rfl
      have habout : ∀ note ∈ [Note.requested batch], note.batch? = some batch := by
        simp [Note.batch?]
      have hself := total_append_self hnodup hbatch Story.requests notes habout
      simp only [List.foldl_cons, List.foldl_nil, Story.tell] at hself
      have hone : requestsIn [.requested batch] = 1 := rfl
      omega
    | _ =>
      refine (total_append_of_forall (fun told htold story => ?_) batches notes).symm
      obtain rfl := List.mem_singleton.mp htold
      rfl

end Totals

/-! ### Who awaits a repetition -/

/-- The requests of every batch follow each other, and a repetition is awaited only by batches that
are tried or were cut off. -/
structure Repeating (policy : RetryPolicy) (tried : List Batch) (notes : List Note) : Prop where
  reckoned : ∀ batch, (storyOf batch notes).Reckoned policy
  awaits : ∀ batch, (storyOf batch notes).AwaitsRepeat policy → .cut batch ∈ notes ∨ batch ∈ tried

namespace Repeating

variable {policy : RetryPolicy} {tried later : List Batch} {notes : List Note}

theorem start (policy : RetryPolicy) : Repeating policy [] [] :=
  ⟨fun _ => Story.reckoned_blank policy,
    fun _ hawaits => absurd hawaits.requested (Nat.lt_irrefl 0)⟩

theorem mono (h : Repeating policy tried notes) (hsubset : tried ⊆ later) :
    Repeating policy later notes :=
  ⟨h.reckoned, fun batch hawaits => (h.awaits batch hawaits).imp_right fun hin => hsubset hin⟩

/-- Outside the workers, nothing is noted that matters. -/
theorem outside (h : Repeating policy tried notes) {note : Note} (hnote : note.batch? = none) :
    Repeating policy tried (notes ++ [note]) := by
  -- The note is about no single batch, so a story takes it up as it stands or not at all.
  have hstory : ∀ batch, storyOf batch (notes ++ [note]) = storyOf batch notes ∨
      storyOf batch (notes ++ [note]) = (storyOf batch notes).tell note := by
    intro batch
    rw [storyOf_append]
    cases habout : note.isAbout batch with
    | false => exact .inl (by simp [habout])
    | true => exact .inr (by simp [habout])
  refine ⟨fun batch => ?_, fun batch hawaits => ?_⟩
  · rcases hstory batch with hsame | htold
    · exact hsame ▸ h.reckoned batch
    · exact htold ▸ (h.reckoned batch).outside hnote
  · have hbefore : (storyOf batch notes).AwaitsRepeat policy := by
      rcases hstory batch with hsame | htold
      · exact hsame ▸ hawaits
      · exact (htold ▸ hawaits : ((storyOf batch notes).tell note).AwaitsRepeat policy).of_outside
          hnote
    exact (h.awaits batch hbefore).imp_left (List.mem_append_left _)

/-- A worker has noted something about its batch. -/
theorem worker (h : Repeating policy tried notes) (batch : Batch) {more : List Note}
    (hmore : ∀ note ∈ more, note.batch? = some batch)
    (hreckoned : (more.foldl Story.tell (storyOf batch notes)).Reckoned policy)
    (hawaits : (more.foldl Story.tell (storyOf batch notes)).AwaitsRepeat policy →
      .cut batch ∈ more ∨ batch ∈ later)
    (hothers : ∀ other ∈ tried, other ≠ batch → other ∈ later) :
    Repeating policy later (notes ++ more) := by
  refine ⟨fun other => ?_, fun other hother => ?_⟩
  · -- The notes are about one batch, so the stories of the others stay as they are.
    by_cases heq : other = batch
    · rw [heq, storyOf_append_self notes hmore]
      exact hreckoned
    · rw [storyOf_append_of_ne heq notes hmore]
      exact h.reckoned other
  · by_cases heq : other = batch
    · subst heq
      rw [storyOf_append_self notes hmore] at hother
      exact (hawaits hother).imp_left (List.mem_append_right _)
    · rw [storyOf_append_of_ne heq notes hmore] at hother
      exact (h.awaits other hother).imp (List.mem_append_left _) fun hin => hothers other hin heq

end Repeating

/-- **A transition of the pool leaves nothing awaited** but by batches that are tried or were cut
off. -/
theorem Pool.Shift.repeating {policy : RetryPolicy} {fired : Bool} {before after : Pool}
    {note : Option Note} {notes : List Note} (h : before.Shift policy fired after note)
    (hfaithful : before.Faithful policy notes)
    (hrepeating : Repeating policy (before.tried.map (·.1)) notes) :
    Repeating policy (after.tried.map (·.1)) (notes ++ note.toList) := by
  cases h with
  | still _ htried =>
    rw [Option.toList_none, List.append_nil]
    exact hrepeating.mono (htried.map _).subset
  | taken _ _ htried =>
    rw [Option.toList_none, List.append_nil]
    refine hrepeating.mono fun batch hbatch => ?_
    exact (htried.map _).symm.subset (List.mem_cons_of_mem _ hbatch)
  | @dropped batch _ huntried htried =>
    have hstory := hfaithful.untried batch (huntried.mem_iff.mpr List.mem_cons_self)
    have hmax := policy.one_le_maxAttempts
    refine hrepeating.worker batch (by simp [Note.batch?]) ?_
      (fun _ => .inl (List.mem_singleton_self _)) fun other hother _ => (htried.map _).subset hother
    rw [hstory]
    exact ⟨Nat.le_refl _, Nat.zero_le _, Nat.zero_le _, fun _ => hmax⟩
  | @advanced batch attempt next others event hstep _ htried htriedAfter =>
    have hunderway := hfaithful.tried _ (htried.mem_iff.mpr List.mem_cons_self)
    refine hrepeating.worker batch (fun _ => Note.batch?_of_mem_ofAttempt)
      (hunderway.advance hstep).reckoned (fun _ => .inr ?_) fun other hother hne => ?_
    · exact (htriedAfter.map _).symm.subset List.mem_cons_self
    · have hrest := (List.mem_cons.mp ((htried.map _).subset hother)).resolve_left hne
      exact (htriedAfter.map _).symm.subset (List.mem_cons_of_mem _ hrest)
  | @ended batch attempt verdict event hstep _ htried =>
    have hunderway := hfaithful.tried _ (htried.mem_iff.mpr List.mem_cons_self)
    obtain ⟨hreckoned, hawaits⟩ := hunderway.reckoned_of_ended batch hstep
    refine hrepeating.worker batch (fun _ => Note.batch?_of_mem_ofAttempt) hreckoned
      (fun hnow => .inl (hawaits hnow)) fun other hother hne => ?_
    exact (List.mem_cons.mp ((htried.map _).subset hother)).resolve_left hne
  | @broken batch n _ htried =>
    have hunderway := hfaithful.tried _ (htried.mem_iff.mpr List.mem_cons_self)
    obtain ⟨hrefusals, hrequests, hwithin, hcut⟩ := hunderway.reckoned
    refine hrepeating.worker batch (by simp [Note.batch?]) ⟨hrefusals, hrequests, hwithin, hcut⟩
      (fun hnow => ?_) fun other hother hne => ?_
    · -- the worker breaks down during a request, which has not been refused
      have hsame : (storyOf batch notes).refusals.length = (storyOf batch notes).requests :=
        hnow.refused
      have hrefused := hunderway.refusals
      have hsent := hunderway.requests
      have hone := hunderway.one_le
      simp only [Attempt.number, Attempt.sent, Attempt.refused] at hone hsent hrefused
      omega
    · exact (List.mem_cons.mp ((htried.map _).subset hother)).resolve_left hne

theorem Pool.tried_of_isOver {pool : Pool} (h : pool.isOver = true) : pool.tried = [] := by
  have hlength := congrArg List.length (batches_of_isOver h)
  simp only [batches, List.length_append, List.length_map] at hlength
  exact List.length_eq_zero_iff.mp (by omega)

namespace Run

variable {run next : Run} {note : Option Note} {notes : List Note}
  {failures : List (Nat × FailureReason)}

/-- The batches that are tried. -/
def tried (run : Run) : List Batch :=
  match run.stage with
  | .busy cycle => cycle.pool.tried.map (·.1)
  | _ => []

/-- **In a run, a repetition is awaited only by batches that are tried or were cut off.** -/
theorem Explained.repeating_move (hexplained : run.Explained notes)
    (hmove : run.Move note failures next)
    (h : Repeating run.setup.policy run.tried notes) :
    Repeating next.setup.policy next.tried (notes ++ note.toList) := by
  rw [hmove.setup_eq]
  cases hmove with
  | fire | conclude hstage =>
    rw [Option.toList_none, List.append_nil]
    refine h.mono ?_
    simp_all [tried]
  | openCycle hstage =>
    refine (h.outside rfl).mono ?_
    simp [tried, hstage]
  | pool hstage hpool =>
    -- Only the pool's own moves concern a request or a repeat.
    have hshift := Pool.shift_of_step? hpool
    rw [tried, hstage] at h
    exact hshift.repeating (hexplained.pooled _ hstage) h
  | intake hstage | deliver hstage =>
    refine (h.outside rfl).mono ?_
    rw [tried, hstage]
    exact List.Subset.refl _
  | closeCycle hstage hover =>
    rw [CycleState.isOver, Bool.and_eq_true] at hover
    rw [Option.toList_none, List.append_nil]
    refine h.mono ?_
    rw [tried, hstage]
    simp [Pool.tried_of_isOver hover.1]
  | cancelRest hstage =>
    rw [Option.toList_none, List.append_nil]
    refine h.mono ?_
    simp [tried, hstage]

variable {setup : RunSetup} {asked : List Nat} {telemetry : Telemetry} {events : List Event}

theorem repeating_of_execute (hsound : setup.plan.Sound)
    (hrun : (start setup telemetry).execute events = some run) :
    Repeating run.setup.policy run.tried ((start setup telemetry).notes events) := by
  refine (execute_induct (motive := fun run notes => run.Explained notes ∧
    Repeating run.setup.policy run.tried notes) hrun
    ⟨explained_start hsound telemetry, .start setup.policy⟩ fun ⟨hexplained, h⟩ hstep => ?_).2
  obtain ⟨failures, hmove⟩ := move_of_step? hstep
  exact ⟨hexplained.move hmove, hexplained.repeating_move hmove h⟩

theorem awaitingIn_eq_abandonedIn {policy : RetryPolicy} (h : Repeating policy [] notes)
    (batches : List Batch) : awaitingIn policy batches notes = abandonedIn batches notes := by
  refine List.countP_congr fun batch _ => ?_
  rw [decide_eq_true_iff, decide_eq_true_iff]
  constructor
  · intro hawaits
    have hcut := (h.awaits batch hawaits).resolve_right List.not_mem_nil
    exact ⟨storyOf_cut.mpr hcut, hawaits.requested, hawaits.refused⟩
  · rintro ⟨hcut, hrequested, hrefused⟩
    exact ⟨hrequested, hrefused, hrefused ▸ (h.reckoned batch).cut_lt hcut⟩

/-- What the counters say about repeated requests, after a run. -/
structure CountsRepeats (before : Telemetry) (run : Run) (notes : List Note) : Prop where
  /-- Every request is the first one for its batch, or repeats an earlier one. -/
  requests : requestsIn notes = startedIn run.setup.plan.batches notes +
    total Story.repeats run.setup.plan.batches notes
  attempts : run.accounts.telemetry.stats.attempts =
    Word.wrap (before.stats.attempts + requestsIn notes)
  /-- The engine counts those that repeat an earlier one, and those that were cut off before they
  could. -/
  retries : run.accounts.telemetry.stats.retries = Word.wrap (before.stats.retries +
    (total Story.repeats run.setup.plan.batches notes + abandonedIn run.setup.plan.batches notes))
  /-- So do the metrics. -/
  repetitions : run.accounts.telemetry.metrics.retries = Word.wrap (before.metrics.retries +
    (total Story.repeats run.setup.plan.batches notes + abandonedIn run.setup.plan.batches notes))

/-- **The repeated requests are counted, and so are the repetitions that the token has cut off.**
Whatever the provider, the policy and the workers do and in whatever order, the counter is raised
by the requests that repeat an earlier one for the same batch, and by one more for each batch that
the token has cut off between a refusal and the repetition. -/
theorem repeats_of_outcome (hasks : setup.Asks asked) (hwell : telemetry.WellFormed)
    (hrun : (start setup telemetry).execute events = some run) {elapsed : Elapsed}
    {outcome : RunOutcome} (houtcome : run.outcome? elapsed = some outcome) :
    CountsRepeats telemetry run ((start setup telemetry).notes events) := by
  have hsound : run.setup.plan.Sound := setup_of_execute hrun ▸ hasks.sound
  have htraced := traced_of_execute hasks.sound hrun
  have hrepeating := repeating_of_execute hasks.sound hrun
  have hraised := raised_of_execute hasks.sound hrun
  have hafter := wellFormed_of_execute hasks hwell hrun
  obtain ⟨tellings, htold, htells⟩ := tellings_of_execute hasks.sound hrun
  obtain ⟨⟨cancelled, hstage⟩, -⟩ := outcome?_eq_some houtcome
  rw [tried, hstage] at hrepeating
  -- At the end of a run no worker tries anything, so whatever still awaits a repeat was cut off.
  have hcounted := hraised.retries
  simp only [gain, total_retries_eq hrepeating.reckoned, awaitingIn_eq_abandonedIn hrepeating]
    at hcounted
  exact {
    requests := by
      rw [requestsIn_eq_total hsound.nodup_batches htraced.planned]
      exact total_requests_eq _ _
    attempts := by
      rw [htold, ← htells.requests]
      exact Telemetry.attemptsCounter.read_tellAll hwell tellings
    retries := Word.eq_wrap_of_modEq hcounted hafter.retries
    repetitions := by
      rw [htold] at hcounted ⊢
      exact Telemetry.Counter.read_alike
        (show Telemetry.repetitionsCounter.gain = Telemetry.retriesCounter.gain from rfl)
        hwell hcounted }

/-- Two requests are refused.  One of them is repeated and answered; the token fires before the
other one is, but its repetition has been counted. -/
theorem repeats_of_outcome_one_of_two :
    let settings : Settings :=
      { (default : Settings) with retryAttempts := 1, batchesPerCycle := 2, workers := 2 }
    let setup := RunSetup.ofRange settings false ⟨5, 6⟩ 0
    let reset : TransportError := .withoutStatus .request "reset"
    let refused (worker : Nat) : List Event :=
      [.pool .enqueue, .pool (.take worker), .pool (.attempt worker .start),
        .pool (.attempt worker (.finish (.error reset)))]
    let answered : List Event := [.pool (.attempt 0 .start),
      .pool (.attempt 0 (.finish (.ok [(5, .failed .notFound)])))]
    let handedOver (worker : Nat) : List Event :=
      [.pool (.report worker), .intake, .pool (.leave worker)]
    let events : List Event := [.openCycle] ++ refused 0 ++ refused 1 ++ answered ++
      [.fire, .pool (.attempt 1 .cut)] ++ handedOver 0 ++ handedOver 1 ++ [.closeCycle, .conclude]
    ∃ run outcome, (start setup .zero).execute events = some run ∧
      run.outcome? ⟨0⟩ = some outcome ∧
      CountsRepeats .zero run ((start setup .zero).notes events) ∧
      run.accounts.telemetry.stats.attempts = 3 ∧ run.accounts.telemetry.stats.retries = 2 ∧
      abandonedIn run.setup.plan.batches ((start setup .zero).notes events) = 1 := by
  intro settings setup reset refused answered handedOver events
  have hasks : setup.Asks [5, 6] :=
    @RunSetup.Asks.overRange 5 6 ⟨5, 6⟩ settings false 0 (by decide) rfl
  -- Both requests are refused, one is repeated, and the other is cut off while it waits.
  obtain ⟨run, hrun⟩ : ∃ run, (start setup .zero).execute events = some run :=
    Option.isSome_iff_exists.mp (by decide)
  have htells : ((start setup .zero).execute events).map (fun run =>
      (run.accounts.telemetry.stats.attempts, run.accounts.telemetry.stats.retries,
        (run.outcome? ⟨0⟩).isSome,
        abandonedIn run.setup.plan.batches ((start setup .zero).notes events))) =
          some (3, 2, true, 1) := by decide
  rw [hrun] at htells
  obtain ⟨hattempts, hrest⟩ := Prod.mk.inj (Option.some.inj htells)
  obtain ⟨hretries, hrest⟩ := Prod.mk.inj hrest
  obtain ⟨hover, habandoned⟩ := Prod.mk.inj hrest
  obtain ⟨outcome, houtcome⟩ := Option.isSome_iff_exists.mp hover
  have hcounts := repeats_of_outcome hasks Telemetry.wellFormed_zero hrun houtcome
  exact ⟨run, outcome, hrun, houtcome, hcounts, hattempts, hretries, habandoned⟩

/-- A repetition may be counted that was never sent: the first request is refused, and the token
fires before the second one. -/
theorem not_retries_eq_repeats :
    ¬∀ (setup : RunSetup) (asked : List Nat) (telemetry : Telemetry) (events : List Event)
      (run : Run) (elapsed : Elapsed) (outcome : RunOutcome), setup.Asks asked →
      telemetry.WellFormed → (start setup telemetry).execute events = some run →
      run.outcome? elapsed = some outcome →
      run.accounts.telemetry.stats.retries = Word.wrap (telemetry.stats.retries +
        total Story.repeats run.setup.plan.batches ((start setup telemetry).notes events)) := by
  intro hall
  let settings : Settings := { (default : Settings) with retryAttempts := 3 }
  let setup := RunSetup.ofRange settings false ⟨0, 0⟩ 0
  have hasks : setup.Asks [0] :=
    @RunSetup.Asks.overRange 0 0 ⟨0, 0⟩ settings false 0 (by decide) rfl
  -- The only request is refused, and the token fires during the delay before its repeat.
  let events : List Event :=
    [.openCycle, .pool .enqueue, .pool (.take 0), .pool (.attempt 0 .start),
      .pool (.attempt 0 (.finish (.error (.withoutStatus .request "reset")))), .fire,
      .pool (.attempt 0 .cut), .pool (.report 0), .intake, .pool (.leave 0), .closeCycle,
      .conclude]
  obtain ⟨run, hrun⟩ : ∃ run, (start setup .zero).execute events = some run :=
    Option.isSome_iff_exists.mp (by decide)
  have htells : ((start setup .zero).execute events).map (fun run =>
      (run.accounts.telemetry.stats.retries, (run.outcome? ⟨0⟩).isSome,
        total Story.repeats run.setup.plan.batches ((start setup .zero).notes events))) =
          some (1, true, 0) := by decide
  rw [hrun] at htells
  obtain ⟨hretries, hrest⟩ := Prod.mk.inj (Option.some.inj htells)
  obtain ⟨hover, hrepeats⟩ := Prod.mk.inj hrest
  obtain ⟨outcome, houtcome⟩ := Option.isSome_iff_exists.mp hover
  have hsame := hall setup [0] .zero events run ⟨0⟩ outcome hasks Telemetry.wellFormed_zero hrun
    houtcome
  rw [hretries, hrepeats] at hsame
  exact absurd hsame (by decide)

end Run

end Backfill
