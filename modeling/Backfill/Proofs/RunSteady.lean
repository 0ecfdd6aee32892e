import Backfill.Proofs.RunReasons
import Backfill.Proofs.RunResults

/-!
# Runs that nothing disturbs

A run is left alone if the token does not fire, no worker breaks down, and provider and sink are
functions: what the provider answers depends on the slots of the batch and on the number of the
request for it, and whether somebody takes records depends on the records.  When such a run is
over, every batch has been tried to its end, and there is only one way in which its story can have
gone.  Everything that the report tells follows from these stories.

## Main definitions

* `ProviderRule`, `SinkRule` — those that a run talks to, as functions.
* `Steady` — a history that keeps to both, without a breakdown.
* `Story.KeepsTo` — a story that keeps to what is answered.
* `Story.result` — what comes of a batch with a story.
* `Run.Undisturbed` — a run that is left alone.

## Main results

* `Story.KeepsTo.agree` — **two stories that keep to the same answers and have ended are the
  same.**
* `Run.Undisturbed.ended` — when a run that is left alone is over, every story has ended.
* `Run.Undisturbed.deliveries_perm`, `Run.Undisturbed.reasonOf?_eq` — what was handed on, and the
  reason of every slot, are those that the stories call for.
-/

namespace Backfill

/-! ### Provider and sink as functions -/

/-- What is answered to the request with a number, counted from one, for a batch with slots. -/
abbrev ProviderRule := List Nat → Nat → Except TransportError Outcomes

/-- Whether somebody takes records. -/
abbrev SinkRule := List DispatchRecord → Except DispatchError Unit

/-- What is noted keeps to provider and sink, after what has been told, and is no breakdown. -/
def Note.KeepsTo (provider : ProviderRule) (sink : SinkRule) (told : List Note) : Note → Prop
  | .answered batch outcomes => provider batch.slots (storyOf batch told).requests = .ok outcomes
  | .refused batch error => provider batch.slots (storyOf batch told).requests = .error error
  | .delivered delivery result => delivery.records ≠ [] → result = sink delivery.records
  | .broke _ => False
  | _ => True

instance (provider : ProviderRule) (sink : SinkRule) (told : List Note) :
    (note : Note) → Decidable (note.KeepsTo provider sink told)
  | .answered batch outcomes => inferInstanceAs
    (Decidable (provider batch.slots (storyOf batch told).requests = .ok outcomes))
  | .refused batch error => inferInstanceAs
    (Decidable (provider batch.slots (storyOf batch told).requests = .error error))
  | .delivered delivery result => inferInstanceAs
    (Decidable (delivery.records ≠ [] → result = sink delivery.records))
  | .broke _ => inferInstanceAs (Decidable False)
  | .opened _ | .requested _ | .cut _ | .settled _ => inferInstanceAs (Decidable True)

/-- All that is noted after what has been told keeps to provider and sink, and no worker breaks
down. -/
def SteadyFrom (provider : ProviderRule) (sink : SinkRule) (told : List Note) : List Note → Prop
  | [] => True
  | note :: rest =>
    note.KeepsTo provider sink told ∧ SteadyFrom provider sink (told ++ [note]) rest

instance decidableSteadyFrom (provider : ProviderRule) (sink : SinkRule) :
    (told notes : List Note) → Decidable (SteadyFrom provider sink told notes)
  | _, [] => inferInstanceAs (Decidable True)
  | told, note :: rest =>
    have := decidableSteadyFrom provider sink (told ++ [note]) rest
    inferInstanceAs (Decidable (note.KeepsTo provider sink told ∧
      SteadyFrom provider sink (told ++ [note]) rest))

/-- All that is noted keeps to provider and sink, and no worker breaks down. -/
def Steady (provider : ProviderRule) (sink : SinkRule) (notes : List Note) : Prop :=
  SteadyFrom provider sink [] notes

instance (provider : ProviderRule) (sink : SinkRule) (notes : List Note) :
    Decidable (Steady provider sink notes) := decidableSteadyFrom provider sink [] notes

variable {provider : ProviderRule} {sink : SinkRule}

theorem steadyFrom_append {told notes more : List Note} :
    SteadyFrom provider sink told (notes ++ more) ↔
      SteadyFrom provider sink told notes ∧ SteadyFrom provider sink (told ++ notes) more := by
  induction notes generalizing told with
  | nil => simp [SteadyFrom]
  | cons note rest ih => simp [SteadyFrom, ih, and_assoc]

namespace Steady

variable {notes more : List Note}

theorem of_append (h : Steady provider sink (notes ++ more)) : Steady provider sink notes :=
  (steadyFrom_append.mp h).1

theorem last {note : Option Note} (h : Steady provider sink (notes ++ note.toList)) :
    ∀ told ∈ note.toList, told.KeepsTo provider sink notes := by
  intro told htold
  obtain rfl := Option.mem_toList.mp htold
  exact (steadyFrom_append.mp h).2.1

theorem exists_keepsTo (h : Steady provider sink notes) {note : Note} (hnote : note ∈ notes) :
    ∃ told, note.KeepsTo provider sink told := by
  obtain ⟨told, rest, rfl⟩ := List.append_of_mem hnote
  exact ⟨told, (steadyFrom_append.mp h).2.1⟩

theorem not_broke (h : Steady provider sink notes) (batch : Batch) : .broke batch ∉ notes :=
  fun hbroke => (h.exists_keepsTo hbroke).elim fun _ hfalse => hfalse

theorem breakdowns_eq (h : Steady provider sink notes) (cycle : Cycle) :
    breakdowns cycle notes = 0 := by
  refine List.countP_eq_zero.mpr fun note hnote hbreaks => ?_
  cases note with
  | broke batch => exact h.not_broke batch hnote
  | _ => simp [Note.breaksIn] at hbreaks

end Steady

/-! ### Stories that keep to answers -/

namespace Story

/-- A story that keeps to what is answered to its requests, and is not cut off: all requests were
refused, except for one that was answered if there is an answer. -/
structure KeepsTo (policy : RetryPolicy) (ask : Nat → Except TransportError Outcomes)
    (story : Story) : Prop where
  cut : story.cut = false
  broke : story.broke = false
  refused : ∀ n error, story.refusals[n]? = some error → ask (n + 1) = .error error
  answered : ∀ outcomes, story.answer = some outcomes → ask story.requests = .ok outcomes ∧
    story.requests = story.refusals.length + 1 ∧ story.refusals.length < policy.maxAttempts
  exhausted : story.refusals.length = policy.maxAttempts →
    story.requests = story.refusals.length

/-- The attempts for a batch have ended: there is an answer, or as many requests were refused as
the policy allows. -/
def Ended (policy : RetryPolicy) (story : Story) : Prop :=
  story.answer ≠ none ∨ story.refusals.length = policy.maxAttempts

variable {policy : RetryPolicy} {ask : Nat → Except TransportError Outcomes}
  {story other : Story}

theorem keepsTo_blank (policy : RetryPolicy) (ask : Nat → Except TransportError Outcomes) :
    blank.KeepsTo policy ask where
  cut := rfl
  broke := rfl
  refused n error herror := by simp [blank] at herror
  answered outcomes hanswer := by simp [blank] at hanswer
  exhausted hall := by
    have hmax := policy.one_le_maxAttempts
    simp only [blank, List.length_nil] at hall
    omega

theorem KeepsTo.tell_opened (h : story.KeepsTo policy ask) (cycle : Cycle) :
    (story.tell (.opened cycle)).KeepsTo policy ask :=
  ⟨h.cut, h.broke, h.refused, h.answered, h.exhausted⟩

/-- **The attempts for a batch keep to what is answered**, as long as what is noted does. -/
theorem KeepsTo.tell_attempt {provider : ProviderRule} {sink : SinkRule} {notes : List Note}
    {batch : Batch} {attempt : Attempt} {event : RetryPolicy.Event Outcomes TransportError}
    {next : Attempt.Next Outcomes TransportError}
    (h : (storyOf batch notes).KeepsTo policy (provider batch.slots))
    (hunderway : (storyOf batch notes).Underway policy attempt)
    (hstep : policy.step? TransportError.isRetryable false attempt event = some next)
    (hkeeps : ∀ told ∈ (Note.ofAttempt batch event).toList, told.KeepsTo provider sink notes) :
    ((Note.ofAttempt batch event).toList.foldl tell (storyOf batch notes)).KeepsTo policy
      (provider batch.slots) := by
  generalize hstory : storyOf batch notes = story at h hunderway ⊢
  obtain ⟨-, hanswer, -, -, hone, hrequests, hrefusals, hremains⟩ := hunderway
  cases event with
  | cut => simp [RetryPolicy.step?] at hstep
  | resume => exact h
  | start =>
    refine ⟨h.cut, h.broke, h.refused, fun outcomes houtcomes => ?_, fun hall => ?_⟩
    · simp [Note.ofAttempt, tell, hanswer] at houtcomes
    · simp only [Note.ofAttempt, Option.toList_some, List.foldl_cons, List.foldl_nil, tell] at hall
      omega
  | finish result =>
    cases attempt with
    | waiting | pausing => cases result <;> simp [RetryPolicy.step?] at hstep
    | running n =>
      simp only [Attempt.number, Attempt.sent, Attempt.refused] at *
      cases result with
      | ok outcomes =>
        have hask : provider batch.slots story.requests = .ok outcomes :=
          hstory ▸ hkeeps _ List.mem_cons_self
        refine ⟨h.cut, h.broke, h.refused, fun found hfound => ?_, h.exhausted⟩
        obtain rfl : outcomes = found := by simpa [Note.ofAttempt, tell] using hfound
        refine ⟨hask, ?_, ?_⟩ <;>
          simp only [Note.ofAttempt, Option.toList_some, List.foldl_cons, List.foldl_nil, tell] <;>
          omega
      | error error =>
        have hask : provider batch.slots story.requests = .error error :=
          hstory ▸ hkeeps _ List.mem_cons_self
        refine ⟨h.cut, h.broke, fun m found hfound => ?_, fun outcomes houtcomes => ?_,
          fun _ => ?_⟩
        · -- the refusal that is new comes last, and is the answer to the last request
          simp only [Note.ofAttempt, Option.toList_some, List.foldl_cons, List.foldl_nil, tell,
            List.getElem?_append] at hfound
          split at hfound
          · exact h.refused m found hfound
          · obtain ⟨hm, rfl⟩ : m - story.refusals.length = 0 ∧ error = found := by
              simpa [List.getElem?_singleton] using hfound
            rw [← hask]
            congr 1
            omega
        · simp [Note.ofAttempt, tell, hanswer] at houtcomes
        · simp only [Note.ofAttempt, Option.toList_some, List.foldl_cons, List.foldl_nil, tell,
            List.length_append, List.length_singleton]
          omega

theorem KeepsTo.length_le (h : story.KeepsTo policy ask) (hother : other.KeepsTo policy ask)
    (hended : story.Ended policy) (hotherEnded : other.Ended policy) :
    story.refusals.length ≤ other.refusals.length := by
  by_contra hlt
  have hle : story.refusals.length ≤ policy.maxAttempts := by
    rcases hended with hanswer | hall
    · obtain ⟨outcomes, houtcomes⟩ := Option.ne_none_iff_exists'.mp hanswer
      exact Nat.le_of_lt (h.answered outcomes houtcomes).2.2
    · exact Nat.le_of_eq hall
  rcases hotherEnded with hanswer | hall
  · -- one story says that this request was refused, the other one that it was answered
    obtain ⟨outcomes, houtcomes⟩ := Option.ne_none_iff_exists'.mp hanswer
    obtain ⟨hok, hrequests, -⟩ := hother.answered outcomes houtcomes
    have herror := h.refused other.refusals.length _ (List.getElem?_eq_getElem (by omega))
    rw [hrequests, herror] at hok
    simp at hok
  · omega

/-- **Two stories that keep to the same answers and have ended are the same**, as far as requests
are concerned. -/
theorem KeepsTo.agree (h : story.KeepsTo policy ask) (hother : other.KeepsTo policy ask)
    (hended : story.Ended policy) (hotherEnded : other.Ended policy) :
    story.refusals = other.refusals ∧ story.answer = other.answer ∧
      story.requests = other.requests := by
  have hlength := Nat.le_antisymm (h.length_le hother hended hotherEnded)
    (hother.length_le h hotherEnded hended)
  have hrefusals : story.refusals = other.refusals := by
    refine List.ext_getElem hlength fun n hn hnOther => ?_
    have hleft := h.refused n _ (List.getElem?_eq_getElem hn)
    have hright := hother.refused n _ (List.getElem?_eq_getElem hnOther)
    exact Except.error.inj (hleft.symm.trans hright)
  refine ⟨hrefusals, ?_⟩
  -- With the same refusals, both stories end with the same request's answer, or without one.
  cases hanswer : story.answer with
  | some outcomes =>
    obtain ⟨hok, hrequests, hless⟩ := h.answered outcomes hanswer
    rcases hotherEnded with hanswerOther | hall
    · obtain ⟨found, hfound⟩ := Option.ne_none_iff_exists'.mp hanswerOther
      obtain ⟨hokOther, hrequestsOther, -⟩ := hother.answered found hfound
      have hsame : story.requests = other.requests := by omega
      rw [hsame, hokOther] at hok
      exact ⟨by rw [hfound, Except.ok.inj hok], hsame⟩
    · omega
  | none =>
    have hall : story.refusals.length = policy.maxAttempts :=
      hended.resolve_left (by simp [hanswer])
    cases hanswerOther : other.answer with
    | some found =>
      have hless := (hother.answered found hanswerOther).2.2
      omega
    | none =>
      have hrequests := h.exhausted hall
      have hrequestsOther := hother.exhausted (by omega)
      exact ⟨rfl, by omega⟩

/-- **What comes of a batch with a story.** -/
def result (policy : RetryPolicy) (batch : Batch) (story : Story) : BatchResult :=
  match story.fate policy with
  | .answered outcomes => ⟨batch, outcomes, story.requests⟩
  | .exhausted attempts lastError => .uniform batch (.exhaustedRetries attempts lastError) attempts
  | .cancelled => .cancelled batch story.requests
  | .lost => .uniform batch .workerLost story.requests

@[simp] theorem batch_result (policy : RetryPolicy) (batch : Batch) (story : Story) :
    (story.result policy batch).batch = batch := by
  unfold result
  split <;> rfl

theorem Explains.outcomes_eq {result : BatchResult} (h : story.Explains policy result) :
    result.outcomes = (story.result policy result.batch).outcomes := by
  unfold Explains at h
  unfold Story.result
  cases hfate : story.fate policy with
  | lost =>
    rw [hfate] at h
    exact h.elim
  | _ =>
    rw [hfate] at h
    exact h

/-- An ended story that was not cut off ends in an answer or with all attempts used up. -/
theorem KeepsTo.result_eq (h : story.KeepsTo policy ask) (hother : other.KeepsTo policy ask)
    (hended : story.Ended policy) (hotherEnded : other.Ended policy) (batch : Batch) :
    story.result policy batch = other.result policy batch := by
  obtain ⟨hrefusals, hanswer, hrequests⟩ := h.agree hother hended hotherEnded
  have hfate : story.fate policy = other.fate policy := by
    rw [fate, fate, ← hanswer, ← hrefusals, ← hrequests, h.cut, hother.cut]
    cases hfound : story.answer with
    | some outcomes => rfl
    | none =>
      have hall : story.refusals.length = policy.maxAttempts :=
        hended.resolve_left (by simp [hfound])
      simp only [hall, if_true]
  rw [result, result, hfate, hrequests]

/-- Attempts that were begun and not lost have ended. -/
theorem KeepsTo.ended (h : story.KeepsTo policy ask) (hopened : story.opened = true)
    (hfate : story.fate policy ≠ .lost) : story.Ended policy := by
  by_contra hnot
  simp only [Ended, not_or, not_not] at hnot
  simp [fate, hnot.1, hnot.2, h.cut, hopened] at hfate

end Story

/-! ### What a result leads to -/

/-- How a delivery ends: one with nothing to hand on cannot fail. -/
def Delivery.endBy (sink : SinkRule) (delivery : Delivery) : Except DispatchError Unit :=
  if delivery.records.isEmpty then .ok () else sink delivery.records

theorem BatchResult.delivery?_congr {result other : BatchResult}
    (hbatch : result.batch = other.batch) (houtcomes : result.outcomes = other.outcomes)
    (setup : RunSetup) : result.delivery? setup = other.delivery? setup := by
  have hblocks : result.blocks = other.blocks := by
    rw [blocks, blocks, answers, answers, hbatch, houtcomes]
  rw [delivery?, delivery?, hblocks]

/-- The reason of a slot of a batch with a result, when the fetched blocks have been handed on. -/
def BatchResult.reason? (setup : RunSetup) (sink : SinkRule) (result : BatchResult) (slot : Nat) :
    Option FailureReason :=
  match Accounts.outcomeOf result.outcomes slot with
  | .failed reason => some reason
  | .fetched _ =>
    (result.delivery? setup).bind fun delivery => dispatchReason? (delivery.endBy sink)

namespace Run

variable {run next : Run} {note : Option Note} {notes : List Note}
  {failures : List (Nat × FailureReason)} {provider : ProviderRule} {sink : SinkRule}

/-! ### One move -/

/-- **Every transition of a pool keeps all stories to what is answered**, as long as what is noted
does and the token has not fired. -/
theorem keepsTo_shift {policy : RetryPolicy} {before after : Pool}
    (h : before.Shift policy false after note) (hfaithful : before.Faithful policy notes)
    (hsteady : ∀ told ∈ note.toList, told.KeepsTo provider sink notes) {batch : Batch}
    (hstory : (storyOf batch notes).KeepsTo policy (provider batch.slots)) :
    (storyOf batch (notes ++ note.toList)).KeepsTo policy (provider batch.slots) := by
  -- the attempts for one batch go on, and only its story does
  have hattempt : ∀ {tried : Batch} {attempt event} {next : Attempt.Next Outcomes TransportError}
      {others : List (Batch × Attempt)}, before.tried.Perm ((tried, attempt) :: others) →
      policy.step? TransportError.isRetryable false attempt event = some next →
      (∀ told ∈ (Note.ofAttempt tried event).toList, told.KeepsTo provider sink notes) →
      (storyOf batch (notes ++ (Note.ofAttempt tried event).toList)).KeepsTo policy
        (provider batch.slots) := by
    intro tried attempt event next others hperm hstep hkeeps
    have hnoted : ∀ told ∈ (Note.ofAttempt tried event).toList, told.batch? = some tried :=
      fun _ => Note.batch?_of_mem_ofAttempt
    by_cases heq : batch = tried
    · subst heq
      rw [storyOf_append_self notes hnoted]
      have hunderway := hfaithful.tried _ (hperm.mem_iff.mpr List.mem_cons_self)
      exact hstory.tell_attempt hunderway hstep hkeeps
    · rwa [storyOf_append_of_ne heq notes hnoted]
  cases h with
  | still | taken => rwa [Option.toList_none, List.append_nil]
  | dropped hfired => simp at hfired
  | advanced hstep _ hperm => exact hattempt hperm hstep hsteady
  | ended hstep _ hperm => exact hattempt hperm hstep hsteady
  | broken => exact (hsteady _ List.mem_cons_self).elim

/-- **Every move keeps all stories to what is answered.** -/
theorem Explained.keepsTo_move (h : run.Explained notes) (hmove : run.Move note failures next)
    (hfired : run.fired = false)
    (hsteady : ∀ told ∈ note.toList, told.KeepsTo provider sink notes) {batch : Batch}
    (hstory : (storyOf batch notes).KeepsTo run.setup.policy (provider batch.slots)) :
    (storyOf batch (notes ++ note.toList)).KeepsTo run.setup.policy (provider batch.slots) := by
  cases hmove with
  | @openCycle cycle =>
    rw [Option.toList_some, storyOf_append]
    by_cases hbatch : batch ∈ cycle.batches
    · simpa [Note.isAbout, hbatch] using hstory.tell_opened cycle
    · simpa [Note.isAbout, hbatch] using hstory
  | pool hstage hpool =>
    have hshift := Pool.shift_of_step? hpool
    rw [hfired] at hshift hsteady ⊢
    exact keepsTo_shift hshift (h.pooled _ hstage) hsteady hstory
  | @intake cycle result =>
    rwa [Option.toList_some, storyOf_append_outside batch notes (.settled result) rfl (by simp)]
  | @deliver cycle position delivery result =>
    rwa [Option.toList_some,
      storyOf_append_outside batch notes (.delivered delivery result) rfl (by simp)]
  | _ => rwa [Option.toList_none, List.append_nil]

/-! ### A whole run -/

/-- A run that is left alone: the token does not fire, no worker breaks down, and provider and sink
keep to their rules. -/
structure Undisturbed (provider : ProviderRule) (sink : SinkRule) (setup : RunSetup)
    (telemetry : Telemetry) (events : List Event) (run : Run) : Prop where
  execute : (start setup telemetry).execute events = some run
  fired : run.fired = false
  steady : Steady provider sink ((start setup telemetry).notes events)

theorem exists_undisturbed {setup : RunSetup} {telemetry : Telemetry} {events : List Event}
    {elapsed : Elapsed} (hsteady : Steady provider sink ((start setup telemetry).notes events))
    (hover : ((((start setup telemetry).execute events).filter (!·.fired)).bind
      (·.outcome? elapsed)).isSome) :
    ∃ run outcome, Undisturbed provider sink setup telemetry events run ∧
      run.outcome? elapsed = some outcome := by
  obtain ⟨outcome, houtcome⟩ := Option.isSome_iff_exists.mp hover
  obtain ⟨run, hrun, hend⟩ := Option.bind_eq_some_iff.mp houtcome
  obtain ⟨hexecute, hfired⟩ := Option.filter_eq_some_iff.mp hrun
  exact ⟨run, outcome, ⟨hexecute, by simpa using hfired, hsteady⟩, hend⟩

namespace Undisturbed

variable {setup : RunSetup} {telemetry : Telemetry} {events : List Event} {batch : Batch}

/-- **All stories keep to what is answered.** -/
theorem keepsTo (h : Undisturbed provider sink setup telemetry events run)
    (hsound : setup.plan.Sound) (batch : Batch) :
    (storyOf batch ((start setup telemetry).notes events)).KeepsTo setup.policy
      (provider batch.slots) := by
  have hinduct := execute_induct (motive := fun run notes => run.setup = setup ∧
    run.Explained notes ∧ (run.fired = false → Steady provider sink notes →
      (storyOf batch notes).KeepsTo setup.policy (provider batch.slots))) h.execute
    ⟨rfl, explained_start hsound telemetry, fun _ _ => Story.keepsTo_blank _ _⟩
    fun ⟨hsetup, hexplained, hkeeps⟩ hstep => ?_
  · exact hinduct.2.2 h.fired h.steady
  · -- What was steady up to now was steady before, so the story so far keeps to the provider.
    obtain ⟨failures, hmove⟩ := move_of_step? hstep
    refine ⟨hmove.setup_eq.trans hsetup, hexplained.move hmove, fun hfired hsteady => ?_⟩
    have hbefore := hkeeps (hmove.fired_of_fired hfired) hsteady.of_append
    rw [← hsetup] at hbefore ⊢
    exact hexplained.keepsTo_move hmove (hmove.fired_of_fired hfired) hsteady.last hbefore

/-- **No batch is lost.** -/
theorem fate_ne_lost (h : Undisturbed provider sink setup telemetry events run)
    (hsound : setup.plan.Sound) {cancelled : Bool} (hstage : run.stage = .over cancelled)
    (hbatch : batch ∈ setup.plan.batches) :
    (storyOf batch ((start setup telemetry).notes events)).fate setup.policy ≠ .lost := by
  obtain ⟨-, hstaffed⟩ := explained_of_execute hsound h.execute
  have hkeeps := h.keepsTo hsound batch
  obtain rfl := setup_of_execute h.execute
  intro hfate
  rcases hstaffed.lost batch hbatch (by simp [ahead, pending, hstage]) hfate with
    hbroke | ⟨-, cycle, -, -, hbreakdowns⟩
  · simp [hkeeps.broke] at hbroke
  · rw [h.steady.breakdowns_eq] at hbreakdowns
    omega

/-- **When a run that is left alone is over, every batch has been tried to its end**, and has a
result. -/
theorem ended (h : Undisturbed provider sink setup telemetry events run)
    (hsound : setup.plan.Sound) {cancelled : Bool} (hstage : run.stage = .over cancelled)
    (hbatch : batch ∈ setup.plan.batches) :
    (storyOf batch ((start setup telemetry).notes events)).Ended setup.policy ∧
      batch ∈ (resultsIn ((start setup telemetry).notes events)).map (·.batch) := by
  have hfate := h.fate_ne_lost hsound hstage hbatch
  have hkeeps := h.keepsTo hsound batch
  have hresulted := resulted_of_execute hsound h.execute
  obtain rfl := setup_of_execute h.execute
  have hopened := hresulted.opened h.fired batch hbatch (by simp [ahead, hstage])
  have hgone := hresulted.gone h.fired batch hbatch (by simp [ahead, pending, hstage])
  exact ⟨hkeeps.ended hopened hfate, hgone.resolve_right hfate⟩

theorem results_perm (h : Undisturbed provider sink setup telemetry events run)
    (hsound : setup.plan.Sound) {cancelled : Bool} (hstage : run.stage = .over cancelled) :
    ((resultsIn ((start setup telemetry).notes events)).map (·.batch)).Perm
      setup.plan.batches := by
  have hsubperm := (delivered_of_execute hsound h.execute).results_subperm
  have hended := fun batch => @ended run provider sink setup telemetry events batch h hsound
    cancelled hstage
  obtain rfl := setup_of_execute h.execute
  refine hsubperm.antisymm (List.subperm_of_subset hsound.nodup_batches fun batch hbatch => ?_)
  exact (hended batch hbatch).2

/-- **What was handed on is what the stories call for.** -/
theorem deliveries_perm (h : Undisturbed provider sink setup telemetry events run)
    (hsound : setup.plan.Sound) {cancelled : Bool} (hstage : run.stage = .over cancelled) :
    let notes := (start setup telemetry).notes events
    (deliveriesOver notes).Perm (setup.plan.batches.filterMap fun batch =>
      ((storyOf batch notes).result setup.policy batch).delivery? setup) := by
  intro notes
  have hresults := h.results_perm hsound hstage
  have hresulted := resulted_of_execute hsound h.execute
  have hdelivered := delivered_of_execute hsound h.execute
  obtain rfl := setup_of_execute h.execute
  have hdeliveries := hdelivered.deliveries
  simp only [deliveries, hstage, List.append_nil] at hdeliveries
  refine hdeliveries.trans (.trans (.of_eq ?_) (hresults.filterMap _))
  rw [List.filterMap_map]
  refine List.filterMap_congr fun result hresult => ?_
  have houtcomes := (hresulted.explains result hresult).outcomes_eq
  exact BatchResult.delivery?_congr (Story.batch_result _ _ _).symm houtcomes run.setup

/-- **Every delivery has ended as the sink decides.** -/
theorem endBy_of_mem (h : Undisturbed provider sink setup telemetry events run)
    (hsound : setup.plan.Sound) {delivery : Delivery} {result : Except DispatchError Unit}
    (hmem : .delivered delivery result ∈ (start setup telemetry).notes events) :
    result = delivery.endBy sink := by
  unfold Delivery.endBy
  split
  · next hempty =>
    exact (resulted_of_execute hsound h.execute).empty delivery result hmem
      (List.isEmpty_iff.mp hempty)
  · next hne =>
    obtain ⟨told, hkeeps⟩ := h.steady.exists_keepsTo hmem
    exact hkeeps fun hnil => hne (List.isEmpty_iff.mpr hnil)

/-- **The reason of every slot is the one that the story of its batch calls for.** -/
theorem reasonOf?_eq (h : Undisturbed provider sink setup telemetry events run)
    (hsound : setup.plan.Sound) {cancelled : Bool} (hstage : run.stage = .over cancelled)
    (hbatch : batch ∈ setup.plan.batches) {slot : Nat} (hslot : slot ∈ batch.slots) :
    run.accounts.ledger.reasonOf? slot =
      ((storyOf batch ((start setup telemetry).notes events)).result setup.policy batch).reason?
        setup sink slot := by
  have hdeliveries := h.deliveries_perm hsound hstage
  have hends := (delivered_of_execute hsound h.execute).ends
  have hendBy := fun delivery result =>
    @endBy_of_mem run provider sink setup telemetry events h hsound delivery result
  obtain ⟨hexplained, -⟩ := explained_of_execute hsound h.execute
  obtain rfl := setup_of_execute h.execute
  have hunsettled : slot ∉ run.unsettled := by simp [unsettled_of_over hstage]
  have hsettled := hexplained.settled batch hbatch slot hslot hunsettled
  generalize (start run.setup telemetry).notes events = notes at *
  unfold Story.result BatchResult.reason?
  cases hfate : (storyOf batch notes).fate run.setup.policy with
  | exhausted attempts lastError =>
    simp only [hsettled, reasonFor, hfate, BatchResult.uniform, Accounts.outcomeOf_uniform hslot]
  | cancelled =>
    simp only [hsettled, reasonFor, hfate, BatchResult.cancelled, BatchResult.uniform,
      Accounts.outcomeOf_uniform hslot]
  | lost =>
    simp only [hsettled, reasonFor, hfate, BatchResult.uniform, Accounts.outcomeOf_uniform hslot]
  | answered outcomes =>
    cases houtcome : Accounts.outcomeOf outcomes slot with
    | failed reason => simp only [hsettled, reasonFor, hfate, houtcome]
    | fetched block =>
      -- the block was handed on, and the end of that delivery has decided
      have hresult : (storyOf batch notes).result run.setup.policy batch =
          ⟨batch, outcomes, (storyOf batch notes).requests⟩ := by
        simp only [Story.result, hfate]
      obtain ⟨delivery, hdelivery, hin⟩ := BatchResult.exists_delivery? run.setup
        (hsound.nodup_slots_of_mem hbatch) hslot houtcome (storyOf batch notes).requests
      have hover : delivery ∈ deliveriesOver notes :=
        hdeliveries.mem_iff.mpr (List.mem_filterMap.mpr ⟨batch, hbatch, hresult ▸ hdelivery⟩)
      obtain ⟨note, hnote, hnoted⟩ := List.mem_filterMap.mp hover
      cases note with
      | delivered found ended =>
        obtain rfl := Option.some.inj hnoted
        rw [(hends found ended hnote slot hin).2, hendBy found ended hnote]
        simp only [hdelivery, Option.bind_some]
      | _ => simp [Note.delivery?] at hnoted

end Undisturbed

end Run

end Backfill
