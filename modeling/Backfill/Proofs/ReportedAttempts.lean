import Backfill.Proofs.BatchTrials

/-!
# The attempts that a result reports

The result of a batch reports the number of its last attempt, and this is meant to tell how many
requests the batch took.  An attempt gets its number before the limiter lets it through, though, so
the two differ in one place: where the token of the run cuts off an attempt that is due but has not
been let through, be it the first one or, once the delay is over, a repeated one.  There the result
reports one attempt more than requests were sent; everywhere else it reports the requests.

## Main definitions

* `Trial.IsDue` — an attempt has its number but has not been let through.
* `Trial.CutWhileDue` — the token cut off an attempt that was due.

## Main results

* `Trial.reports_of_execute` — **the reported attempts are the requests**, and one more exactly
  when the token cut off an attempt that was due.
* `Trial.not_attempts_eq_requests` — a batch without any request may report an attempt.
-/

namespace Backfill

namespace Story

variable {story : Story}

theorem cut_foldl_tell (h : story.cut = true) (notes : List Note) :
    (notes.foldl tell story).cut = true := by
  induction notes generalizing story with
  | nil => exact h
  | cons note rest ih =>
    have hnext : (story.tell note).cut = true := by cases note <;> first | exact h | rfl
    exact ih hnext

variable {policy : RetryPolicy} {attempt : Attempt} {fired : Bool}
  {event : RetryPolicy.Event Outcomes TransportError} {verdict : Verdict Outcomes TransportError}

theorem Underway.ends_number (h : story.Underway policy attempt) (batch : Batch)
    (hstep : policy.step? TransportError.isRetryable fired attempt event = some (.inr verdict)) :
    (BatchResult.ofVerdict batch verdict).attempts = attempt.number ∧
      ((Note.ofAttempt batch event).toList.foldl tell story).requests = attempt.sent := by
  rcases RetryPolicy.cases_of_inr hstep with ⟨rfl, rfl⟩ | ⟨n, outcomes, rfl, rfl, rfl⟩ |
    ⟨n, error, rfl, rfl, -, rfl⟩ <;> exact ⟨rfl, h.requests⟩

end Story

namespace Trial

variable {trial : Trial} {policy : RetryPolicy} {batch : Batch} {limiter : Limiter}
  {telemetry : Telemetry} {events : List Event} {event : Event} {result : BatchResult}

/-- The next attempt has its number, but the limiter has not let it through. -/
def IsDue (trial : Trial) : Prop :=
  ∃ batch n, trial.pool.workers = [.trying batch (.waiting n)]

/-- The token has cut off an attempt that was due. -/
def CutWhileDue (start : Trial) (events : List Event) : Prop :=
  ∃ before after due, events = before ++ .attempt .cut :: after ∧
    start.execute before = some due ∧ due.IsDue

/-- One transition more cuts off an attempt that is due only if it is the cut itself. -/
theorem cutWhileDue_concat {start : Trial} (h : start.execute events = some trial) :
    start.CutWhileDue (events ++ [event]) ↔
      start.CutWhileDue events ∨ event = .attempt .cut ∧ trial.IsDue := by
  constructor
  · rintro ⟨before, after, due, hsplit, hbefore, hdue⟩
    rcases List.eq_nil_or_concat after with rfl | ⟨front, last, rfl⟩
    · obtain ⟨rfl, hlast⟩ := List.append_inj' hsplit rfl
      obtain rfl : trial = due := Option.some.inj (h.symm.trans hbefore)
      exact .inr ⟨List.singleton_inj.mp hlast, hdue⟩
    · rw [List.concat_eq_append, ← List.cons_append, ← List.append_assoc] at hsplit
      exact .inl ⟨before, front, due, (List.append_inj' hsplit rfl).1, hbefore, hdue⟩
  · rintro (⟨before, after, due, rfl, hbefore, hdue⟩ | ⟨rfl, hdue⟩)
    · exact ⟨before, after ++ [event], due, by simp, hbefore, hdue⟩
    · exact ⟨events, [], trial, rfl, h, hdue⟩

theorem CutWhileDue.cut_story {start : Trial} (h : start.CutWhileDue events) (batch : Batch) :
    (story batch events).cut = true := by
  obtain ⟨before, after, -, rfl, -, -⟩ := h
  have hcut : ((story batch before).tell (.cut batch)).cut = true := rfl
  rw [story, List.filterMap_append, List.foldl_append]
  exact Story.cut_foldl_tell hcut _

theorem not_cutWhileDue_of_underway {start : Trial} {attempt : Attempt}
    (h : (story batch events).Underway policy attempt) : ¬start.CutWhileDue events := by
  intro hcut
  have hstory := hcut.cut_story batch
  rw [h.cut] at hstory
  exact Bool.noConfusion hstory

/-- A result reports the requests, and one more if the token cut off an attempt that was due. -/
structure Reports (start : Trial) (events : List Event) (requests : Nat) (result : BatchResult) :
    Prop where
  sent : ¬start.CutWhileDue events → result.attempts = requests
  due : start.CutWhileDue events → result.attempts = requests + 1

/-- What leaves the worker of the batch where it is leaves the report as it is. -/
theorem Reports.other {start : Trial}
    (h : start.Reports events (story batch events).requests result)
    (hbefore : start.execute events = some trial) (hnote : event.note? batch = none)
    (hevent : event ≠ .attempt .cut) :
    start.Reports (events ++ [event]) (story batch (events ++ [event])).requests result := by
  have hstory : story batch (events ++ [event]) = story batch events := by
    rw [story_concat, hnote]
    rfl
  have hdue : start.CutWhileDue (events ++ [event]) ↔ start.CutWhileDue events := by
    rw [cutWhileDue_concat hbefore]
    exact ⟨fun hcut => hcut.resolve_right fun ⟨heq, _⟩ => hevent heq, .inl⟩
  rw [hstory]
  exact ⟨fun hcut => h.sent (mt hdue.mpr hcut), fun hcut => h.due (hdue.mp hcut)⟩

/-- **The end of the attempts makes the report**: their last number is the number of requests,
unless that attempt is due and is cut off. -/
theorem reports_of_ended {start : Trial} {attempt : Attempt} {fired : Bool}
    {event : RetryPolicy.Event Outcomes TransportError} {verdict : Verdict Outcomes TransportError}
    (hbefore : start.execute events = some trial)
    (hworkers : trial.pool.workers = [.trying batch attempt])
    (hunderway : (story batch events).Underway policy attempt)
    (hstep : policy.step? TransportError.isRetryable fired attempt event = some (.inr verdict)) :
    start.Reports (events ++ [.attempt event]) (story batch (events ++ [.attempt event])).requests
      (.ofVerdict batch verdict) := by
  obtain ⟨hnumber, hsent⟩ := hunderway.ends_number batch hstep
  have hone := hunderway.one_le
  have hstory : story batch (events ++ [.attempt event]) =
      (Note.ofAttempt batch event).toList.foldl Story.tell (story batch events) :=
    story_concat batch events (.attempt event)
  have hdue : start.CutWhileDue (events ++ [.attempt event]) ↔
      Event.attempt event = .attempt .cut ∧ trial.IsDue := by
    rw [cutWhileDue_concat hbefore]
    exact or_iff_right (not_cutWhileDue_of_underway hunderway)
  rw [hstory, hsent]
  constructor
  · intro hcut
    rw [hnumber]
    cases attempt with
    | running n | pausing n => rfl
    | waiting n =>
      -- nothing but the token ends an attempt that is due
      rcases RetryPolicy.cases_of_inr hstep with ⟨rfl, -⟩ | ⟨m, outcomes, -, hne, -⟩ |
        ⟨m, error, -, hne, -, -⟩
      · exact absurd (hdue.mpr ⟨rfl, batch, n, hworkers⟩) hcut
      · cases hne
      · cases hne
  · intro hcut
    obtain ⟨-, other, n, hwaiting⟩ := hdue.mp hcut
    obtain ⟨-, rfl⟩ : batch = other ∧ attempt = .waiting n := by simpa [hworkers] using hwaiting
    rw [hnumber]
    simp only [Attempt.number, Attempt.sent] at hone ⊢
    omega

/-- **The reported attempts are the requests**, whatever the client replies, however long the
attempts wait for the limiter and whenever the token fires; but one more is reported exactly when
the token cut off an attempt that was due. -/
theorem reports_of_execute
    (h : (start policy batch limiter telemetry).execute events = some trial)
    (hresult : trial.result? = some result) :
    (start policy batch limiter telemetry).Reports events (story batch events).requests result := by
  -- From the end: the last transition that ended the attempts is the one that made the result.
  induction events using List.reverseRecOn generalizing trial with
  | nil =>
    obtain rfl := Option.some.inj h
    simp [result?, start, Pool.ofAttempts] at hresult
  | append_singleton events event ih =>
    rw [execute_concat] at h
    obtain ⟨before, hbefore, hstep⟩ := Option.bind_eq_some_iff.mp h
    obtain ⟨rfl, -, ⟨worker, hworkers, hstands⟩, -, -⟩ := tracked_of_execute hbefore
    cases move_of_step? hstep with
    | fire | refill | other => exact (ih hbefore hresult).other hbefore rfl (by simp)
    | @attempt other attempt outcome event charged hworker hnext hcharge =>
      obtain rfl : worker = .trying other attempt := by simpa [hworkers] using hworker
      cases hstands with
      | trying hunderway =>
        cases outcome with
        | inl later => simp [result?, Pool.setWorker, hworkers, Pool.afterAttempt] at hresult
        | inr verdict =>
          obtain rfl : BatchResult.ofVerdict batch verdict = result := by
            simpa [result?, Pool.setWorker, hworkers, Pool.afterAttempt] using hresult
          exact reports_of_ended hbefore hworkers hunderway hnext

/-- A request is refused and repeated without a delay.  The token fires while the second attempt
waits for the limiter, and the result reports two attempts after a single request. -/
theorem reports_of_execute_between_requests :
    let policy : RetryPolicy := ⟨3, 0⟩
    let batch : Batch := ⟨0, [7, 9]⟩
    let reset : TransportError := .withoutStatus .request "reset"
    let events : List Event :=
      [.attempt .start, .attempt (.finish (.error reset)), .fire, .attempt .cut]
    ∃ trial, (start policy batch (.ofRate 1 1) .zero).execute events = some trial ∧
      trial.result? = some (.cancelled batch 2) ∧
      (start policy batch (.ofRate 1 1) .zero).Reports events 1 (.cancelled batch 2) :=
  ⟨_, rfl, rfl, reports_of_execute rfl rfl⟩

/-- A token that has fired before the first request: an attempt is reported, and no request was
sent. -/
theorem not_attempts_eq_requests :
    ¬∀ policy batch limiter telemetry events trial result,
      (start policy batch limiter telemetry).execute events = some trial →
        trial.result? = some result → result.attempts = (story batch events).requests := by
  intro hall
  have hone : (1 : Nat) = 0 :=
    hall ⟨3, 1000⟩ ⟨0, [1]⟩ (.ofRate 1 1) .zero [.fire, .attempt .cut] _ (.cancelled ⟨0, [1]⟩ 1)
      rfl rfl
  exact absurd hone Nat.one_ne_zero

end Trial

end Backfill
