import Backfill.Limiter
import Backfill.Proofs.PoolRuns
import Backfill.Proofs.RunCounters
import Mathlib.Data.List.Induction

/-!
# A batch that is tried

The attempts for a batch are one worker's business, but they share two things with all others: the
limiter, which lets a request through against a token, and the counters.  Tokens come back and
others take them at any time, so an attempt may have to wait for as long as it takes; the token of
the run may fire during such a wait, during a request or during the delay behind it.

However this goes, there are no more requests than the policy allows, every request was paid for and
counted once, and the story of the batch tells the end: the first answer is passed on, the last
allowed refusal ends the attempts, and before that only the token of the run does.

## Main definitions

* `Limiter.charge?` — what is signalled, against a token if it is a request.
* `Trial` — the attempts for a batch with the limiter and the counters; `Trial.step?` and
  `Trial.execute` are the transitions.
* `Trial.story` — what is noted of the transitions.
* `Story.LeadsTo` — the story of a batch whose attempts have led to a result.
* `Trial.KeepsLaw` — the law of the attempts.

## Main results

* `Outcomes.lookup_uniform_eq` — a uniform outcome is about the slots of its batch alone.
* `Trial.Stands.attempt` — **the attempts keep to the story of their batch**, up to the result.
* `Trial.Tracked.step` — every request takes a token and raises the counters.
* `Trial.attempts_keep_law` — **the attempts for a batch keep to the law.**
-/

namespace Backfill

/-! ### Results about a batch alone -/

theorem Outcomes.lookup_foldl_insert_of_not_mem {pairs : List (Nat × Outcome)} {slot : Nat}
    (h : slot ∉ pairs.map (·.1)) (outcomes : Outcomes) :
    (pairs.foldl (fun outcomes pair => insert pair.1 pair.2 outcomes) outcomes).lookup slot =
      outcomes.lookup slot := by
  induction pairs generalizing outcomes with
  | nil => rfl
  | cons pair rest ih =>
    rw [List.map_cons, List.mem_cons, not_or] at h
    rw [List.foldl_cons, ih h.2, lookup_insert_of_ne h.1]

/-- **A uniform outcome is about the given slots alone.** -/
theorem Outcomes.lookup_uniform_eq (slots : List Nat) (reason : FailureReason) (slot : Nat) :
    (uniform slots reason).lookup slot =
      if slot ∈ slots then some (.failed reason) else none := by
  by_cases hslot : slot ∈ slots
  · rw [if_pos hslot, lookup_uniform hslot]
  · have hkeys : slot ∉ (slots.map fun slot => (slot, Outcome.failed reason)).map (·.1) := by
      simpa [Function.comp_def] using hslot
    rw [if_neg hslot]
    exact lookup_foldl_insert_of_not_mem hkeys []

/-- A result tells that every slot of a batch has failed for one reason, and nothing else. -/
structure BatchResult.FailsAs (batch : Batch) (reason : FailureReason) (result : BatchResult) :
    Prop where
  batch_eq : result.batch = batch
  lookup_eq : ∀ slot, result.outcomes.lookup slot =
    if slot ∈ batch.slots then some (.failed reason) else none

theorem BatchResult.failsAs_uniform (batch : Batch) (reason : FailureReason) (attempts : Nat) :
    FailsAs batch reason (.uniform batch reason attempts) :=
  ⟨rfl, Outcomes.lookup_uniform_eq batch.slots reason⟩

/-! ### The limiter and its tokens -/

@[simp] theorem Pool.Signal.requests_none : requests .none = 0 := rfl

namespace Limiter

/-- What is signalled, against a token if it is a request. -/
def charge? (limiter : Limiter) (cancelled : Bool) : Pool.Signal → Option Limiter
  | .attempt =>
    match limiter.acquire cancelled with
    | (.granted, charged) => some charged
    | _ => none
  | _ => some limiter

variable {limiter charged : Limiter} {cancelled : Bool} {signal : Pool.Signal}

/-- **A request takes one token**, and nothing else does. -/
theorem tokens_of_charge? (h : limiter.charge? cancelled signal = some charged) :
    charged.tokens + signal.requests = limiter.tokens ∧ charged.burst = limiter.burst := by
  cases signal with
  | none | retry =>
    obtain rfl := Option.some.inj h
    exact ⟨rfl, rfl⟩
  | attempt =>
    -- only a request asks for a token, and it gets one only if there is one
    unfold charge? acquire at h
    cases cancelled with
    | true => simp at h
    | false =>
      by_cases hempty : limiter.tokens = 0
      · simp [hempty] at h
      · simp only [hempty, Bool.false_eq_true, if_false, Option.some.injEq] at h
        subst h
        refine ⟨?_, rfl⟩
        simp only [Pool.Signal.requests]
        omega

theorem exists_charge? (h : signal = .attempt → cancelled = false ∧ limiter.tokens ≠ 0) :
    ∃ charged, limiter.charge? cancelled signal = some charged := by
  cases signal with
  | none | retry => exact ⟨limiter, rfl⟩
  | attempt =>
    obtain ⟨hfired, htokens⟩ := h rfl
    exact ⟨{ limiter with tokens := limiter.tokens - 1 }, by
      simp [charge?, acquire, hfired, htokens]⟩

end Limiter

/-! ### Trials -/

/-- The attempts for a batch, with the limiter and the counters that they share with others. -/
structure Trial where
  policy : RetryPolicy
  pool : Pool
  limiter : Limiter
  /-- Whether the token of the run has fired. -/
  fired : Bool
  accounts : Accounts

namespace Trial

/-- A batch that is about to be tried. -/
def start (policy : RetryPolicy) (batch : Batch) (limiter : Limiter) (telemetry : Telemetry) :
    Trial :=
  ⟨policy, .ofAttempts batch, limiter, false, .ofTelemetry telemetry⟩

/-- What can happen while a batch is tried. -/
inductive Event
  /-- The token of the run fires. -/
  | fire
  /-- A token comes back to the limiter. -/
  | refill
  /-- Somebody else sends a request or repeats one. -/
  | other (signal : Pool.Signal)
  /-- The attempts for the batch move on. -/
  | attempt (event : RetryPolicy.Event Outcomes TransportError)

/-- One transition. -/
def step? (trial : Trial) : Event → Option Trial
  | .fire => if trial.fired then none else some { trial with fired := true }
  | .refill =>
    if trial.limiter.tokens < trial.limiter.burst then
      some { trial with limiter := trial.limiter.refill }
    else none
  | .other signal =>
    (trial.limiter.charge? trial.fired signal).map fun limiter =>
      { trial with limiter := limiter, accounts := Run.count trial.accounts signal }
  | .attempt event =>
    (trial.pool.step? trial.policy trial.fired (.attempt 0 event)).bind fun (pool, signal) =>
      (trial.limiter.charge? trial.fired signal).map fun limiter =>
        { trial with
          pool := pool
          limiter := limiter
          accounts := Run.count trial.accounts signal }

/-- Transitions in a row. -/
def execute (trial : Trial) (events : List Event) : Option Trial := events.foldlM step? trial

theorem execute_concat (trial : Trial) (events : List Event) (event : Event) :
    trial.execute (events ++ [event]) = (trial.execute events).bind (·.step? event) := by
  simp [execute, List.foldlM_append]

/-- The transitions, each with what it leads to. -/
inductive Move (trial : Trial) : Event → Trial → Prop
  | fire (hfired : trial.fired = false) : Move trial .fire { trial with fired := true }
  | refill (hroom : trial.limiter.tokens < trial.limiter.burst) :
    Move trial .refill { trial with limiter := trial.limiter.refill }
  | other {signal : Pool.Signal} {limiter : Limiter}
    (hcharge : trial.limiter.charge? trial.fired signal = some limiter) :
    Move trial (.other signal)
      { trial with limiter := limiter, accounts := Run.count trial.accounts signal }
  | attempt {batch : Batch} {attempt : Attempt} {next : Attempt.Next Outcomes TransportError}
    {event : RetryPolicy.Event Outcomes TransportError} {limiter : Limiter}
    (hworker : trial.pool.workers[0]? = some (.trying batch attempt))
    (hnext : trial.policy.step? TransportError.isRetryable trial.fired attempt event = some next)
    (hcharge : trial.limiter.charge? trial.fired (Pool.signalOf trial.policy attempt event) =
      some limiter) :
    Move trial (.attempt event)
      { trial with
        pool := trial.pool.setWorker 0 (Pool.afterAttempt batch next)
        limiter := limiter
        accounts := Run.count trial.accounts (Pool.signalOf trial.policy attempt event) }

variable {trial next : Trial} {event : Event}

theorem move_of_step? (h : trial.step? event = some next) : Move trial event next := by
  cases event with
  | fire =>
    simp only [step?] at h
    split at h
    · simp at h
    · next hfired =>
      obtain rfl := Option.some.inj h
      exact .fire (Bool.eq_false_iff.mpr hfired)
  | refill =>
    simp only [step?] at h
    split at h
    · next hroom =>
      obtain rfl := Option.some.inj h
      exact .refill hroom
    · simp at h
  | other signal =>
    obtain ⟨limiter, hcharge, rfl⟩ := Option.map_eq_some_iff.mp h
    exact .other hcharge
  | attempt event =>
    -- the pool moves first, and what it signals is charged
    obtain ⟨⟨pool, signal⟩, hpool, h⟩ := Option.bind_eq_some_iff.mp h
    obtain ⟨limiter, hcharge, rfl⟩ := Option.map_eq_some_iff.mp h
    obtain rfl := Pool.signal_of_step? hpool
    cases Pool.turn_of_step? hpool with
    | attempt hworker hnext =>
      simp only [Pool.signalled_attempt hworker] at hcharge ⊢
      exact .attempt hworker hnext hcharge

theorem Move.step? (h : Move trial event next) : trial.step? event = some next := by
  cases h with
  | fire hfired => simp [Trial.step?, hfired]
  | refill hroom => simp [Trial.step?, hroom]
  | other hcharge => simp [Trial.step?, hcharge]
  | attempt hworker hnext hcharge =>
    simp [Trial.step?, Pool.step?, Pool.attemptStep?, hworker, hnext, hcharge]

/-! ### What has happened -/

/-- What is noted of a transition. -/
def Event.note? (batch : Batch) : Event → Option Note
  | .attempt event => Note.ofAttempt batch event
  | _ => none

/-- The story of a batch that is tried. -/
def story (batch : Batch) (events : List Event) : Story :=
  (events.filterMap (Event.note? batch)).foldl Story.tell .listed

theorem story_concat (batch : Batch) (events : List Event) (event : Event) :
    story batch (events ++ [event]) =
      (event.note? batch).toList.foldl Story.tell (story batch events) := by
  rw [story, List.filterMap_append, List.foldl_append]
  cases h : event.note? batch <;> simp [h, story]

/-- What somebody else signals. -/
def Event.signal : Event → Pool.Signal
  | .other signal => signal
  | _ => .none

/-- Whether a token comes back to the limiter. -/
def Event.isRefill : Event → Bool
  | .refill => true
  | _ => false

/-- Whether the attempts for the batch move on. -/
def Event.isMove : Event → Bool
  | .attempt _ => true
  | _ => false

/-- How many requests others have sent. -/
def otherRequests (events : List Event) : Nat := (events.map (·.signal.requests)).sum

/-- How many requests others have repeated. -/
def otherRetries (events : List Event) : Nat := (events.map (·.signal.retries)).sum

/-- How many tokens have come back to the limiter. -/
def refills (events : List Event) : Nat := events.countP Event.isRefill

/-- How often the attempts for the batch have moved on. -/
def moves (events : List Event) : Nat := events.countP Event.isMove

end Trial

/-! ### How far the attempts have come -/

/-- How many moves may lie behind an operation that stands there. -/
def Attempt.moves : Attempt → Nat
  | .waiting n => 3 * (n - 1)
  | .running n => 3 * (n - 1) + 1
  | .pausing n => 3 * (n - 1) + 2

/-- The story of a batch whose attempts have led to a result. -/
inductive Story.LeadsTo (policy : RetryPolicy) (batch : Batch) (story : Story) :
    BatchResult → Prop
  /-- The client has answered. -/
  | answered {outcomes : Outcomes} (hanswer : story.answer = some outcomes)
    (hcut : story.cut = false) (hrefusals : story.refusals.length < policy.maxAttempts)
    (hrequests : story.requests = story.refusals.length + 1) :
    LeadsTo policy batch story ⟨batch, outcomes, story.requests⟩
  /-- The client has refused as often as the policy allows. -/
  | exhausted {last : TransportError} (hanswer : story.answer = none) (hcut : story.cut = false)
    (hrefusals : story.refusals.length = policy.maxAttempts)
    (hlast : story.refusals.getLast? = some last)
    (hrequests : story.requests = policy.maxAttempts) :
    LeadsTo policy batch story
      (.uniform batch (.exhaustedRetries policy.maxAttempts last.message) policy.maxAttempts)
  /-- The token of the run has cut the attempts off. -/
  | cancelled {attempts : Nat} (hanswer : story.answer = none) (hcut : story.cut = true)
    (hrefusals : story.refusals.length < policy.maxAttempts)
    (hrequests : story.requests ≤ story.refusals.length + 1)
    (hattempts : attempts ≤ policy.maxAttempts) :
    LeadsTo policy batch story (.cancelled batch attempts)

/-- **At the end of the attempts the story of the batch tells the result.** -/
theorem Story.Underway.ends {policy : RetryPolicy} {story : Story} {fired : Bool}
    {attempt : Attempt} {batch : Batch} {event : RetryPolicy.Event Outcomes TransportError}
    {verdict : Verdict Outcomes TransportError} (h : story.Underway policy attempt)
    (hstep : policy.step? TransportError.isRetryable fired attempt event = some (.inr verdict)) :
    ((Note.ofAttempt batch event).toList.foldl tell story).LeadsTo policy batch
      (.ofVerdict batch verdict) := by
  obtain ⟨-, hanswer, hcut, -, hone, hrequests, hrefusals, hremains⟩ := h
  rcases RetryPolicy.cases_of_inr hstep with ⟨rfl, rfl⟩ | ⟨n, outcomes, rfl, rfl, rfl⟩ |
    ⟨n, error, rfl, rfl, hlast, rfl⟩
  · -- cut off: at most one request more than refusals, wherever the attempt stands
    have hnumber : attempt.sent ≤ attempt.refused + 1 ∧ attempt.number ≤ attempt.refused + 1 := by
      cases attempt <;> simp only [Attempt.sent, Attempt.refused, Attempt.number] <;> omega
    refine .cancelled hanswer rfl ?_ ?_ ?_
    · show story.refusals.length < policy.maxAttempts
      omega
    · show story.requests ≤ story.refusals.length + 1
      omega
    · omega
  · simp only [Attempt.sent, Attempt.refused, Attempt.number] at hone hrequests hrefusals hremains
    -- answered: the last request was not refused
    have hended : (story.tell (.answered batch outcomes)).LeadsTo policy batch
        ⟨batch, outcomes, story.requests⟩ := by
      refine .answered rfl hcut ?_ ?_
      · show story.refusals.length < policy.maxAttempts
        omega
      · show story.requests = story.refusals.length + 1
        omega
    rwa [hrequests] at hended
  · simp only [Attempt.sent, Attempt.refused, Attempt.number] at hone hrequests hrefusals hremains
    -- refused for the last time
    have hall : n = policy.maxAttempts := by omega
    subst hall
    refine .exhausted hanswer hcut ?_ (List.getLast?_concat ..) hrequests
    show (story.refusals ++ [error]).length = policy.maxAttempts
    rw [List.length_append, List.length_singleton]
    omega

namespace Story.LeadsTo

variable {policy : RetryPolicy} {batch : Batch} {story : Story} {result : BatchResult}

theorem requests_le (h : story.LeadsTo policy batch result) :
    story.requests ≤ policy.maxAttempts := by
  cases h <;> omega

theorem of_answer (h : story.LeadsTo policy batch result) {outcomes : Outcomes}
    (hanswer : story.answer = some outcomes) : result = ⟨batch, outcomes, story.requests⟩ := by
  cases h with
  | answered htold =>
    obtain rfl := Option.some.inj (htold.symm.trans hanswer)
    rfl
  | exhausted hnone | cancelled hnone => simp [hnone] at hanswer

theorem of_refusals (h : story.LeadsTo policy batch result)
    (hall : story.refusals.length = policy.maxAttempts) :
    story.requests = policy.maxAttempts ∧ ∃ last, story.refusals.getLast? = some last ∧
      result = .uniform batch (.exhaustedRetries policy.maxAttempts last.message)
        policy.maxAttempts := by
  cases h with
  | answered _ _ hless | cancelled _ _ hless => omega
  | @exhausted last _ _ _ hlast hrequests => exact ⟨hrequests, last, hlast, rfl⟩

theorem of_cut (h : story.LeadsTo policy batch result) (hcut : story.cut = true) :
    story.answer = none ∧ story.refusals.length < policy.maxAttempts ∧
      ∃ attempts, result = .cancelled batch attempts := by
  cases h with
  | answered _ hfalse | exhausted _ hfalse => simp [hfalse] at hcut
  | @cancelled attempts hanswer _ hrefusals => exact ⟨hanswer, hrefusals, attempts, rfl⟩

theorem reason (h : story.LeadsTo policy batch result) :
    story.answer.isSome ∨ story.refusals.length = policy.maxAttempts ∨ story.cut = true := by
  cases h with
  | answered hanswer => exact .inl (Option.isSome_iff_exists.mpr ⟨_, hanswer⟩)
  | exhausted _ _ hrefusals => exact .inr (.inl hrefusals)
  | cancelled _ hcut => exact .inr (.inr hcut)

theorem attempts_le (h : story.LeadsTo policy batch result) :
    result.attempts ≤ policy.maxAttempts := by
  cases h with
  | answered _ _ hless hrequests =>
    show story.requests ≤ policy.maxAttempts
    omega
  | exhausted => exact Nat.le_refl _
  | cancelled _ _ _ _ hattempts => exact hattempts

end Story.LeadsTo

namespace Trial

variable {trial next : Trial} {event : Event} {events : List Event} {policy : RetryPolicy}
  {batch : Batch} {limiter : Limiter} {telemetry : Telemetry} {fired : Bool} {worker : Worker}

/-- Where the worker of the batch stands, according to the story of the batch. -/
inductive Stands (policy : RetryPolicy) (batch : Batch) (fired : Bool) (events : List Event) :
    Worker → Prop
  | trying {attempt : Attempt} (hunderway : (story batch events).Underway policy attempt)
    (hmoves : moves events ≤ attempt.moves) :
    Stands policy batch fired events (.trying batch attempt)
  | ended {result : BatchResult} (hended : (story batch events).LeadsTo policy batch result)
    (hfired : (story batch events).cut = true → fired = true)
    (hmoves : moves events ≤ 3 * policy.maxAttempts) :
    Stands policy batch fired events (.reporting result)

theorem stands_start (policy : RetryPolicy) (batch : Batch) :
    Stands policy batch false [] (.trying batch (.waiting 1)) :=
  .trying (Story.underway_listed policy) (Nat.zero_le _)

/-- What others do leaves the worker of the batch where it is. -/
theorem Stands.other (h : Stands policy batch fired events worker) {later : Bool}
    (hlater : fired = true → later = true) (hnote : event.note? batch = none)
    (hmove : event.isMove = false) :
    Stands policy batch later (events ++ [event]) worker := by
  have hstory : story batch (events ++ [event]) = story batch events := by
    rw [story_concat, hnote]
    rfl
  have hmoves : moves (events ++ [event]) = moves events := by
    simp [moves, List.countP_append, hmove]
  cases h with
  | trying hunderway hpaced => exact .trying (hstory ▸ hunderway) (hmoves ▸ hpaced)
  | ended hended hfired hpaced =>
    rw [← hstory] at hended hfired
    exact .ended hended (fun hcut => hlater (hfired hcut)) (hmoves ▸ hpaced)

/-- The moves of the attempts are told by where they stand. -/
theorem moves_of_step? {attempt : Attempt} {event : RetryPolicy.Event Outcomes TransportError}
    {outcome : Attempt.Next Outcomes TransportError} (hone : 1 ≤ attempt.number)
    (hremains : attempt.refused < policy.maxAttempts)
    (hstep : policy.step? TransportError.isRetryable fired attempt event = some outcome) :
    match outcome with
    | .inl later => attempt.moves + 1 ≤ later.moves
    | .inr _ => attempt.moves + 1 ≤ 3 * policy.maxAttempts := by
  cases outcome with
  | inl later =>
    rcases RetryPolicy.cases_of_inl hstep with ⟨n, -, rfl, rfl⟩ |
      ⟨n, error, -, rfl, -, rfl | rfl⟩ | ⟨n, -, rfl, rfl⟩ <;>
      simp only [Attempt.number, Attempt.moves] at hone ⊢ <;> omega
  | inr verdict =>
    cases attempt <;> simp only [Attempt.number, Attempt.refused, Attempt.moves] at * <;> omega

/-- **The attempts keep to the story of their batch**, up to the result. -/
theorem Stands.attempt {attempt : Attempt} {event : RetryPolicy.Event Outcomes TransportError}
    {outcome : Attempt.Next Outcomes TransportError}
    (hunderway : (story batch events).Underway policy attempt)
    (hpaced : moves events ≤ attempt.moves)
    (hstep : policy.step? TransportError.isRetryable fired attempt event = some outcome) :
    Stands policy batch fired (events ++ [.attempt event]) (Pool.afterAttempt batch outcome) := by
  have hstory : story batch (events ++ [.attempt event]) =
      (Note.ofAttempt batch event).toList.foldl Story.tell (story batch events) :=
    story_concat batch events (.attempt event)
  have hmoves : moves (events ++ [.attempt event]) = moves events + 1 := by
    simp [moves, List.countP_append, Event.isMove]
  have hmore := moves_of_step? hunderway.one_le hunderway.remains hstep
  cases outcome with
  | inl later =>
    refine .trying (hstory ▸ hunderway.advance hstep) ?_
    rw [hmoves]
    exact Nat.le_trans (Nat.succ_le_succ hpaced) hmore
  | inr verdict =>
    refine .ended (hstory ▸ hunderway.ends hstep) ?_ ?_
    · -- only a token that has fired can cut the attempts off
      intro hcut
      rw [hstory] at hcut
      rcases RetryPolicy.cases_of_inr hstep with ⟨rfl, -⟩ | ⟨n, outcomes, rfl, -, -⟩ |
        ⟨n, error, rfl, -, -, -⟩
      · cases fired with
        | true => rfl
        | false => simp [RetryPolicy.step?] at hstep
      · exact absurd (hcut.symm.trans hunderway.cut) (by simp)
      · exact absurd (hcut.symm.trans hunderway.cut) (by simp)
    · rw [hmoves]
      exact Nat.le_trans (Nat.succ_le_succ hpaced) hmore

/-! ### The attempts, the limiter and the counters together -/

/-- A trial that has come so far from its start: the worker stands where the story of the batch
says, and every request has taken a token and was counted. -/
structure Tracked (policy : RetryPolicy) (batch : Batch) (limiter : Limiter)
    (telemetry : Telemetry) (events : List Event) (trial : Trial) : Prop where
  policy_eq : trial.policy = policy
  burst_eq : trial.limiter.burst = limiter.burst
  stands : ∃ worker, trial.pool.workers = [worker] ∧
    Stands policy batch trial.fired events worker
  paid : trial.limiter.tokens + (story batch events).requests + otherRequests events =
    limiter.tokens + refills events
  counted : trial.accounts.Counted telemetry.stats
    ((story batch events).requests + otherRequests events)
    ((story batch events).retries policy + otherRetries events) 0 0

theorem tracked_start (policy : RetryPolicy) (batch : Batch) (limiter : Limiter)
    (telemetry : Telemetry) :
    Tracked policy batch limiter telemetry [] (start policy batch limiter telemetry) where
  policy_eq := rfl
  burst_eq := rfl
  stands := ⟨_, rfl, stands_start policy batch⟩
  paid := rfl
  counted := by
    have hretries : (story batch []).retries policy = 0 := Nat.zero_min _
    rw [hretries]
    exact ⟨.refl _, .refl _, .refl _, .refl _, .refl _, .refl _⟩

@[simp] theorem otherRequests_concat (events : List Event) (event : Event) :
    otherRequests (events ++ [event]) = otherRequests events + event.signal.requests := by
  simp [otherRequests]

@[simp] theorem otherRetries_concat (events : List Event) (event : Event) :
    otherRetries (events ++ [event]) = otherRetries events + event.signal.retries := by
  simp [otherRetries]

@[simp] theorem refills_concat (events : List Event) (event : Event) :
    refills (events ++ [event]) = refills events + event.isRefill.toNat := by
  cases h : event.isRefill <;> simp [refills, List.countP_append, h]

/-- **Every transition keeps a trial tracked.** -/
theorem Tracked.step (h : Tracked policy batch limiter telemetry events trial)
    (hstep : trial.step? event = some next) :
    Tracked policy batch limiter telemetry (events ++ [event]) next := by
  obtain ⟨rfl, hburst, ⟨worker, hworkers, hstands⟩, hpaid, hcounted⟩ := h
  have hquiet : event.note? batch = none → story batch (events ++ [event]) = story batch events :=
    fun hnote => by rw [story_concat, hnote]; rfl
  cases move_of_step? hstep with
  | fire hfired =>
    refine ⟨rfl, hburst, ⟨worker, hworkers, hstands.other (fun _ => rfl) rfl rfl⟩, ?_, ?_⟩
    · simpa [hquiet rfl, Event.signal, Event.isRefill, Pool.Signal.requests] using hpaid
    · simpa [hquiet rfl, Event.signal, Pool.Signal.requests, Pool.Signal.retries] using hcounted
  | refill hroom =>
    have htokens : trial.limiter.refill.tokens = trial.limiter.tokens + 1 :=
      Nat.min_eq_left (Nat.succ_le_of_lt hroom)
    refine ⟨rfl, hburst, ⟨worker, hworkers, hstands.other id rfl rfl⟩, ?_, ?_⟩
    · simp only [hquiet rfl, htokens, otherRequests_concat, refills_concat, Event.signal,
        Event.isRefill, Pool.Signal.requests, Bool.toNat_true]
      omega
    · simpa [hquiet rfl, Event.signal, Pool.Signal.requests, Pool.Signal.retries] using hcounted
  | @other signal charged hcharge =>
    obtain ⟨htokens, hsame⟩ := Limiter.tokens_of_charge? hcharge
    refine ⟨rfl, hsame.trans hburst, ⟨worker, hworkers, hstands.other id rfl rfl⟩, ?_, ?_⟩
    · simp only [hquiet rfl, otherRequests_concat, refills_concat, Event.signal, Event.isRefill,
        Bool.toNat_false]
      omega
    · rw [hquiet rfl, otherRequests_concat, otherRetries_concat, ← Nat.add_assoc, ← Nat.add_assoc]
      exact Run.counted_count hcounted signal
  | @attempt other attempt outcome event charged hworker hnext hcharge =>
    obtain ⟨htokens, hsame⟩ := Limiter.tokens_of_charge? hcharge
    obtain rfl : worker = .trying other attempt := by simpa [hworkers] using hworker
    cases hstands with
    | trying hunderway hpaced =>
      -- what the attempts signal is what they add to the story
      have hstory : story batch (events ++ [.attempt event]) =
          (Note.ofAttempt batch event).toList.foldl Story.tell (story batch events) :=
        story_concat batch events (.attempt event)
      obtain ⟨hrequests, hretries⟩ := @Pool.signalOf_eq _ _ _ _ _ batch _ hunderway hnext
      rw [← hstory] at hrequests hretries
      refine ⟨rfl, hsame.trans hburst,
        ⟨_, by simp [Pool.setWorker, hworkers], .attempt hunderway hpaced hnext⟩, ?_, ?_⟩
      · have hothers : Event.signal (.attempt event) = .none := rfl
        simp only [hrequests, otherRequests_concat, refills_concat, hothers, Event.isRefill,
          Bool.toNat_false, Pool.Signal.requests_none]
        omega
      · have hmore := Run.counted_count hcounted (Pool.signalOf trial.policy attempt event)
        rw [hrequests, hretries, otherRequests_concat, otherRetries_concat]
        simpa only [Event.signal, Pool.Signal.requests, Pool.Signal.retries, Nat.add_zero,
          Nat.add_right_comm] using hmore

theorem tracked_of_execute
    (h : (start policy batch limiter telemetry).execute events = some trial) :
    Tracked policy batch limiter telemetry events trial := by
  induction events using List.reverseRecOn generalizing trial with
  | nil =>
    obtain rfl := Option.some.inj h
    exact tracked_start policy batch limiter telemetry
  | append_singleton events event ih =>
    rw [execute_concat] at h
    obtain ⟨before, hbefore, hstep⟩ := Option.bind_eq_some_iff.mp h
    exact (ih hbefore).step hstep

/-! ### The law -/

/-- What the attempts have led to, when they have ended. -/
def result? (trial : Trial) : Option BatchResult :=
  match trial.pool.workers with
  | [.reporting result] => some result
  | _ => none

/-- **The law of the attempts for a batch.**  So many attempts are made at most, `n`; others may
send requests and take tokens in between. -/
structure KeepsLaw (policy : RetryPolicy) (batch : Batch) (limiter : Limiter)
    (telemetry : Telemetry) (events : List Event) (trial : Trial) (n : Nat) : Prop where
  requests_le : (story batch events).requests ≤ n
  /-- Every request takes a token of the limiter. -/
  paid : trial.limiter.tokens + (story batch events).requests + otherRequests events =
    limiter.tokens + refills events
  /-- Every request is counted once, and so is every one that is repeated. -/
  counted : trial.accounts.Counted telemetry.stats
    ((story batch events).requests + otherRequests events)
    ((story batch events).retries policy + otherRetries events) 0 0
  /-- The first answer ends the attempts and is passed on as it is. -/
  answered : ∀ outcomes, (story batch events).answer = some outcomes →
    trial.result? = some ⟨batch, outcomes, (story batch events).requests⟩
  /-- The last refusal that is allowed ends them. -/
  exhausted : (story batch events).refusals.length = n →
    (story batch events).requests = n ∧ (story batch events).retries policy = n - 1 ∧
      ∃ last result, (story batch events).refusals.getLast? = some last ∧
        trial.result? = some result ∧ result.attempts = n ∧
        result.FailsAs batch (.exhaustedRetries n last.message)
  /-- The token cuts them off before that. -/
  cut : (story batch events).cut = true →
    trial.fired = true ∧ (story batch events).answer = none ∧
      (story batch events).refusals.length < n ∧
      ∃ result, trial.result? = some result ∧ result.FailsAs batch .cancelled
  /-- Nothing else ends them. -/
  ends : trial.result?.isSome → (story batch events).answer.isSome ∨
    (story batch events).refusals.length = n ∨ (story batch events).cut = true
  /-- Without the token and without an answer, all attempts are made. -/
  unanswered : trial.result?.isSome → trial.fired = false → (story batch events).answer = none →
    (story batch events).refusals.length = n
  /-- Once they have ended, they do not move. -/
  stops : trial.result?.isSome → ∀ event, trial.step? (.attempt event) = none
  /-- Once the token has fired, all they do is to notice. -/
  cuts : trial.result? = none → trial.fired = true →
    ∀ event, (trial.step? (.attempt event)).isSome ↔ event = .cut
  /-- Until then they go on, whatever the client replies, as soon as there is a token. -/
  goesOn : trial.result? = none → trial.fired = false → 1 ≤ limiter.burst →
    ∀ reply, ∃ event ∈ [.refill, .attempt .start, .attempt (.finish reply), .attempt .resume],
      (trial.step? event).isSome
  /-- There is an end to it. -/
  moves_le : moves events ≤ 3 * n
  /-- The attempts are numbered from one, and no number is too large for a word. -/
  number_le : ∀ attempt, trial.pool.workers = [.trying batch attempt] →
    1 ≤ attempt.number ∧ attempt.number ≤ n
  attempts_le : ∀ result, trial.result? = some result → result.attempts ≤ n
  n_le : n ≤ Word.max32

theorem result?_of_trying {attempt : Attempt} (h : trial.pool.workers = [.trying batch attempt]) :
    trial.result? = none := by
  rw [result?, h]

theorem result?_of_reporting {result : BatchResult}
    (h : trial.pool.workers = [.reporting result]) : trial.result? = some result := by
  rw [result?, h]

theorem step?_attempt {attempt : Attempt} (h : trial.pool.workers = [.trying batch attempt])
    {event : RetryPolicy.Event Outcomes TransportError}
    (hcharge : Pool.signalOf trial.policy attempt event = .attempt →
      trial.fired = false ∧ trial.limiter.tokens ≠ 0) :
    (trial.step? (.attempt event)).isSome ↔
      (trial.policy.step? TransportError.isRetryable trial.fired attempt event).isSome := by
  have hworker : trial.pool.workers[0]? = some (.trying batch attempt) := by rw [h]; rfl
  obtain ⟨charged, hcharged⟩ := Limiter.exists_charge? hcharge
  cases hnext : trial.policy.step? TransportError.isRetryable trial.fired attempt event with
  | none => simp [step?, Pool.step?, Pool.attemptStep?, hworker, hnext]
  | some outcome => simp [(Move.attempt hworker hnext hcharged).step?]

/-- **As long as the token has not fired, the attempts go on.** -/
theorem exists_step? {attempt : Attempt} (h : trial.pool.workers = [.trying batch attempt])
    (hfired : trial.fired = false) (hburst : 1 ≤ trial.limiter.burst)
    (reply : Except TransportError Outcomes) :
    ∃ event ∈ [.refill, .attempt .start, .attempt (.finish reply), .attempt .resume],
      (trial.step? event).isSome := by
  cases attempt with
  | waiting n =>
    -- without a token one comes back, with a token the request is sent
    by_cases hempty : trial.limiter.tokens = 0
    · have hroom : trial.limiter.tokens < trial.limiter.burst := by omega
      exact ⟨.refill, by simp, by simp [(Move.refill hroom).step?]⟩
    · refine ⟨.attempt .start, by simp, (step?_attempt h fun _ => ⟨hfired, hempty⟩).mpr ?_⟩
      simp [RetryPolicy.step?, hfired]
  | running n =>
    refine ⟨.attempt (.finish reply), by simp, (step?_attempt h ?_).mpr ?_⟩
    · intro hsignal
      cases reply with
      | ok outcomes => simp [Pool.signalOf] at hsignal
      | error error =>
        simp only [Pool.signalOf] at hsignal
        split at hsignal <;> cases hsignal
    · cases reply <;> simp [RetryPolicy.step?, hfired]
  | pausing n =>
    refine ⟨.attempt .resume, by simp, (step?_attempt h ?_).mpr ?_⟩
    · intro hsignal
      simp [Pool.signalOf] at hsignal
    · simp [RetryPolicy.step?, hfired]

/-- Once the token has fired, the attempts can only be cut off. -/
theorem step?_of_fired {attempt : Attempt} (h : trial.pool.workers = [.trying batch attempt])
    (hfired : trial.fired = true) (event : RetryPolicy.Event Outcomes TransportError) :
    (trial.step? (.attempt event)).isSome ↔ event = .cut := by
  have hworker : trial.pool.workers[0]? = some (.trying batch attempt) := by rw [h]; rfl
  cases event with
  | cut =>
    have hsilent : Pool.signalOf trial.policy attempt .cut ≠ .attempt := nofun
    have hcut := step?_attempt h fun hsignal => absurd hsignal hsilent
    simp [hcut, RetryPolicy.step?, hfired]
  | start | resume =>
    simp [step?, Pool.step?, Pool.attemptStep?, hworker, RetryPolicy.step?, hfired]
  | finish reply =>
    cases reply <;>
      simp [step?, Pool.step?, Pool.attemptStep?, hworker, RetryPolicy.step?, hfired]

/-- **The attempts for a batch keep to the law**, whatever the client replies, however long they
wait for the limiter, and whenever the token fires. -/
theorem attempts_keep_law
    (h : (start policy batch limiter telemetry).execute events = some trial) :
    KeepsLaw policy batch limiter telemetry events trial
      (min (policy.retryAttempts + 1) Word.max32) := by
  have hn : min (policy.retryAttempts + 1) Word.max32 = policy.maxAttempts := rfl
  rw [hn]
  obtain ⟨hpolicy, hburst, ⟨worker, hworkers, hstands⟩, hpaid, hcounted⟩ := tracked_of_execute h
  have hmax : policy.maxAttempts ≤ Word.max32 := Nat.min_le_right _ _
  -- the story says how many requests there were; what is left is arithmetic about where the worker
  -- stands
  cases hstands with
  | @trying attempt hunderway hpaced =>
    obtain ⟨-, hanswer, hcut, -, hone, hrequests, hrefusals, hremains⟩ := hunderway
    -- no result yet: whatever is said about results holds for want of one
    have hnone := result?_of_trying hworkers
    have hplace : attempt.sent ≤ attempt.refused + 1 ∧ attempt.number ≤ attempt.refused + 1 ∧
        attempt.moves ≤ 3 * (attempt.refused + 1) := by
      cases attempt <;>
        simp only [Attempt.sent, Attempt.refused, Attempt.number, Attempt.moves] at hone ⊢ <;> omega
    have hbusy : ¬trial.result?.isSome := by simp [hnone]
    exact {
      requests_le := by omega
      paid := hpaid
      counted := hcounted
      answered := fun outcomes hsome => by simp [hanswer] at hsome
      exhausted := fun hall => by omega
      cut := fun htrue => by simp [hcut] at htrue
      ends := fun hended => absurd hended hbusy
      unanswered := fun hended => absurd hended hbusy
      stops := fun hended => absurd hended hbusy
      cuts := fun _ hfired event => step?_of_fired hworkers hfired event
      goesOn := fun _ hfired hroom reply => exists_step? hworkers hfired (hburst ▸ hroom) reply
      moves_le := by omega
      attempts_le := fun result hsome => by simp [hnone] at hsome
      number_le := fun other hother => by
        obtain rfl : attempt = other := by simpa [hworkers] using hother
        exact ⟨hone, by omega⟩
      n_le := hmax }
  | @ended result hended hfired hpaced =>
    -- no attempt goes on: what is left is said by the end of the story
    have hresult := result?_of_reporting hworkers
    exact {
      requests_le := hended.requests_le
      paid := hpaid
      counted := hcounted
      answered := fun outcomes hanswer => by rw [hresult, hended.of_answer hanswer]
      exhausted := fun hall => by
        obtain ⟨hrequests, last, hlast, rfl⟩ := hended.of_refusals hall
        refine ⟨hrequests, ?_, last, _, hlast, hresult, rfl, BatchResult.failsAs_uniform ..⟩
        rw [Story.retries, hall]
        omega
      cut := fun hcut => by
        obtain ⟨hanswer, hless, attempts, rfl⟩ := hended.of_cut hcut
        exact ⟨hfired hcut, hanswer, hless, _, hresult, BatchResult.failsAs_uniform ..⟩
      ends := fun _ => hended.reason
      unanswered := fun _ hquiet hanswer => by
        rcases hended.reason with hsome | hall | hcut
        · simp [hanswer] at hsome
        · exact hall
        · simp [hfired hcut] at hquiet
      stops := fun _ event => by simp [step?, Pool.step?, hworkers]
      cuts := fun hnone => by simp [hresult] at hnone
      goesOn := fun hnone => by simp [hresult] at hnone
      moves_le := hpaced
      attempts_le := fun other hother => by
        obtain rfl : result = other := by simpa [hresult] using hother
        exact hended.attempts_le
      number_le := fun attempt htrying => by simp [hworkers] at htrying
      n_le := hmax }

/-- A batch of two slots that is refused twice, with a delay in between and a limiter of a single
token: it has to wait for the token to come back, and is exhausted then. -/
theorem attempts_keep_law_exhausted :
    let policy : RetryPolicy := ⟨1, 250⟩
    let batch : Batch := ⟨0, [7, 9]⟩
    let reset : TransportError := .withoutStatus .request "reset"
    let events : List Event :=
      [.attempt .start, .attempt (.finish (.error reset)), .attempt .resume, .refill,
        .attempt .start, .attempt (.finish (.error (.ofStatus 429)))]
    ∃ trial, (start policy batch (.ofRate 1 1) .zero).execute events = some trial ∧
      trial.result? = some (.uniform batch
        (.exhaustedRetries 2 "RPC provider rate limited the batch (HTTP 429)") 2) ∧
      KeepsLaw policy batch (.ofRate 1 1) .zero events trial 2 :=
  ⟨_, rfl, rfl, attempts_keep_law rfl⟩

end Trial

end Backfill
