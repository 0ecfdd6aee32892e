import Backfill.Word

/-!
# Repeating what failed

An operation is attempted until it succeeds, fails for good, uses up its attempts, or is
cancelled.  Between two attempts there may be a delay.  What happens at each moment is a
transition of a small machine; who drives it decides when an operation answers, when a delay
ends and when the token fires.

## Main definitions

* `RetryPolicy` — how often and after which delay an operation is repeated.
* `Attempt` — where an operation stands between its start and its verdict.
* `Verdict` — how it ended.
* `RetryPolicy.afterFailure` — what follows a failed attempt.
* `RetryPolicy.Event`, `RetryPolicy.step?` — the transitions of the machine.

## Main results

* `RetryPolicy.one_le_maxAttempts` — at least one attempt is made.
-/

namespace Backfill

/-- How often and after which delay an operation is repeated. -/
structure RetryPolicy where
  /-- Attempts after the first one. -/
  retryAttempts : Nat
  /-- Delay before each of them, in milliseconds. -/
  retryDelay : Nat
deriving DecidableEq, Repr

/-- Three further attempts, one second apart. -/
instance : Inhabited RetryPolicy := ⟨3, 1000⟩

namespace RetryPolicy

/-- How many attempts are made at most: one more than the further attempts, as far as the
count goes. -/
def maxAttempts (policy : RetryPolicy) : Nat := min (policy.retryAttempts + 1) Word.max32

/-- At least one attempt is made. -/
theorem one_le_maxAttempts (policy : RetryPolicy) : 1 ≤ policy.maxAttempts := by
  simp only [maxAttempts, Word.max32]; omega

end RetryPolicy

/-- Where an operation stands. -/
inductive Attempt
  /-- Attempt `n` is due but has not been let through yet. -/
  | waiting (n : Nat)
  /-- Attempt `n` has been started. -/
  | running (n : Nat)
  /-- Attempt `n` has failed and the delay after it has not ended. -/
  | pausing (n : Nat)
deriving DecidableEq, Repr, Inhabited

/-- The number of the attempt. -/
def Attempt.number : Attempt → Nat
  | .waiting n => n
  | .running n => n
  | .pausing n => n

/-- How an operation ended, with the number of the last attempt. -/
inductive Verdict (α ε : Type)
  | answered (answer : α) (attempts : Nat)
  | failed (error : ε) (attempts : Nat)
  | cancelled (attempts : Nat)
deriving DecidableEq, Repr

/-- What a transition leads to: another attempt, or the end. -/
abbrev Attempt.Next (α ε : Type) := Attempt ⊕ Verdict α ε

namespace RetryPolicy

variable {α ε : Type}

/-- What follows when attempt `n` has failed: the end, if the error cannot be retried or no
attempt is left; else the next attempt, after the delay if there is one. -/
def afterFailure (policy : RetryPolicy) (retryable : Bool) (error : ε) (n : Nat) :
    Attempt.Next α ε :=
  if retryable = false ∨ policy.maxAttempts ≤ n then .inr (.failed error n)
  else if policy.retryDelay = 0 then .inl (.waiting (n + 1))
  else .inl (.pausing n)

/-- Whether a failed attempt is followed by another one. -/
def repeats (policy : RetryPolicy) (retryable : Bool) (n : Nat) : Bool :=
  retryable && decide (n < policy.maxAttempts)

/-- What can happen to an operation. -/
inductive Event (α ε : Type)
  /-- The attempt is let through and starts. -/
  | start
  /-- The attempt ends with an answer or an error. -/
  | finish (result : Except ε α)
  /-- The delay ends. -/
  | resume
  /-- The token, which has fired, is noticed. -/
  | cut

/-- One transition, given whether the token has fired: once it has, it is the only thing that
is noticed. -/
def step? (policy : RetryPolicy) (retryable : ε → Bool) (fired : Bool) (attempt : Attempt)
    (event : Event α ε) : Option (Attempt.Next α ε) :=
  match event, attempt, fired with
  | .cut, attempt, true => some (.inr (.cancelled attempt.number))
  | .start, .waiting n, false => some (.inl (.running n))
  | .finish (.ok answer), .running n, false => some (.inr (.answered answer n))
  | .finish (.error error), .running n, false =>
    some (policy.afterFailure (retryable error) error n)
  | .resume, .pausing n, false => some (.inl (.waiting (n + 1)))
  | _, _, _ => none

end RetryPolicy

end Backfill
