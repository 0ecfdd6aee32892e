/-!
# The request limiter

A token bucket that all workers share.  A request takes one token; tokens come back at a
steady rate, up to the size of the bucket.

## Main definitions

* `Limiter` — the bucket; `Limiter.ofRate` makes a full one.
* `Limiter.acquire` — takes a token, unless there is none or the token of the run has fired.
* `Limiter.refill` — a token comes back; `Limiter.refillBy` — several do.
-/

namespace Backfill

/-- A bucket of tokens. -/
structure Limiter where
  perSecond : Nat
  burst : Nat
  tokens : Nat
deriving DecidableEq, Repr, Inhabited

namespace Limiter

/-- What asking for a token leads to. -/
inductive Answer
  | granted
  /-- There is no token yet. -/
  | blocked
  /-- The run has been cancelled. -/
  | cancelled
deriving DecidableEq, Repr

/-- Told to whoever asks for a token of a cancelled run. -/
def cancelledMessage : String := "operation cancelled"

/-- A full bucket.  A rate of zero acts as one, a size of zero as the rate. -/
def ofRate (perSecond burst : Nat) : Limiter :=
  let perSecond := max perSecond 1
  let burst := if burst = 0 then perSecond else burst
  ⟨perSecond, burst, burst⟩

/-- Asks for a token. -/
def acquire (limiter : Limiter) (cancelled : Bool) : Answer × Limiter :=
  if cancelled then (.cancelled, limiter)
  else if limiter.tokens = 0 then (.blocked, limiter)
  else (.granted, { limiter with tokens := limiter.tokens - 1 })

/-- A token comes back, if there is room for it. -/
def refill (limiter : Limiter) : Limiter :=
  { limiter with tokens := min (limiter.tokens + 1) limiter.burst }

/-- Tokens come back, as far as there is room for them. -/
def refillBy (limiter : Limiter) (count : Nat) : Limiter :=
  { limiter with tokens := min (limiter.tokens + count) limiter.burst }

end Limiter

end Backfill
