import Backfill.Word

/-!
# Failures of a whole request

A request for a batch can fail as a whole, before there is an answer for any slot.  Every
such failure may be repeated.

## Main definitions

* `TransportKind` — at which stage the request failed.
* `TransportError` — the failure, with its wording and, if there is one, the HTTP status.
* `TransportError.failureClass` — a coarse class for logs and status pages.
* `TransportError.ofStatus` — the failure that a response status stands for.
-/

namespace Backfill

/-- At which stage a request failed. -/
inductive TransportKind
  | connect
  | timeout
  | httpStatus
  /-- The body was not an answer to a batch. -/
  | envelope
  | request
deriving DecidableEq, Repr, Inhabited

/-- Failure of a request as a whole. -/
structure TransportError where
  kind : TransportKind
  message : String
  status : Option Nat
deriving DecidableEq, Repr, Inhabited

namespace TransportError

/-- A failure without a response status. -/
def withoutStatus (kind : TransportKind) (message : String) : TransportError :=
  ⟨kind, message, none⟩

/-- A failure told by a response status. -/
def httpStatus (status : Nat) (message : String) : TransportError :=
  ⟨.httpStatus, message, some status⟩

/-- The coarse class of the failure. -/
def failureClass (error : TransportError) : String :=
  match error.status with
  | some status =>
    if status = 429 then "rate_limited"
    else if 400 ≤ status ∧ status ≤ 499 then "http_4xx"
    else "http_5xx"
  | none => if error.kind = .envelope then "decode" else "network_transient"

/-- Whether the request may be repeated: always. -/
def isRetryable (_ : TransportError) : Bool := true

/-- Whether a response status tells of success. -/
def isSuccess (status : Nat) : Bool := 200 ≤ status && status ≤ 299

/-- The failure that a response status stands for. -/
def ofStatus (status : Nat) : TransportError :=
  httpStatus status <|
    if status = 429 then "RPC provider rate limited the batch (HTTP 429)"
    else if 400 ≤ status ∧ status ≤ 499 then
      s!"RPC provider rejected the batch with HTTP {status}"
    else if 500 ≤ status ∧ status ≤ 599 then s!"RPC provider server error HTTP {status}"
    else s!"unexpected HTTP status {status} from RPC provider"

end TransportError

end Backfill
