import Backfill.Json

/-!
# Why a slot has no block

Every requested slot of a run ends either with its block or with the reason why there is
none.

## Main definitions

* `FailureReason` — the reason; `FailureReason.label` names its kind and
  `FailureReason.display` tells it to the user.
* `Outcome` — the result of asking for one slot.
* `Outcomes` — the results of a batch: one per slot, in ascending order of slots.
* `Outcomes.insert`, `Outcomes.ofList`, `Outcomes.uniform` — building them.

## Main results

* `Outcomes.lookup_insert_self`, `Outcomes.lookup_insert_of_ne` — the last outcome put in
  for a slot is the one found.
-/

namespace Backfill

/-- Why a slot ended a run without a block. -/
inductive FailureReason
  /-- The provider answered the slot with an error. -/
  | providerError (code : Int) (message : String)
  /-- The provider answered that there is no block. -/
  | notFound
  /-- The answer to the batch had no entry for the slot. -/
  | noResponse
  /-- Every attempt for the batch failed as a whole. -/
  | exhaustedRetries (attempts : Nat) (lastError : String)
  | cancelled
  /-- The block was fetched, but handing it on failed. -/
  | dispatchFailed (message : String)
  /-- The worker that had the batch stopped before it reported. -/
  | workerLost
deriving DecidableEq, Repr, Inhabited

namespace FailureReason

/-- Name of the kind of reason. -/
def label : FailureReason → String
  | .providerError .. => "provider_error"
  | .notFound => "not_found"
  | .noResponse => "no_response"
  | .exhaustedRetries .. => "exhausted_retries"
  | .cancelled => "cancelled"
  | .dispatchFailed _ => "dispatch_failed"
  | .workerLost => "worker_lost"

/-- The reason as it is told to the user. -/
def display : FailureReason → String
  | .providerError code message => s!"RPC error: code={code}, message={message}"
  | .notFound => "not found"
  | .noResponse => "no response found"
  | .exhaustedRetries attempts lastError => s!"exhausted {attempts} attempts: {lastError}"
  | .cancelled => "cancelled"
  | .dispatchFailed message => s!"dispatch failed: {message}"
  | .workerLost => "worker stopped before reporting"

/-- Whether every attempt for the slot's batch failed as a whole. -/
def isExhausted : FailureReason → Bool
  | .exhaustedRetries .. => true
  | _ => false

end FailureReason

/-- The result of asking for one slot. -/
inductive Outcome
  | fetched (block : Json)
  | failed (reason : FailureReason)
deriving DecidableEq, Repr, Inhabited

/-- The results of a batch, one per slot, in ascending order of slots. -/
abbrev Outcomes := List (Nat × Outcome)

namespace Outcomes

/-- Puts in the outcome of a slot, replacing an earlier one. -/
def insert (slot : Nat) (outcome : Outcome) : Outcomes → Outcomes
  | [] => [(slot, outcome)]
  | (s, o) :: rest =>
    if slot < s then (slot, outcome) :: (s, o) :: rest
    else if slot = s then (slot, outcome) :: rest
    else (s, o) :: insert slot outcome rest

/-- The outcomes of a list of slots; of several for one slot the last one stays. -/
def ofList (pairs : List (Nat × Outcome)) : Outcomes :=
  pairs.foldl (fun outcomes pair => insert pair.1 pair.2 outcomes) []

/-- The same failure for every slot. -/
def uniform (slots : List Nat) (reason : FailureReason) : Outcomes :=
  ofList (slots.map fun slot => (slot, .failed reason))

/-- The outcome put in for a slot is found. -/
@[simp] theorem lookup_insert_self (slot : Nat) (outcome : Outcome) (outcomes : Outcomes) :
    (insert slot outcome outcomes).lookup slot = some outcome := by
  induction outcomes with
  | nil => simp [insert]
  | cons pair rest ih =>
    obtain ⟨s, o⟩ := pair
    simp only [insert]
    split
    · simp
    · split
      · simp
      · rename_i hne
        have hbeq : (slot == s) = false := by simpa using hne
        simp [List.lookup_cons, hbeq, ih]

/-- The outcomes of other slots do not change. -/
theorem lookup_insert_of_ne {slot other : Nat} (h : other ≠ slot) (outcome : Outcome)
    (outcomes : Outcomes) :
    (insert slot outcome outcomes).lookup other = outcomes.lookup other := by
  have hother : (other == slot) = false := by simpa using h
  induction outcomes with
  | nil => simp [insert, h]
  | cons pair rest ih =>
    obtain ⟨s, o⟩ := pair
    simp only [insert]
    split
    · simp [List.lookup_cons, hother]
    · split
      · rename_i hs
        subst hs
        simp [List.lookup_cons, hother]
      · simp [List.lookup_cons, ih]

end Outcomes

end Backfill
