import Backfill.Proofs.AccountEntries
import Backfill.Proofs.LedgerCounts
import Mathlib.Data.Nat.ModEq

/-!
# What telemetry is told

The counters of an engine and the metrics of the program are told the same things, one after the
other, and each of them is raised by some of these.  What is told can be listed, and a counter
shows, up to going round, what the list adds up to.  Two counters that are raised by the same
things are raised by the same number, so what is known of one of them is known of the other one.

The operations on the accounts of a run tell one thing for each slot or range that they enter; a
label is raised by the slots that are entered with a reason of that label.

## Main definitions

* `Telemetry.Telling`, `Telemetry.tellAll` — what is told, one after the other.
* `Telemetry.WellFormed` — every counter is a word, and the labels are in order.
* `Telemetry.Counter` — a counter, with the amount that each telling raises it by.

## Main results

* `Telemetry.Counter.read_tellAll` — **a counter is raised by the sum of what was told.**
* `Telemetry.Counter.read_alike` — counters that are raised by the same things stay in step.
* `Accounts.telemetry_failSlots`, `Accounts.telemetry_deliver` — what the accounts tell.
* `Telemetry.sum_failed_entering` — a label is raised by the slots that fail with it.
-/

namespace Backfill

namespace Word

theorem wrap_le (n : Nat) : wrap n ≤ max := Nat.le_of_lt_succ (Nat.mod_lt _ (Nat.succ_pos _))

theorem wrap_wrap_add (n more : Nat) : wrap (wrap n + more) = wrap (n + more) :=
  Nat.mod_add_mod _ _ _

end Word

namespace Telemetry

/-- One thing that telemetry is told. -/
inductive Telling
  | attempt
  | retry
  | batch
  | success (transactions : Nat)
  | failures (reason : FailureReason) (slots : Nat)
  | dispatchFailure
  | startRun (requested : Nat)
  | cycle (resolved percent : Nat)

/-- Telemetry that has been told one more thing. -/
def tell (telemetry : Telemetry) : Telling → Telemetry
  | .attempt => telemetry.attempt
  | .retry => telemetry.retry
  | .batch => telemetry.batch
  | .success transactions => telemetry.success transactions
  | .failures reason slots => telemetry.failures reason slots
  | .dispatchFailure => telemetry.dispatchFailure
  | .startRun requested => telemetry.startRun requested
  | .cycle resolved percent => telemetry.cycle resolved percent

/-- Telemetry that has been told one thing after the other. -/
def tellAll (telemetry : Telemetry) (tellings : List Telling) : Telemetry :=
  tellings.foldl tell telemetry

@[simp] theorem tellAll_cons (telemetry : Telemetry) (telling : Telling)
    (rest : List Telling) :
    telemetry.tellAll (telling :: rest) = (telemetry.tell telling).tellAll rest := rfl

@[simp] theorem tellAll_append (telemetry : Telemetry) (first second : List Telling) :
    telemetry.tellAll (first ++ second) = (telemetry.tellAll first).tellAll second :=
  List.foldl_append

/-! ### Counters -/

/-- Every counter is a word, and the labels are in order. -/
structure WellFormed (telemetry : Telemetry) : Prop where
  attempts : telemetry.stats.attempts ≤ Word.max
  retries : telemetry.stats.retries ≤ Word.max
  batches : telemetry.stats.batches ≤ Word.max
  successes : telemetry.stats.successes ≤ Word.max
  failures : telemetry.stats.failures ≤ Word.max
  transactions : telemetry.stats.transactions ≤ Word.max
  requests : telemetry.metrics.requests ≤ Word.max
  repetitions : telemetry.metrics.retries ≤ Word.max
  succeeded : telemetry.metrics.succeeded ≤ Word.max
  sorted : telemetry.metrics.failed.Sorted
  failed : ∀ label, telemetry.metrics.failed.get label ≤ Word.max

variable {telemetry : Telemetry}

theorem wellFormed_zero : WellFormed zero :=
  ⟨Nat.zero_le _, Nat.zero_le _, Nat.zero_le _, Nat.zero_le _, Nat.zero_le _, Nat.zero_le _,
    Nat.zero_le _, Nat.zero_le _, Nat.zero_le _, LabelCounts.sorted_nil, fun _ => Nat.zero_le _⟩

/-- Whatever telemetry is told, it stays well-formed. -/
theorem WellFormed.tell (h : telemetry.WellFormed) (telling : Telling) :
    (telemetry.tell telling).WellFormed := by
  -- Every counter that moves is wrapped, and the others stay within their bounds.
  cases telling with
  | attempt => exact { h with attempts := Word.wrap_le _, requests := Word.wrap_le _ }
  | retry => exact { h with retries := Word.wrap_le _, repetitions := Word.wrap_le _ }
  | batch => exact { h with batches := Word.wrap_le _ }
  | success transactions =>
    exact { h with
      successes := Word.wrap_le _
      transactions := Word.wrap_le _
      succeeded := Word.wrap_le _ }
  | failures reason slots =>
    refine { h with
      failures := Word.wrap_le _
      sorted := h.sorted.add reason.label slots
      failed := fun label => ?_ }
    show LabelCounts.get (telemetry.metrics.failed.add reason.label slots) label ≤ Word.max
    rw [h.sorted.get_add]
    split
    · exact Word.wrap_le _
    · exact h.failed label
  | dispatchFailure | startRun | cycle => exact { h with }

theorem WellFormed.tellAll (h : telemetry.WellFormed) (tellings : List Telling) :
    (telemetry.tellAll tellings).WellFormed := by
  induction tellings generalizing telemetry with
  | nil => exact h
  | cons telling rest ih => exact ih (h.tell telling)

/-- A counter, with the amount that each telling raises it by. -/
structure Counter where
  read : Telemetry → Nat
  gain : Telling → Nat
  read_le : ∀ {telemetry}, WellFormed telemetry → read telemetry ≤ Word.max
  read_tell : ∀ {telemetry}, WellFormed telemetry → ∀ telling,
    read (telemetry.tell telling) = Word.wrap (read telemetry + gain telling)

namespace Counter

/-- **A counter is raised by the sum of what was told**, up to going round. -/
theorem read_tellAll (counter : Counter) (h : telemetry.WellFormed) (tellings : List Telling) :
    counter.read (telemetry.tellAll tellings) =
      Word.wrap (counter.read telemetry + (tellings.map counter.gain).sum) := by
  induction tellings generalizing telemetry with
  | nil => exact (Word.wrap_of_le (counter.read_le h)).symm
  | cons telling rest ih =>
    rw [tellAll_cons, ih (h.tell telling), counter.read_tell h, Word.wrap_wrap_add, List.map_cons,
      List.sum_cons, Nat.add_assoc]

/-- **Counters that are raised by the same things stay in step.** -/
theorem read_alike {counter other : Counter} (halike : counter.gain = other.gain)
    (h : telemetry.WellFormed) {tellings : List Telling} {n : Nat}
    (hother : other.read (telemetry.tellAll tellings) ≡ other.read telemetry + n
      [MOD Word.max + 1]) :
    counter.read (telemetry.tellAll tellings) = Word.wrap (counter.read telemetry + n) := by
  have hsum : other.read telemetry + (tellings.map other.gain).sum ≡ other.read telemetry + n
      [MOD Word.max + 1] := by
    refine (Nat.mod_modEq _ _).symm.trans ?_
    show Word.wrap _ ≡ _ [MOD Word.max + 1]
    rwa [← other.read_tellAll h]
  rw [counter.read_tellAll h, halike]
  exact (Nat.ModEq.add_left_cancel' _ hsum).add_left _

end Counter

/-- How many requests something told stands for. -/
def Telling.requests : Telling → Nat
  | .attempt => 1
  | _ => 0

/-- How many repeated requests something told stands for. -/
def Telling.retries : Telling → Nat
  | .retry => 1
  | _ => 0

/-- How many fetched slots something told stands for. -/
def Telling.successes : Telling → Nat
  | .success _ => 1
  | _ => 0

/-- How many slots that have failed with a label something told stands for. -/
def Telling.failed (label : String) : Telling → Nat
  | .failures reason slots => if reason.label = label then slots else 0
  | _ => 0

/-- The requests that an engine counts. -/
def attemptsCounter : Counter where
  read telemetry := telemetry.stats.attempts
  gain := Telling.requests
  read_le h := h.attempts
  read_tell h telling := by
    cases telling with
    | attempt => rfl
    | _ => exact (Word.wrap_of_le h.attempts).symm

/-- The requests that the metrics tell. -/
def requestsCounter : Counter where
  read telemetry := telemetry.metrics.requests
  gain := Telling.requests
  read_le h := h.requests
  read_tell h telling := by
    cases telling with
    | attempt => rfl
    | _ => exact (Word.wrap_of_le h.requests).symm

/-- The repeated requests that an engine counts. -/
def retriesCounter : Counter where
  read telemetry := telemetry.stats.retries
  gain := Telling.retries
  read_le h := h.retries
  read_tell h telling := by
    cases telling with
    | retry => rfl
    | _ => exact (Word.wrap_of_le h.retries).symm

/-- The repeated requests that the metrics tell. -/
def repetitionsCounter : Counter where
  read telemetry := telemetry.metrics.retries
  gain := Telling.retries
  read_le h := h.repetitions
  read_tell h telling := by
    cases telling with
    | retry => rfl
    | _ => exact (Word.wrap_of_le h.repetitions).symm

/-- The fetched slots that an engine counts. -/
def successesCounter : Counter where
  read telemetry := telemetry.stats.successes
  gain := Telling.successes
  read_le h := h.successes
  read_tell h telling := by
    cases telling with
    | success => rfl
    | _ => exact (Word.wrap_of_le h.successes).symm

/-- The fetched slots that the metrics tell. -/
def succeededCounter : Counter where
  read telemetry := telemetry.metrics.succeeded
  gain := Telling.successes
  read_le h := h.succeeded
  read_tell h telling := by
    cases telling with
    | success => rfl
    | _ => exact (Word.wrap_of_le h.succeeded).symm

/-- The slots that have failed with a label, as the metrics tell them. -/
def failedCounter (label : String) : Counter where
  read telemetry := telemetry.metrics.failed.get label
  gain := Telling.failed label
  read_le h := h.failed label
  read_tell {telemetry} h telling := by
    cases telling with
    | failures reason slots =>
      show LabelCounts.get (telemetry.metrics.failed.add reason.label slots) label = _
      rw [h.sorted.get_add, Telling.failed]
      split
      · rfl
      · exact (Word.wrap_of_le (h.failed label)).symm
    | _ => exact (Word.wrap_of_le (h.failed label)).symm

/-! ### Slots that are entered -/

/-- What is told when slots fail, one after the other. -/
def entering (failures : List (Nat × FailureReason)) : List Telling :=
  failures.map fun failure => .failures failure.2 1

/-- What is told when ranges of slots fail for one reason. -/
def enteringRanges (ranges : List SlotRange) (reason : FailureReason) : List Telling :=
  ranges.map fun range => .failures reason range.count

/-- What is told when fetched slots are entered. -/
def fetching (slots : List (Nat × Nat)) : List Telling := slots.map fun slot => .success slot.2

/-- **A label is raised by the slots that fail with it.** -/
theorem sum_failed_entering (failures : List (Nat × FailureReason)) (label : String) :
    ((entering failures).map (Telling.failed label)).sum =
      failures.countP fun failure => failure.2.label = label := by
  induction failures with
  | nil => rfl
  | cons failure rest ih =>
    rw [entering, List.map_cons, List.map_cons, List.sum_cons, List.countP_cons]
    rw [entering] at ih
    rw [ih, Nat.add_comm]
    simp [Telling.failed]

/-- A range raises the label of its reason by the number of its slots. -/
theorem sum_failed_enteringRanges {ranges : List SlotRange}
    (hranges : ∀ range ∈ ranges, range.first ≤ range.last)
    (hlength : (ranges.flatMap SlotRange.slots).length ≤ Word.max) (reason : FailureReason)
    (label : String) :
    ((enteringRanges ranges reason).map (Telling.failed label)).sum =
      ((ranges.flatMap SlotRange.slots).map fun slot => (slot, reason)).countP
        fun failure => failure.2.label = label := by
  induction ranges with
  | nil => rfl
  | cons range rest ih =>
    rw [List.flatMap_cons, List.length_append] at hlength
    -- A range is told as a number, which is exact as long as it is a word.
    have hcount : range.count = range.slots.length :=
      SlotRange.count_eq_length (hranges range List.mem_cons_self) (by omega)
    have hrest := ih (fun other hother => hranges other (List.mem_cons_of_mem _ hother)) (by omega)
    rw [enteringRanges] at hrest
    rw [enteringRanges, List.map_cons, List.map_cons, List.sum_cons, hrest, List.flatMap_cons,
      List.map_append, List.countP_append, List.countP_map]
    by_cases hlabel : reason.label = label <;>
      simp [Telling.failed, hcount, hlabel, Function.comp_def]

theorem sum_requests_eq_zero {tellings : List Telling}
    (h : ∀ telling ∈ tellings, telling ≠ .attempt) :
    (tellings.map Telling.requests).sum = 0 := by
  refine List.sum_eq_zero_iff_forall_eq_nat.mpr fun n hn => ?_
  obtain ⟨telling, htelling, rfl⟩ := List.mem_map.mp hn
  cases telling with
  | attempt => exact absurd rfl (h _ htelling)
  | _ => rfl

end Telemetry

/-! ### What the accounts tell -/

namespace Accounts

open Telemetry

theorem telemetry_failSlots (accounts : Accounts) (failures : List (Nat × FailureReason)) :
    (accounts.failSlots failures).telemetry = accounts.telemetry.tellAll (entering failures) := by
  induction failures generalizing accounts with
  | nil => rfl
  | cons failure rest ih =>
    have hone : (SlotRange.single failure.1).count = 1 := by
      rw [SlotRange.count_eq_length (Nat.le_refl _) (by simp [Word.max]), SlotRange.slots_single]
      rfl
    have hfirst : (accounts.fail (.single failure.1) failure.2).telemetry =
        accounts.telemetry.tell (.failures failure.2 1) := by
      rw [← hone]
      rfl
    exact (ih _).trans (congrArg (Telemetry.tellAll · (entering rest)) hfirst)

theorem telemetry_failRanges (accounts : Accounts) (ranges : List SlotRange)
    (reason : FailureReason) :
    (accounts.failRanges ranges reason).telemetry =
      accounts.telemetry.tellAll (enteringRanges ranges reason) := by
  induction ranges generalizing accounts with
  | nil => rfl
  | cons range rest ih => exact ih (accounts.fail range reason)

theorem telemetry_foldl_succeed (accounts : Accounts) (slots : List (Nat × Nat)) :
    (slots.foldl (fun accounts slot => accounts.succeed slot.2) accounts).telemetry =
      accounts.telemetry.tellAll (fetching slots) := by
  induction slots generalizing accounts with
  | nil => rfl
  | cons slot rest ih => exact ih (accounts.succeed slot.2)

/-- What is told at the end of a delivery. -/
def delivering (delivery : Delivery) : Except DispatchError Unit → List Telling
  | .ok () => fetching delivery.slots
  | .error error => .dispatchFailure :: entering (delivery.failures (.error error))

theorem telemetry_deliver (accounts : Accounts) (delivery : Delivery)
    (result : Except DispatchError Unit) :
    (accounts.deliver delivery result).telemetry =
      accounts.telemetry.tellAll (delivering delivery result) := by
  cases result with
  | ok =>
    exact telemetry_foldl_succeed
      { accounts with
        forwarded := accounts.forwarded + delivery.records.length
        skipped := accounts.skipped + delivery.skipped } delivery.slots
  | error error =>
    exact telemetry_failSlots { accounts with telemetry := accounts.telemetry.dispatchFailure } _

theorem telemetry_settle (accounts : Accounts) (result : BatchResult) :
    (accounts.settle result).1.telemetry =
      accounts.telemetry.tellAll (.batch :: entering result.failures) :=
  telemetry_failSlots { accounts with telemetry := accounts.telemetry.batch } result.failures

/-- **The ledger grows by the entries that are made**, as long as none of their slots had failed
before. -/
theorem Settles.entries_perm {before after : Accounts} {failures : List (Nat × FailureReason)}
    {fetched : List Nat} (h : before.Settles failures fetched after)
    (hordered : before.ledger.Ordered)
    (hnodup : (failures.map (·.1) ++ before.ledger.slots).Nodup) :
    after.ledger.entries.Perm (failures ++ before.ledger.entries) := by
  have hafter : after.ledger.entries.Nodup :=
    .of_map Prod.fst (after.ledger.map_fst_entries ▸ h.ordered.nodup_slots)
  have hbefore : (failures ++ before.ledger.entries).Nodup := by
    refine .of_map Prod.fst ?_
    rwa [List.map_append, before.ledger.map_fst_entries]
  refine (List.perm_ext_iff_of_nodup hafter hbefore).mpr fun ⟨slot, reason⟩ => ?_
  rw [h.ordered.mem_entries, List.mem_append, hordered.mem_entries]
  -- A slot that failed now had no entry before; any other one keeps its own.
  by_cases hslot : slot ∈ failures.map (·.1)
  · obtain ⟨entry, hentry, rfl⟩ := List.mem_map.mp hslot
    have hold : before.ledger.reasonOf? entry.1 = none :=
      Ledger.not_mem_slots.mp ((List.nodup_append'.mp hnodup).2.2 hslot)
    rw [h.recorded entry hentry, hold]
    constructor
    · intro heq
      obtain rfl := Option.some.inj heq
      exact .inl hentry
    · rintro (hnew | hnone)
      · exact (h.recorded _ hentry).symm.trans (h.recorded _ hnew)
      · simp at hnone
  · rw [h.kept slot hslot]
    have hnew : (slot, reason) ∉ failures := fun hmem => hslot (List.mem_map_of_mem hmem)
    simp [hnew]

end Accounts

end Backfill
