import Backfill.Proofs.LedgerScan

/-!
# What a history of calls leaves in a ledger

Failures are entered slot by slot or as ranges, in any order, over one another.  Whatever the
history, the ledger holds the map that gives every slot the reason of the last call that covers
it: the spans are one way of writing that map down.

## Main definitions

* `Ledger.Call` — a call that enters failures; `Ledger.ofCalls` is what a history of calls leaves.
* `Ledger.lastReason?` — the reason of the last call that covers a slot.
* `Ledger.Holds` — a ledger holds a map: its spans, the look-up and both lists agree with it.

## Main results

* `Ledger.ofCalls_last_writer_wins` — **a ledger holds the reason of the last call for every
  slot**, and entering the calls in place never leaves the machine words.
-/

namespace Backfill

namespace Ledger

/-- A call that enters failures. -/
inductive Call
  | record (slot : Nat) (reason : FailureReason)
  | recordRange (range : SlotRange) (reason : FailureReason)
deriving DecidableEq, Repr

namespace Call

/-- The slots that the call covers. -/
def range : Call → SlotRange
  | .record slot _ => .single slot
  | .recordRange range _ => range

/-- The reason that the call gives. -/
def reason : Call → FailureReason
  | .record _ reason => reason
  | .recordRange _ reason => reason

/-- The bounds of the call are words, the first not above the last. -/
def IsProper (call : Call) : Prop :=
  call.range.first ≤ call.range.last ∧ call.range.last ≤ Word.max

instance (call : Call) : Decidable call.IsProper := inferInstanceAs (Decidable (_ ∧ _))

/-- The call is made. -/
def apply (ledger : Ledger) : Call → Ledger
  | .record slot reason => ledger.record slot reason
  | .recordRange range reason => ledger.recordRange range reason

/-- The call is made in place, on machine words. -/
def applyInPlace? (ledger : Ledger) (call : Call) : Option Ledger :=
  ledger.recordInPlace? call.range call.reason

theorem apply_eq (ledger : Ledger) (call : Call) :
    call.apply ledger = ledger.recordRange call.range call.reason := by
  cases call <;> rfl

end Call

/-- What a history of calls leaves. -/
def ofCalls (calls : List Call) : Ledger := calls.foldl Call.apply .empty

/-- The reason that the last call for a slot gave. -/
def lastReason? (calls : List Call) (slot : Nat) : Option FailureReason :=
  (calls.reverse.find? fun call => call.range.contains slot).map Call.reason

@[simp] theorem ofCalls_concat (calls : List Call) (call : Call) :
    ofCalls (calls ++ [call]) = call.apply (ofCalls calls) := by
  simp [ofCalls]

theorem lastReason?_concat (calls : List Call) (call : Call) (slot : Nat) :
    lastReason? (calls ++ [call]) slot =
      if call.range.contains slot then some call.reason else lastReason? calls slot := by
  unfold lastReason?
  rw [List.reverse_concat, List.find?_cons]
  cases call.range.contains slot <;> rfl

theorem isSome_lastReason? {calls : List Call} {slot : Nat} :
    (lastReason? calls slot).isSome ↔
      ∃ call ∈ calls, call.range.first ≤ slot ∧ slot ≤ call.range.last := by
  simp [lastReason?]

/-- A ledger holds a map from slots to reasons: its spans are in order and within the words, a
slot is looked up rightly, and the two lists are the map written out in ascending order. -/
structure Holds (ledger : Ledger) (reason? : Nat → Option FailureReason) : Prop where
  ordered : ledger.Ordered
  words : ∀ span ∈ ledger.spans, span.last ≤ Word.max
  reasonOf?_eq : ∀ slot, ledger.reasonOf? slot = reason? slot
  ascending : ledger.slots.Pairwise (· < ·)
  mem_slots : ∀ slot, slot ∈ ledger.slots ↔ (reason? slot).isSome
  entries_slots : ledger.entries.map Prod.fst = ledger.slots
  mem_entries : ∀ slot reason, (slot, reason) ∈ ledger.entries ↔ reason? slot = some reason

/-- In order, with the reasons of a map that is defined on words only, a ledger holds the map. -/
theorem Ordered.holds {ledger : Ledger} (h : ledger.Ordered)
    {reason? : Nat → Option FailureReason} (hreason : ∀ slot, ledger.reasonOf? slot = reason? slot)
    (hword : ∀ slot, (reason? slot).isSome → slot ≤ Word.max) : ledger.Holds reason? where
  ordered := h
  words span hspan := by
    have hlast := h.reasonOf?_of_mem hspan ⟨h.nonempty span hspan, Nat.le_refl _⟩
    exact hword span.last (by rw [← hreason, hlast]; rfl)
  reasonOf?_eq := hreason
  ascending := h.pairwise_slots
  mem_slots slot := by rw [Ledger.mem_slots, hreason]
  entries_slots := map_fst_entries ledger
  mem_entries slot reason := by rw [h.mem_entries, hreason]

theorem ordered_ofCalls {calls : List Call} (hproper : ∀ call ∈ calls, call.IsProper) :
    (ofCalls calls).Ordered ∧ ∀ slot, (ofCalls calls).reasonOf? slot = lastReason? calls slot := by
  induction calls using List.reverseRecOn with
  | nil => exact ⟨ordered_empty, fun slot => rfl⟩
  | append_singleton calls call ih =>
    obtain ⟨hordered, hreason⟩ := ih fun other hother => hproper other (by simp [hother])
    have hrange := (hproper call (by simp)).1
    rw [ofCalls_concat, Call.apply_eq]
    refine ⟨hordered.recordRange hrange call.reason, fun slot => ?_⟩
    rw [reasonOf?_recordRange hordered hrange, lastReason?_concat, hreason]

theorem holds_ofCalls {calls : List Call} (hproper : ∀ call ∈ calls, call.IsProper) :
    (ofCalls calls).Holds (lastReason? calls) := by
  obtain ⟨hordered, hreason⟩ := ordered_ofCalls hproper
  refine hordered.holds hreason fun slot hslot => ?_
  obtain ⟨call, hcall, -, hle⟩ := isSome_lastReason?.mp hslot
  exact Nat.le_trans hle (hproper call hcall).2

/-- Proper calls can be made in place, with the same outcome. -/
theorem foldlM_applyInPlace? {calls : List Call} (hproper : ∀ call ∈ calls, call.IsProper) :
    calls.foldlM Call.applyInPlace? .empty = some (ofCalls calls) := by
  induction calls using List.reverseRecOn with
  | nil => rfl
  | append_singleton calls call ih =>
    have hbefore : ∀ other ∈ calls, other.IsProper := fun other hother =>
      hproper other (by simp [hother])
    obtain ⟨hrange, hlast⟩ := hproper call (by simp)
    have hholds := holds_ofCalls hbefore
    rw [List.foldlM_append, ih hbefore, ofCalls_concat, Call.apply_eq]
    simp only [Option.bind_eq_bind, Option.bind_some, List.foldlM_cons, List.foldlM_nil,
      Call.applyInPlace?, recordInPlace?_eq hholds.ordered hholds.words hrange hlast,
      Option.pure_def]

/-- **A ledger holds the reason of the last call for every slot.**  Its spans are in order and do
not overlap, its lists are the covered slots in ascending order, and entering the calls in place,
where a word beside another has to exist, succeeds with the same spans. -/
theorem ofCalls_last_writer_wins (calls : List Call) (hproper : ∀ call ∈ calls, call.IsProper) :
    (ofCalls calls).Holds (lastReason? calls) ∧
      (∀ slot, slot ∈ (ofCalls calls).slots ↔
        ∃ call ∈ calls, call.range.first ≤ slot ∧ slot ≤ call.range.last) ∧
      calls.foldlM Call.applyInPlace? .empty = some (ofCalls calls) := by
  have hholds := holds_ofCalls hproper
  refine ⟨hholds, fun slot => ?_, foldlM_applyInPlace? hproper⟩
  rw [hholds.mem_slots, isSome_lastReason?]

/-- Ranges at both ends of the words, over one another, and a slot in the middle. -/
theorem last_writer_wins_overlapping :
    let calls : List Call :=
      [.recordRange ⟨0, 9⟩ .cancelled, .recordRange ⟨Word.max - 2, Word.max⟩ .notFound,
        .recordRange ⟨4, Word.max - 2⟩ .noResponse, .record 6 .cancelled,
        .recordRange ⟨2, 3⟩ .noResponse, .record Word.max .noResponse]
    (∀ call ∈ calls, call.IsProper) ∧ (ofCalls calls).Holds (lastReason? calls) ∧
      ofCalls calls = ⟨[⟨0, 1, .cancelled⟩, ⟨2, 5, .noResponse⟩, ⟨6, 6, .cancelled⟩,
        ⟨7, Word.max - 2, .noResponse⟩, ⟨Word.max - 1, Word.max - 1, .notFound⟩,
        ⟨Word.max, Word.max, .noResponse⟩]⟩ ∧
      calls.foldlM Call.applyInPlace? .empty = some (ofCalls calls) := by
  intro calls
  have hproper : ∀ call ∈ calls, call.IsProper := by decide
  have hholds := ofCalls_last_writer_wins calls hproper
  exact ⟨hproper, hholds.1, by decide, hholds.2.2⟩

end Ledger

end Backfill
