import Backfill.Proofs.LedgerCalls
import Backfill.Proofs.LedgerCounts
import Backfill.Proofs.PlanPartition
import Mathlib.Data.List.Dedup

/-!
# The counts of a ledger are exact

A ledger counts its slots from the bounds of its spans, and by the names of the kinds of reasons,
while spans are told apart by the whole reason.  However failures were entered, every slot that was
entered is counted once, under the name of its last reason.  The size is held at the largest word,
which only the ledger of all slots exceeds; below that no sum leaves the words, so that the counts
may as well be added in place.

## Main definitions

* `LabelCounts.add?`, `Ledger.reasonCounts?` — adding in place: nothing is given as soon as a sum is
  no word.
* `Ledger.recorded` — the slots that calls cover, each once.
* `Ledger.recordedWith` — how many of them have a last reason with the label.

## Main results

* `Ledger.Ordered.reasonCounts?_eq` — **no sum leaves the words.**
* `LabelCounts.Sorted.mem_iff` — a listed count is found by its label.
* `Ledger.counts_are_exact` — **every slot that was entered is counted once, under the name of its
  last reason.**
-/

namespace Backfill

/-! ### Adding in place -/

namespace LabelCounts

/-- Raises the count of a label by `n` in place; a label that is not listed counts zero until
then. -/
def add? (label : String) (n : Nat) : LabelCounts → Option LabelCounts
  | [] => (Word.sum? 0 n).map fun sum => [(label, sum)]
  | (l, count) :: rest =>
    if label < l then (Word.sum? 0 n).map fun sum => (label, sum) :: (l, count) :: rest
    else if label = l then (Word.sum? count n).map fun sum => (l, sum) :: rest
    else (add? label n rest).map ((l, count) :: ·)

variable {label : String} {n : Nat} {counts : LabelCounts}

/-- As long as the total is a word, a count is raised in place as it should be. -/
theorem add?_eq (h : counts.total + n ≤ Word.max) :
    counts.add? label n = some (counts.add label n) := by
  induction counts with
  | nil =>
    rw [total_nil, Nat.zero_add] at h
    simp [add?, add, Word.sum?, h, Word.wrap_of_le]
  | cons count rest ih =>
    obtain ⟨l, c⟩ := count
    rw [total_cons] at h
    dsimp only at h
    -- Neither the label's own sum nor any other one leaves the words.
    have hfirst : n ≤ Word.max ∧ c + n ≤ Word.max := by omega
    have hrest := ih (by omega)
    simp only [add?, add, Word.sum?, hfirst, hrest, Nat.zero_add, if_true, Option.map_some,
      Word.wrap_of_le]
    split
    · rfl
    · split <;> rfl

/-- Counts that are raised by something are not zero. -/
theorem pos_of_mem_add (hn : 0 < n) (h : counts.total + n ≤ Word.max)
    (hpos : ∀ count ∈ counts, 0 < count.2) : ∀ count ∈ counts.add label n, 0 < count.2 := by
  induction counts with
  | nil =>
    rw [total_nil, Nat.zero_add] at h
    simpa [add, Word.wrap_of_le h] using hn
  | cons count rest ih =>
    obtain ⟨l, c⟩ := count
    rw [total_cons] at h
    dsimp only at h
    -- No count wraps around, so adding never leads back to zero.
    have hrest := ih (by omega) fun other hother => hpos other (List.mem_cons_of_mem _ hother)
    unfold add
    rw [Word.wrap_of_le (show n ≤ Word.max by omega),
      Word.wrap_of_le (show c + n ≤ Word.max by omega)]
    split
    · exact List.forall_mem_cons.mpr ⟨hn, hpos⟩
    · split
      · exact List.forall_mem_cons.mpr
          ⟨Nat.add_pos_right c hn, fun other hother => hpos other (List.mem_cons_of_mem _ hother)⟩
      · exact List.forall_mem_cons.mpr ⟨hpos _ List.mem_cons_self, hrest⟩

/-- A listed count is found by its label, and a count that is found is listed unless it is zero. -/
theorem Sorted.mem_iff (h : counts.Sorted) (hpos : ∀ count ∈ counts, 0 < count.2) :
    (label, n) ∈ counts ↔ 0 < n ∧ n = counts.get label := by
  constructor
  · intro hmem
    refine ⟨hpos _ hmem, ?_⟩
    -- Labels that come earlier are smaller, so a search stops at this one.
    obtain ⟨front, back, rfl⟩ := List.append_of_mem hmem
    have hlookup : (front ++ (label, n) :: back).lookup label = some n := by
      refine List.lookup_eq_some_iff.mpr ⟨front, back, rfl, fun other hother => ?_⟩
      have hlt := (List.pairwise_append.mp h).2.2 other hother (label, n) List.mem_cons_self
      simpa using (String.ne_of_lt hlt).symm
    rw [get, hlookup, Option.getD_some]
  · rintro ⟨hn, rfl⟩
    cases hlookup : counts.lookup label with
    | none => simp [get, hlookup] at hn
    | some found =>
      obtain ⟨front, back, rfl, -⟩ := List.lookup_eq_some_iff.mp hlookup
      simp [get, hlookup]

end LabelCounts

namespace Ledger

/-- Gathers the counts by reason in place. -/
def reasonCounts? (ledger : Ledger) : Option LabelCounts :=
  ledger.spans.foldlM (fun counts span => counts.add? span.reason.label span.count) []

/-- What is gathered in place span by span is what should be gathered, with no count of zero and
the labels in order. -/
theorem foldlM_add?_eq {spans : List Span} {counts : LabelCounts}
    (hnonempty : ∀ span ∈ spans, span.first ≤ span.last)
    (hle : counts.total + (spans.flatMap fun span => span.range.slots).length ≤ Word.max)
    (hpos : ∀ count ∈ counts, 0 < count.2) (hsorted : counts.Sorted) :
    ∃ gathered : LabelCounts,
      spans.foldl (fun counts span => counts.add span.reason.label span.count) counts = gathered ∧
      spans.foldlM (fun counts span => counts.add? span.reason.label span.count) counts =
        some gathered ∧ (∀ count ∈ gathered, 0 < count.2) ∧ gathered.Sorted := by
  induction spans generalizing counts with
  | nil => exact ⟨counts, rfl, rfl, hpos, hsorted⟩
  | cons span rest ih =>
    simp only [List.flatMap_cons, List.length_append] at hle
    have hspan : span.range.first ≤ span.range.last := hnonempty span List.mem_cons_self
    have hcount : span.count = span.range.slots.length :=
      SlotRange.count_eq_length hspan (by omega)
    -- A span has a slot, so the count that is added is positive.
    have hpositive : 0 < span.count := by
      rw [hcount, SlotRange.length_slots]
      omega
    have hfits : counts.total + span.count ≤ Word.max := by omega
    have htotal : (counts.add span.reason.label span.count).total = counts.total + span.count :=
      LabelCounts.total_add hfits
    rw [List.foldl_cons, List.foldlM_cons, LabelCounts.add?_eq hfits]
    exact ih (fun other hother => hnonempty other (List.mem_cons_of_mem _ hother)) (by omega)
      (LabelCounts.pos_of_mem_add hpositive hfits hpos) (hsorted.add _ _)

/-- **No sum leaves the words** as long as the slots can be counted in one; no count is zero, and
the labels are in order. -/
theorem Ordered.reasonCounts?_eq {ledger : Ledger} (h : ledger.Ordered)
    (hlength : ledger.slots.length ≤ Word.max) :
    ledger.reasonCounts? = some ledger.reasonCounts ∧
      (∀ count ∈ ledger.reasonCounts, 0 < count.2) ∧ ledger.reasonCounts.Sorted := by
  have hle : LabelCounts.total [] + ledger.slots.length ≤ Word.max := by
    rwa [LabelCounts.total_nil, Nat.zero_add]
  obtain ⟨gathered, hplain, hchecked, hpos, hsorted⟩ :=
    foldlM_add?_eq h.nonempty hle (by simp) LabelCounts.sorted_nil
  obtain rfl : ledger.reasonCounts = gathered := hplain
  exact ⟨hchecked, hpos, hsorted⟩

/-! ### Slots that were entered -/

/-- The slots that calls cover, each once. -/
def recorded (calls : List Call) : List Nat := (calls.flatMap fun call => call.range.slots).dedup

/-- How many of the slots that calls cover have a last reason with the label. -/
def recordedWith (calls : List Call) (label : String) : Nat :=
  (recorded calls).countP fun slot => (lastReason? calls slot).map FailureReason.label = some label

variable {calls : List Call}

theorem mem_recorded {slot : Nat} : slot ∈ recorded calls ↔ (lastReason? calls slot).isSome := by
  simp [recorded, isSome_lastReason?]

theorem slots_perm_recorded (hproper : ∀ call ∈ calls, call.IsProper) :
    (ofCalls calls).slots.Perm (recorded calls) := by
  obtain ⟨hordered, hreason⟩ := ordered_ofCalls hproper
  have hmem : ∀ slot, slot ∈ (ofCalls calls).slots ↔ slot ∈ recorded calls := fun slot => by
    rw [mem_slots, hreason, mem_recorded]
  exact (List.perm_ext_iff_of_nodup hordered.nodup_slots (List.nodup_dedup _)).mpr hmem

theorem labelled_ofCalls (hproper : ∀ call ∈ calls, call.IsProper) (label : String) :
    (ofCalls calls).labelled label = recordedWith calls label := by
  obtain ⟨hordered, hreason⟩ := ordered_ofCalls hproper
  rw [recordedWith, ← (slots_perm_recorded hproper).countP_eq, ← map_fst_entries, List.countP_map,
    labelled]
  refine List.countP_congr fun entry hentry => ?_
  have hentry := hordered.mem_entries.mp hentry
  rw [hreason] at hentry
  simp [hentry]

/-- **Every slot that was entered is counted once, under the name of its last reason.**  Only the
ledger of all slots has more of them than a word can count, and it is held there. -/
theorem counts_are_exact (calls : List Call) (hproper : ∀ call ∈ calls, call.IsProper) :
    (ofCalls calls).size = min (recorded calls).length Word.max ∧
    ((recorded calls).length ≤ Word.max →
      (∀ label n, (label, n) ∈ (ofCalls calls).reasonCounts ↔
        0 < n ∧ n = recordedWith calls label) ∧
      (ofCalls calls).reasonCounts.Sorted ∧
      (ofCalls calls).reasonCounts.total = (ofCalls calls).size ∧
      (ofCalls calls).reasonCounts? = some (ofCalls calls).reasonCounts) := by
  have hordered := (ordered_ofCalls hproper).1
  -- The ledger's slots are a rearrangement of those recorded, each counted once.
  have hlength := (slots_perm_recorded hproper).length_eq
  refine ⟨by rw [hordered.size_eq_clamp, Word.clamp_eq_min, hlength], fun hword => ?_⟩
  rw [← hlength] at hword
  obtain ⟨hchecked, hpos, hsorted⟩ := hordered.reasonCounts?_eq hword
  refine ⟨fun label n => ?_, hsorted, ?_, hchecked⟩
  · rw [hsorted.mem_iff hpos, hordered.get_reasonCounts hword, labelled_ofCalls hproper]
  · rw [hordered.total_reasonCounts hword, hordered.size_eq hword]

/-- Two errors of the provider with different codes, one over the end of the other, and a slot in
the middle that is entered again: the spans are told apart by the reasons, and the counts are added
by their names. -/
theorem counts_are_exact_by_name :
    let calls : List Call :=
      [.recordRange ⟨1, 9223372036854775808⟩ (.providerError (-32007) "skipped"),
        .recordRange ⟨9223372036854775801, Word.max⟩ (.providerError (-32009) "pruned"),
        .record 5 .notFound]
    (∀ call ∈ calls, call.IsProper) ∧ (recorded calls).length = Word.max ∧
      (ofCalls calls).spanCount = 4 ∧ (ofCalls calls).size = Word.max ∧
      recordedWith calls "provider_error" = Word.max - 1 ∧ recordedWith calls "not_found" = 1 ∧
      (ofCalls calls).reasonCounts? =
        some [("not_found", 1), ("provider_error", Word.max - 1)] := by
  intro calls
  have hproper : ∀ call ∈ calls, call.IsProper := by decide
  -- Two provider errors of different codes keep their spans apart, and are counted under one label.
  have hspans : ofCalls calls = ⟨[⟨1, 4, .providerError (-32007) "skipped"⟩, ⟨5, 5, .notFound⟩,
      ⟨6, 9223372036854775800, .providerError (-32007) "skipped"⟩,
      ⟨9223372036854775801, Word.max, .providerError (-32009) "pruned"⟩]⟩ := by decide
  have hlength : (recorded calls).length = Word.max := by
    rw [← (slots_perm_recorded hproper).length_eq, hspans]
    simp [slots, Span.range, Word.max]
  obtain ⟨hsize, hword⟩ := counts_are_exact calls hproper
  obtain ⟨hcounts, -, -, hchecked⟩ := hword (Nat.le_of_eq hlength)
  have hreasons : (ofCalls calls).reasonCounts =
      [("not_found", 1), ("provider_error", Word.max - 1)] := by decide
  rw [hreasons] at hcounts hchecked
  refine ⟨hproper, hlength, by decide, by rw [hsize, hlength, Nat.min_self], ?_, ?_, hchecked⟩
  · exact ((hcounts "provider_error" (Word.max - 1)).mp (by decide)).2.symm
  · exact ((hcounts "not_found" 1).mp (by decide)).2.symm

end Ledger

end Backfill
