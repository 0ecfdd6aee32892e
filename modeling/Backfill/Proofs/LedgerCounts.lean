import Backfill.Proofs.LedgerMap
import Backfill.Proofs.PlanPieces
import Mathlib.Algebra.BigOperators.Group.List.Basic
import Mathlib.Data.Nat.Cast.Basic

/-!
# How many slots failed for which reason

The counts by reason are gathered span by span, and the size of a ledger is gathered span by span
as well, but each in its own way: counts go round at the upper end, and the size is held there.  As
long as the slots of a ledger can be counted in a word, neither happens, and the counts add up to
the size.  A label is looked up in a list of counts that is kept sorted, so that it is found where
it was raised.

## Main definitions

* `LabelCounts.total` — all counts together.
* `LabelCounts.Sorted` — the labels are in order, each listed once.
* `Ledger.labelled` — how many slots of a ledger have a label.

## Main results

* `LabelCounts.total_add` — raising a count raises the total.
* `LabelCounts.Sorted.get_add` — raising a count raises that count alone.
* `Ledger.Ordered.total_reasonCounts` — **the counts by reason add up to the number of slots.**
* `Ledger.Ordered.get_reasonCounts` — **each of them is the number of slots with its label.**
* `Ledger.exists_label_of_mem` — every count is about a reason.
-/

namespace Backfill

namespace LabelCounts

/-- All counts together. -/
def total : LabelCounts → Nat
  | [] => 0
  | count :: rest => count.2 + total rest

@[simp] theorem total_nil : total [] = 0 := rfl

@[simp] theorem total_cons (count : String × Nat) (rest : LabelCounts) :
    total (count :: rest) = count.2 + total rest := rfl

theorem total_eq_sum (counts : LabelCounts) : counts.total = (counts.map Prod.snd).sum := by
  induction counts with
  | nil => rfl
  | cons count rest ih => rw [total_cons, ih, List.map_cons, List.sum_cons]

/-- Raising a count raises the total, as long as the total is a word. -/
theorem total_add {label : String} {n : Nat} {counts : LabelCounts}
    (h : counts.total + n ≤ Word.max) : (counts.add label n).total = counts.total + n := by
  induction counts with
  | nil =>
    rw [total_nil, Nat.zero_add] at h
    simp [add, Word.wrap_of_le h]
  | cons count rest ih =>
    obtain ⟨l, c⟩ := count
    rw [total_cons] at h ⊢
    dsimp only at h ⊢
    unfold add
    split
    · -- A new label comes before the first one, meets it, or goes further back.
      rw [total_cons, total_cons, Word.wrap_of_le (by omega)]
      omega
    · split
      · rw [total_cons, Word.wrap_of_le (by omega)]
        omega
      · rw [total_cons, ih (by omega)]
        omega

/-- Raising a count lists no other label. -/
theorem mem_add {label : String} {n : Nat} {counts : LabelCounts} {count : String × Nat}
    (h : count ∈ counts.add label n) : count.1 = label ∨ count.1 ∈ counts.map (·.1) := by
  induction counts with
  | nil => simp_all [add]
  | cons first rest ih =>
    obtain ⟨l, c⟩ := first
    unfold add at h
    rw [List.map_cons, List.mem_cons]
    split at h
    · -- Placed before the first label, at the label itself, or behind it.
      rcases List.mem_cons.mp h with rfl | hrest
      · exact .inl rfl
      · exact .inr (by simpa using List.mem_map_of_mem (f := Prod.fst) hrest)
    · split at h
      · rcases List.mem_cons.mp h with rfl | hrest
        · exact .inr (.inl rfl)
        · exact .inr (.inr (List.mem_map_of_mem hrest))
      · rcases List.mem_cons.mp h with rfl | hrest
        · exact .inr (.inl rfl)
        · exact (ih hrest).imp_right .inr

/-! ### Looking a label up -/

/-- The labels are in ascending order, each listed once. -/
def Sorted (counts : LabelCounts) : Prop := counts.Pairwise fun first second => first.1 < second.1

theorem sorted_nil : Sorted [] := .nil

/-- Raising a count keeps the labels in order. -/
theorem Sorted.add {counts : LabelCounts} (h : counts.Sorted) (label : String) (n : Nat) :
    (counts.add label n).Sorted := by
  induction counts with
  | nil => exact List.pairwise_singleton _ _
  | cons count rest ih =>
    obtain ⟨l, c⟩ := count
    obtain ⟨hhead, hrest⟩ := List.pairwise_cons.mp h
    unfold LabelCounts.add
    split
    · next hlt =>
      refine List.pairwise_cons.mpr ⟨fun other hother => ?_, h⟩
      rcases List.mem_cons.mp hother with rfl | hbehind
      · exact hlt
      · exact String.lt_trans hlt (hhead other hbehind)
    · next hge =>
      split
      · exact List.pairwise_cons.mpr ⟨hhead, hrest⟩
      · next hne =>
        -- the label belongs behind the first one
        have hgt : l < label := by
          by_contra hle
          exact hne (String.le_antisymm (String.not_lt.mp hle) (String.not_lt.mp hge))
        refine List.pairwise_cons.mpr ⟨fun other hother => ?_, ih hrest⟩
        rcases mem_add hother with heq | hlisted
        · exact heq ▸ hgt
        · obtain ⟨listed, hmem, heq⟩ := List.mem_map.mp hlisted
          exact heq ▸ hhead listed hmem

theorem get_eq_zero {counts : LabelCounts} {label : String}
    (h : ∀ count ∈ counts, label < count.1) : get counts label = 0 := by
  have hnone : counts.lookup label = none := by
    rw [List.lookup_eq_none_iff]
    intro count hcount
    have hne : label ≠ count.1 := fun heq => String.lt_irrefl _ (heq ▸ h count hcount)
    simpa using hne
  rw [get, hnone]
  rfl

/-- **Raising a count raises that count**, and no other one. -/
theorem Sorted.get_add {counts : LabelCounts} (h : counts.Sorted) (label : String) (n : Nat)
    (other : String) : get (counts.add label n) other =
      if label = other then Word.wrap (get counts other + n) else get counts other := by
  by_cases hother : label = other
  · subst hother
    rw [if_pos rfl]
    induction counts with
    | nil => simp [LabelCounts.add, get]
    | cons count rest ih =>
      obtain ⟨l, c⟩ := count
      obtain ⟨hhead, hrest⟩ := List.pairwise_cons.mp h
      unfold LabelCounts.add
      split
      · next hlt =>
        -- The label stands before all that are counted, so it has no count yet.
        have hzero : get ((l, c) :: rest) label = 0 := get_eq_zero fun count hcount => by
          rcases List.mem_cons.mp hcount with rfl | hbehind
          · exact hlt
          · exact String.lt_trans hlt (hhead count hbehind)
        rw [hzero, Nat.zero_add]
        simp [get]
      · split
        · next heq =>
          subst heq
          simp [get]
        · next hne =>
          have hne' : (label == l) = false := by simpa using hne
          have hbehind := ih hrest
          simp only [get, List.lookup_cons, hne'] at hbehind ⊢
          exact hbehind
  · rw [if_neg hother]
    exact get_add_of_ne (Ne.symm hother) n counts

end LabelCounts

namespace Ledger

/-- Counts gathered span by span add up to the number of slots, as long as it is a word. -/
theorem total_foldl_add {spans : List Span} {counts : LabelCounts}
    (hnonempty : ∀ span ∈ spans, span.first ≤ span.last)
    (hle : counts.total + (spans.flatMap fun span => span.range.slots).length ≤ Word.max) :
    LabelCounts.total (spans.foldl (fun counts span => counts.add span.reason.label span.count)
      counts) = counts.total + (spans.flatMap fun span => span.range.slots).length := by
  induction spans generalizing counts with
  | nil => rfl
  | cons span rest ih =>
    simp only [List.flatMap_cons, List.length_append] at hle ⊢
    have hspan : span.range.first ≤ span.range.last := hnonempty span List.mem_cons_self
    -- A span's count is exact as long as the slots counted so far fit into a word.
    have hcount : span.count = span.range.slots.length :=
      SlotRange.count_eq_length hspan (by omega)
    have htotal : (counts.add span.reason.label span.count).total =
        counts.total + span.range.slots.length := by
      rw [LabelCounts.total_add (by omega), hcount]
    rw [List.foldl_cons, ih (fun other hother => hnonempty other (List.mem_cons_of_mem _ hother))
      (by omega), htotal]
    omega

/-- **The counts by reason add up to the number of slots**, as long as it is a word. -/
theorem Ordered.total_reasonCounts {ledger : Ledger} (h : ledger.Ordered)
    (hlength : ledger.slots.length ≤ Word.max) :
    ledger.reasonCounts.total = ledger.slots.length := by
  have htotal := @total_foldl_add ledger.spans [] h.nonempty (by simpa [slots] using hlength)
  simpa [reasonCounts, slots] using htotal

/-- How many slots of a ledger have failed for a reason with the label. -/
def labelled (ledger : Ledger) (label : String) : Nat :=
  ledger.entries.countP fun entry => entry.2.label = label

/-- What is gathered span by span for a label is the number of slots with that label. -/
theorem get_foldl_add {spans : List Span} {counts : LabelCounts} {label : String}
    (hsorted : counts.Sorted) (hnonempty : ∀ span ∈ spans, span.first ≤ span.last)
    (hle : counts.get label + labelled ⟨spans⟩ label ≤ Word.max) :
    LabelCounts.get (spans.foldl (fun counts span => counts.add span.reason.label span.count)
      counts) label = counts.get label + labelled ⟨spans⟩ label := by
  induction spans generalizing counts with
  | nil => rfl
  | cons span rest ih =>
    have hspan : span.range.first ≤ span.range.last := hnonempty span List.mem_cons_self
    -- The slots of the first span carry the label all together or not at all.
    have hsplit : labelled ⟨span :: rest⟩ label =
        (if span.reason.label = label then span.range.slots.length else 0) +
          labelled ⟨rest⟩ label := by
      simp only [labelled, entries, List.flatMap_cons, List.countP_append, List.countP_map]
      by_cases hlabel : span.reason.label = label <;> simp [Function.comp_def, hlabel]
    have hadd : (counts.add span.reason.label span.count).get label =
        counts.get label +
          if span.reason.label = label then span.range.slots.length else 0 := by
      rw [hsorted.get_add]
      split
      · next hlabel =>
        rw [hsplit, if_pos hlabel] at hle
        have hcount : span.count = span.range.slots.length :=
          SlotRange.count_eq_length hspan (by omega)
        rw [hcount, Word.wrap_of_le (by omega)]
      · rfl
    rw [hsplit] at hle ⊢
    rw [List.foldl_cons, ih (hsorted.add _ _)
      (fun other hother => hnonempty other (List.mem_cons_of_mem _ hother)) (by omega), hadd]
    omega

theorem labelled_le (ledger : Ledger) (label : String) :
    ledger.labelled label ≤ ledger.slots.length := by
  rw [← map_fst_entries, List.length_map]
  exact List.countP_le_length

/-- **The count by a label is the number of slots with that label**, as long as the slots can be
counted in a word. -/
theorem Ordered.get_reasonCounts {ledger : Ledger} (h : ledger.Ordered)
    (hlength : ledger.slots.length ≤ Word.max) (label : String) :
    ledger.reasonCounts.get label = ledger.labelled label := by
  have hzero : LabelCounts.get [] label = 0 := rfl
  have hle := Nat.le_trans (ledger.labelled_le label) hlength
  rw [← Nat.zero_add (ledger.labelled label), ← hzero] at hle
  have hget := get_foldl_add .nil h.nonempty hle
  rwa [hzero, Nat.zero_add] at hget

/-- Every count is about a reason. -/
theorem exists_label_of_mem {ledger : Ledger} {count : String × Nat}
    (h : count ∈ ledger.reasonCounts) : ∃ reason : FailureReason, count.1 = reason.label := by
  -- The counts that have been gathered before the first span are arbitrary.
  suffices hall : ∀ {spans : List Span} {counts : LabelCounts},
      (∀ count ∈ counts, ∃ reason : FailureReason, count.1 = reason.label) →
      ∀ count ∈ spans.foldl (fun counts span => counts.add span.reason.label span.count) counts,
        ∃ reason : FailureReason, count.1 = reason.label by
    exact hall (by simp) count h
  intro spans
  induction spans with
  | nil => exact id
  | cons span rest ih =>
    intro counts hcounts
    refine ih fun count hcount => ?_
    rcases LabelCounts.mem_add hcount with hnew | hold
    · exact ⟨span.reason, hnew⟩
    · obtain ⟨other, hother, heq⟩ := List.mem_map.mp hold
      exact heq ▸ hcounts other hother

end Ledger

end Backfill
