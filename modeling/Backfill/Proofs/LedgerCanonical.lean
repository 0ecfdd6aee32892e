import Backfill.Proofs.LedgerCalls
import Backfill.Proofs.LedgerMerged
import Mathlib.Data.List.Pairwise
import Mathlib.Data.List.Perm.Subperm

/-!
# The spans of a ledger are the runs of its map

A run of a map is a span that cannot be made longer: its slots have one reason, and neither of the
slots beside it has that reason.  Two runs with a slot in common are the same, so a map has only one
list of runs, and no list of spans that writes the map down is shorter: in such a list no two runs
begin in the same span.  The spans of a ledger are merged after every call, and that makes them the
runs of the map.  So they depend on the map alone, and not on the history that has led to it.

## Main definitions

* `Span.IsRun` — a run of a map.
* `WritesDown` — spans that write a map down.
* `Ledger.Call.singles` — a call, slot by slot.

## Main results

* `Ledger.Merged.mem_spans` — **merged spans are the runs of their map.**
* `Ledger.Merged.spanCount_le` — **no shorter list of spans writes the map down.**
* `Ledger.ofCalls_canonical` — what a history of calls leaves depends on its map alone.
-/

namespace Backfill

/-! ### Runs -/

/-- The slots of the span have its reason in the map, and neither of the slots beside it has. -/
structure Span.IsRun (reason? : Nat → Option FailureReason) (span : Span) : Prop where
  nonempty : span.first ≤ span.last
  inside : ∀ slot, span.first ≤ slot → slot ≤ span.last → reason? slot = some span.reason
  before : ∀ slot, slot + 1 = span.first → reason? slot ≠ some span.reason
  behind : reason? (span.last + 1) ≠ some span.reason

/-- Each of the spans gives its slots the reason that they have in the map, and every slot that has
a reason is in one of them. -/
structure WritesDown (reason? : Nat → Option FailureReason) (pieces : List Span) : Prop where
  sound : ∀ piece ∈ pieces, ∀ slot, piece.first ≤ slot → slot ≤ piece.last →
    reason? slot = some piece.reason
  covers : ∀ slot, (reason? slot).isSome → ∃ piece ∈ pieces, piece.first ≤ slot ∧ slot ≤ piece.last

namespace Span

variable {reason? : Nat → Option FailureReason} {left right : Span} {slot : Nat}

theorem IsRun.first_le (hleft : left.IsRun reason?) (hright : right.IsRun reason?)
    (hreason : left.reason = right.reason) (hlast : right.first ≤ left.last) :
    right.first ≤ left.first := by
  by_contra hlt
  -- the slot before the second run belongs to the first one
  have hslot : right.first - 1 + 1 = right.first := by omega
  apply hright.before _ hslot
  rw [← hreason]
  exact hleft.inside _ (by omega) (by omega)

theorem IsRun.le_last (hleft : left.IsRun reason?) (hright : right.IsRun reason?)
    (hreason : left.reason = right.reason) (hfirst : left.first ≤ right.last) :
    left.last ≤ right.last := by
  by_contra hlt
  apply hright.behind
  rw [← hreason]
  exact hleft.inside _ (by omega) (by omega)

/-- **Two runs with a slot in common are the same.** -/
theorem IsRun.eq_of_mem (hleft : left.IsRun reason?) (hright : right.IsRun reason?)
    (hin : left.first ≤ slot ∧ slot ≤ left.last) (hin' : right.first ≤ slot ∧ slot ≤ right.last) :
    left = right := by
  have hsame := (hleft.inside slot hin.1 hin.2).symm.trans (hright.inside slot hin'.1 hin'.2)
  have hreason : left.reason = right.reason := Option.some.inj hsame
  have hfirst : left.first = right.first :=
    Nat.le_antisymm (hright.first_le hleft hreason.symm (by omega))
      (hleft.first_le hright hreason (by omega))
  have hlast : left.last = right.last :=
    Nat.le_antisymm (hleft.le_last hright hreason (by omega))
      (hright.le_last hleft hreason.symm (by omega))
  cases left
  cases right
  simp_all

end Span

namespace Ledger

variable {ledger : Ledger} {span : Span} {slot : Nat} {reason : FailureReason}

theorem Ordered.exists_span (h : ledger.Ordered) (hreason : ledger.reasonOf? slot = some reason) :
    ∃ span ∈ ledger.spans, (span.first ≤ slot ∧ slot ≤ span.last) ∧ span.reason = reason := by
  have hsome : (reasonIn? ledger.spans slot).isSome := by
    rw [← reasonOf?_eq, hreason]
    rfl
  obtain ⟨span, hspan, hin⟩ := isSome_reasonIn?.mp hsome
  refine ⟨span, hspan, hin, ?_⟩
  exact Option.some.inj ((h.reasonOf?_of_mem hspan hin).symm.trans hreason)

/-- Of two merged spans, one comes before the other, and they do not touch with one reason. -/
theorem Merged.eq_or_apart (h : ledger.Merged) {left right : Span} (hleft : left ∈ ledger.spans)
    (hright : right ∈ ledger.spans) :
    left = right ∨ (left.last < right.first ∧ left.join? right = none) ∨
      (right.last < left.first ∧ right.join? left = none) := by
  obtain ⟨front, back, hsplit⟩ := List.append_of_mem hleft
  have hpairwise := h.pairwise.and h.apart
  rw [hsplit] at hpairwise hright
  obtain ⟨-, hback, hfront⟩ := List.pairwise_append.mp hpairwise
  rcases List.mem_append.mp hright with hbefore | hbehind
  · exact .inr (.inr (hfront right hbefore left List.mem_cons_self))
  · rcases List.mem_cons.mp hbehind with rfl | hmem
    · exact .inl rfl
    · exact .inr (.inl ((List.pairwise_cons.mp hback).1 right hmem))

/-- A merged span is a run of the map. -/
theorem Merged.isRun (h : ledger.Merged) (hspan : span ∈ ledger.spans) :
    span.IsRun ledger.reasonOf? where
  nonempty := h.nonempty span hspan
  inside slot hfirst hlast := h.reasonOf?_of_mem hspan ⟨hfirst, hlast⟩
  before slot hslot hreason := by
    have hnonempty := h.nonempty span hspan
    obtain ⟨other, hother, hin, hsame⟩ := h.exists_span hreason
    rcases h.eq_or_apart hspan hother with rfl | ⟨hlt, -⟩ | ⟨hlt, hapart⟩
    · omega
    · omega
    · -- the span with the slot before touches
      rw [join?_eq_none] at hapart
      exact hapart ⟨by omega, hsame⟩
  behind hreason := by
    obtain ⟨other, hother, hin, hsame⟩ := h.exists_span hreason
    rcases h.eq_or_apart hspan hother with rfl | ⟨hlt, hapart⟩ | ⟨hlt, -⟩
    · omega
    · rw [join?_eq_none] at hapart
      exact hapart ⟨by omega, hsame.symm⟩
    · have hnonempty := h.nonempty span hspan
      omega

/-- **Merged spans are the runs of their map.** -/
theorem Merged.mem_spans (h : ledger.Merged) :
    span ∈ ledger.spans ↔ span.IsRun ledger.reasonOf? := by
  refine ⟨h.isRun, fun hrun => ?_⟩
  have hfirst : span.first ≤ span.first ∧ span.first ≤ span.last := ⟨Nat.le_refl _, hrun.nonempty⟩
  obtain ⟨other, hother, hin, -⟩ := h.exists_span (hrun.inside span.first hfirst.1 hfirst.2)
  obtain rfl := hrun.eq_of_mem (h.isRun hother) hfirst hin
  exact hother

/-! ### No shorter list -/

theorem Ordered.writesDown (h : ledger.Ordered) : WritesDown ledger.reasonOf? ledger.spans where
  sound _ hpiece _ hfirst hlast := h.reasonOf?_of_mem hpiece ⟨hfirst, hlast⟩
  covers slot hsome := by
    rw [reasonOf?_eq] at hsome
    exact isSome_reasonIn?.mp hsome

/-- **No shorter list of spans writes the map down.** -/
theorem Merged.spanCount_le (h : ledger.Merged) {pieces : List Span}
    (hpieces : WritesDown ledger.reasonOf? pieces) : ledger.spanCount ≤ pieces.length := by
  have hbegins : ∀ span ∈ ledger.spans, ∃ piece ∈ pieces,
      piece.first ≤ span.first ∧ span.first ≤ piece.last := by
    intro span hspan
    refine hpieces.covers span.first ?_
    rw [h.reasonOf?_of_mem hspan ⟨Nat.le_refl _, h.nonempty span hspan⟩]
    rfl
  choose! piece hpiece hin using hbegins
  have hnodup : (ledger.spans.map piece).Nodup := by
    refine List.pairwise_map.mpr (h.pairwise.imp_of_mem ?_)
    intro left right hleft hright hlt hsame
    -- a piece in which two runs begin has the slot behind the first one
    have hinLeft := hin left hleft
    have hinRight := hin right hright
    have hrun := h.isRun hleft
    have hreason := hpieces.sound _ (hpiece left hleft) left.first hinLeft.1 hinLeft.2
    rw [hrun.inside left.first (Nat.le_refl _) hrun.nonempty] at hreason
    apply hrun.behind
    rw [hreason]
    refine hpieces.sound _ (hpiece left hleft) _ ?_ ?_
    · have hnonempty := hrun.nonempty
      omega
    · rw [hsame]
      omega
  have hsubset : ledger.spans.map piece ⊆ pieces := by
    intro other hother
    obtain ⟨span, hspan, rfl⟩ := List.mem_map.mp hother
    exact hpiece span hspan
  have hle := (List.subperm_of_subset hnodup hsubset).length_le
  rwa [List.length_map] at hle

/-! ### Histories with one map -/

/-- The call, slot by slot. -/
def Call.singles (call : Call) : List Call :=
  call.range.slots.map fun slot => .record slot call.reason

variable {calls others : List Call}

theorem merged_ofCalls (hproper : ∀ call ∈ calls, call.IsProper) : (ofCalls calls).Merged := by
  induction calls using List.reverseRecOn with
  | nil => exact merged_empty
  | append_singleton calls call ih =>
    rw [ofCalls_concat, Call.apply_eq]
    have hbefore : ∀ other ∈ calls, other.IsProper := fun other hother =>
      hproper other (List.mem_append_left _ hother)
    exact (ih hbefore).recordRange (hproper call (by simp)).1 call.reason

/-- **What proper calls leave depends on their map alone.** -/
theorem ofCalls_eq (hothers : ∀ call ∈ others, call.IsProper)
    (hproper : ∀ call ∈ calls, call.IsProper)
    (hsame : ∀ slot, lastReason? others slot = lastReason? calls slot) :
    ofCalls others = ofCalls calls := by
  refine (merged_ofCalls hothers).eq_of_reasonOf? (merged_ofCalls hproper) fun slot => ?_
  rw [(ordered_ofCalls hothers).2, (ordered_ofCalls hproper).2, hsame]

theorem lastReason?_eq_some (hcover : ∃ call : Call, call ∈ calls ∧ call.range.contains slot)
    (hsame : ∀ call ∈ calls, call.range.contains slot → call.reason = reason) :
    lastReason? calls slot = some reason := by
  have hsome : (lastReason? calls slot).isSome := by
    obtain ⟨call, hcall, hin⟩ := hcover
    exact isSome_lastReason?.mpr ⟨call, hcall, SlotRange.contains_iff.mp hin⟩
  obtain ⟨last, hlast⟩ := Option.isSome_iff_exists.mp hsome
  obtain ⟨call, hfind, rfl⟩ := Option.map_eq_some_iff.mp hlast
  have hcall := List.mem_reverse.mp (List.mem_of_find?_eq_some hfind)
  have hin : call.range.contains slot = true := by simpa using List.find?_some hfind
  rw [hlast, hsame call hcall hin]

theorem lastReason?_eq_none (hnone : ∀ call ∈ calls, call.range.contains slot = false) :
    lastReason? calls slot = none := by
  rw [← Option.not_isSome_iff_eq_none, isSome_lastReason?]
  rintro ⟨call, hcall, hin⟩
  rw [← SlotRange.contains_iff, hnone call hcall] at hin
  exact Bool.false_ne_true hin

/-- Calls without a slot in common can be made in any order. -/
theorem lastReason?_perm (hperm : others.Perm calls)
    (hdisjoint : calls.Pairwise fun left right : Call =>
      left.range.slots.Disjoint right.range.slots)
    (slot : Nat) : lastReason? others slot = lastReason? calls slot := by
  by_cases hcover : ∃ call : Call, call ∈ calls ∧ call.range.contains slot
  · obtain ⟨call, hcall, hin⟩ := hcover
    have hsymm : Std.Symm fun left right : Call => left.range.slots.Disjoint right.range.slots :=
      ⟨fun _ _ hdisjoint _ hleft hright => hdisjoint hright hleft⟩
    have hsame : ∀ other ∈ calls, other.range.contains slot → other.reason = call.reason := by
      intro other hother hinOther
      by_cases hne : other = call
      · rw [hne]
      · -- two calls would be for the slot
        rw [SlotRange.contains_iff, ← SlotRange.mem_slots] at hin hinOther
        exact absurd hin (hdisjoint.forall hother hcall hne hinOther)
    rw [lastReason?_eq_some ⟨call, hcall, hin⟩ hsame,
      lastReason?_eq_some ⟨call, hperm.mem_iff.mpr hcall, hin⟩ fun other hother =>
        hsame other (hperm.mem_iff.mp hother)]
  · have hnone : ∀ call ∈ calls, call.range.contains slot = false := fun call hcall =>
      Bool.eq_false_iff.mpr fun hin => hcover ⟨call, hcall, hin⟩
    rw [lastReason?_eq_none hnone, lastReason?_eq_none fun call hcall =>
      hnone call (hperm.mem_iff.mp hcall)]

theorem lastReason?_append (calls more : List Call) (slot : Nat) :
    lastReason? (calls ++ more) slot = (lastReason? more slot).or (lastReason? calls slot) := by
  simp only [lastReason?, List.reverse_append, List.find?_append, Option.map_or]

/-- A call gives its reason to its slots, also slot by slot. -/
theorem lastReason?_singles (call : Call) (slot : Nat) :
    lastReason? call.singles slot =
      if call.range.contains slot then some call.reason else none := by
  -- Every call of the list covers one slot of the range, and all have the same reason.
  have hsingle : ∀ other ∈ call.singles, other.reason = call.reason ∧
      (other.range.contains slot = true → call.range.contains slot = true) := by
    intro other hother
    obtain ⟨single, hsingle, rfl⟩ := List.mem_map.mp hother
    refine ⟨rfl, fun hin => ?_⟩
    have heq := SlotRange.contains_iff.mp hin
    simp only [Call.range, SlotRange.single] at heq
    obtain rfl : single = slot := by omega
    exact SlotRange.contains_iff.mpr (SlotRange.mem_slots.mp hsingle)
  split
  · next hin =>
    refine lastReason?_eq_some ⟨.record slot call.reason, ?_, ?_⟩ fun other hother _ =>
      (hsingle other hother).1
    · exact List.mem_map.mpr ⟨slot, SlotRange.mem_slots.mpr (SlotRange.contains_iff.mp hin), rfl⟩
    · exact SlotRange.contains_iff.mpr ⟨Nat.le_refl _, Nat.le_refl _⟩
  · next hout =>
    refine lastReason?_eq_none fun other hother => Bool.eq_false_iff.mpr fun hin => ?_
    exact hout ((hsingle other hother).2 hin)

/-- **Slot by slot, calls give the same reasons.** -/
theorem lastReason?_flatMap_singles (calls : List Call) (slot : Nat) :
    lastReason? (calls.flatMap Call.singles) slot = lastReason? calls slot := by
  induction calls using List.reverseRecOn with
  | nil => rfl
  | append_singleton calls call ih =>
    rw [List.flatMap_append, List.flatMap_singleton, lastReason?_append, lastReason?_singles,
      lastReason?_concat, ih]
    split <;> rfl

theorem isProper_singles (hproper : ∀ call ∈ calls, call.IsProper) :
    ∀ single ∈ calls.flatMap Call.singles, single.IsProper := by
  intro single hsingle
  obtain ⟨call, hcall, hmem⟩ := List.mem_flatMap.mp hsingle
  obtain ⟨slot, hslot, rfl⟩ := List.mem_map.mp hmem
  have hle := (SlotRange.mem_slots.mp hslot).2
  exact ⟨Nat.le_refl _, Nat.le_trans hle (hproper call hcall).2⟩

/-- **The spans of a ledger are canonical.**  Whatever proper calls have been made:

* The spans are in ascending order, and two of them that touch have different reasons; so the spans
  are just the runs of the map that gives every slot the reason of its last call.
* Another history with the same map leaves the same spans, and so the same ranges, counts and number
  of spans.  Such histories are the same calls in another order, if none of them is for a slot of
  another one, and the same calls slot by slot.
* The spans write the map down, and no shorter list of spans with one reason each does so. -/
theorem ofCalls_canonical (calls : List Call) (hproper : ∀ call ∈ calls, call.IsProper) :
    ((ofCalls calls).spans.Pairwise fun left right => left.last < right.first ∧
        (left.last + 1 = right.first → left.reason ≠ right.reason)) ∧
      (∀ span, span ∈ (ofCalls calls).spans ↔ span.IsRun (lastReason? calls)) ∧
      (∀ others, (∀ call ∈ others, call.IsProper) →
        (∀ slot, lastReason? others slot = lastReason? calls slot) →
          (ofCalls others).spans = (ofCalls calls).spans ∧
            (ofCalls others).ranges = (ofCalls calls).ranges ∧
            (ofCalls others).reasonCounts = (ofCalls calls).reasonCounts ∧
            (ofCalls others).spanCount = (ofCalls calls).spanCount) ∧
      (∀ others, others.Perm calls →
        (calls.Pairwise fun left right : Call =>
          left.range.slots.Disjoint right.range.slots) →
          ofCalls others = ofCalls calls) ∧
      ofCalls (calls.flatMap Call.singles) = ofCalls calls ∧
      WritesDown (lastReason? calls) (ofCalls calls).spans ∧
      ∀ pieces, WritesDown (lastReason? calls) pieces →
        (ofCalls calls).spanCount ≤ pieces.length := by
  -- Merged ledgers with the same reasons are the same list, and that settles each part.
  have hmerged := merged_ofCalls hproper
  have hreason : (ofCalls calls).reasonOf? = lastReason? calls :=
    funext (ordered_ofCalls hproper).2
  refine ⟨?_, fun span => ?_, fun others hothers hsame => ?_, fun others hperm hdisjoint => ?_, ?_,
    ?_, fun pieces hpieces => ?_⟩
  · refine (hmerged.pairwise.and hmerged.apart).imp ?_
    rintro left right ⟨hlt, hapart⟩
    rw [join?_eq_none] at hapart
    exact ⟨hlt, fun htouch hsame => hapart ⟨htouch, hsame⟩⟩
  · rw [hmerged.mem_spans, hreason]
  · rw [ofCalls_eq hothers hproper hsame]
    exact ⟨rfl, rfl, rfl, rfl⟩
  · refine ofCalls_eq (fun call hcall => ?_) hproper (lastReason?_perm hperm hdisjoint)
    exact hproper call (hperm.mem_iff.mp hcall)
  · exact ofCalls_eq (isProper_singles hproper) hproper (lastReason?_flatMap_singles calls)
  · rw [← hreason]
    exact hmerged.writesDown
  · rw [← hreason] at hpieces
    exact hmerged.spanCount_le hpieces

/-- Ranges over one another, one of which cuts another one in two, and a slot that closes the gap
between two spans with one reason.  Slot by slot and as two spans with another history, the map is
the same. -/
theorem ofCalls_canonical_closed_gap :
    let calls : List Call :=
      [.recordRange ⟨10, 19⟩ .cancelled, .recordRange ⟨12, 13⟩ .noResponse,
        .recordRange ⟨5, 8⟩ .cancelled, .record 9 .cancelled]
    let others : List Call :=
      [.record 12 .noResponse, .recordRange ⟨14, 19⟩ .cancelled, .record 13 .noResponse,
        .recordRange ⟨5, 11⟩ .cancelled]
    let spans : List Span := [⟨5, 11, .cancelled⟩, ⟨12, 13, .noResponse⟩, ⟨14, 19, .cancelled⟩]
    (∀ call ∈ calls, call.IsProper) ∧ (ofCalls calls).spans = spans ∧
      (∀ span, span ∈ spans ↔ span.IsRun (lastReason? calls)) ∧
      ofCalls (calls.flatMap Call.singles) = ofCalls calls ∧
      (ofCalls others).spans = spans ∧
      ∀ pieces, WritesDown (lastReason? calls) pieces → 3 ≤ pieces.length := by
  intro calls others spans
  have hproper : ∀ call ∈ calls, call.IsProper := by decide
  have hspans : (ofCalls calls).spans = spans := by decide
  -- The slot recorded last closes the gap between two spans with the reason of both.
  obtain ⟨-, hruns, -, -, hsingles, -, hshortest⟩ := ofCalls_canonical calls hproper
  rw [hspans] at hruns
  exact ⟨hproper, hspans, hruns, hsingles, by decide, hshortest⟩

end Ledger

end Backfill
