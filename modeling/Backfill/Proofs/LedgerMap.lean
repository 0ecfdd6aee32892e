import Backfill.Ledger
import Mathlib.Data.List.Nodup

/-!
# The ledger as a map

A ledger stands for a partial map from slots to reasons, the one that `Ledger.reasonOf?` looks
up.  Its spans never overlap and are kept in ascending order, so that a slot is found in at most
one of them; under this invariant entering a range overwrites the map on the range and nowhere
else, and the lists of slots and of entries are the map written out.

Entering a range cuts the spans at its two ends, puts the new span between the parts that are
left and joins it to its neighbours.  A join replaces two neighbours by one span, so it is
followed as a step of its own, `JoinedOnce`.

## Main definitions

* `Ledger.Ordered` — the invariant.
* `Ledger.reasonIn?` — the reason that a list of spans gives for a slot.

## Main results

* `Ledger.Ordered.recordRange` — entering a range keeps the invariant.
* `Ledger.reasonOf?_recordRange` — **entering a range overwrites the map on the range.**
* `Ledger.Ordered.pairwise_slots`, `Ledger.mem_slots`, `Ledger.Ordered.mem_entries` — what the
  lists hold.
* `Ledger.Ordered.size_eq_clamp` — the size is the number of slots, held at the largest word.
-/

namespace Backfill

namespace Ledger

/-- Spans in ascending order without a slot in common, none of them empty. -/
structure Ordered (ledger : Ledger) : Prop where
  pairwise : ledger.spans.Pairwise fun left right => left.last < right.first
  nonempty : ∀ span ∈ ledger.spans, span.first ≤ span.last

theorem ordered_empty : Ordered empty := ⟨.nil, by simp [empty]⟩

/-! ### Looking a slot up -/

/-- The reason that the first span with the slot gives. -/
def reasonIn? (spans : List Span) (slot : Nat) : Option FailureReason :=
  (spans.find? fun span => span.range.contains slot).map (·.reason)

theorem reasonOf?_eq (ledger : Ledger) (slot : Nat) :
    ledger.reasonOf? slot = reasonIn? ledger.spans slot := rfl

@[simp] theorem reasonIn?_nil (slot : Nat) : reasonIn? [] slot = none := rfl

@[simp] theorem reasonIn?_cons (span : Span) (spans : List Span) (slot : Nat) :
    reasonIn? (span :: spans) slot =
      if span.first ≤ slot ∧ slot ≤ span.last then some span.reason else reasonIn? spans slot := by
  by_cases h : span.first ≤ slot ∧ slot ≤ span.last
  · have hin : span.range.contains slot = true := SlotRange.contains_iff.mpr h
    simp [reasonIn?, h, hin]
  · have hout : span.range.contains slot = false :=
      Bool.eq_false_iff.mpr fun hin => h (SlotRange.contains_iff.mp hin)
    simp [reasonIn?, h, hout]

@[simp] theorem reasonIn?_append (front back : List Span) (slot : Nat) :
    reasonIn? (front ++ back) slot = (reasonIn? front slot).or (reasonIn? back slot) := by
  simp only [reasonIn?, List.find?_append, Option.map_or]

/-! ### Cutting -/

/-- The parts below a slot give the same reasons below it, and none from it on. -/
theorem reasonIn?_below (spans : List Span) (bound slot : Nat) :
    reasonIn? (spans.filterMap (Span.below bound)) slot =
      if slot < bound then reasonIn? spans slot else none := by
  induction spans with
  | nil => simp
  | cons span rest ih =>
    -- A span that starts at the bound or behind it is dropped, any other one is cut short.
    by_cases hcut : span.first < bound
    · have hpart : Span.below bound span =
          some { span with last := min span.last (bound - 1) } := by
        simp [Span.below, hcut]
      rw [List.filterMap_cons_some hpart, reasonIn?_cons, ih, reasonIn?_cons]
      grind
    · have hnone : Span.below bound span = none := by simp [Span.below, hcut]
      rw [List.filterMap_cons_none hnone, ih, reasonIn?_cons]
      grind

/-- The parts above a slot give the same reasons above it, and none up to it. -/
theorem reasonIn?_above (spans : List Span) (bound slot : Nat) :
    reasonIn? (spans.filterMap (Span.above bound)) slot =
      if bound < slot then reasonIn? spans slot else none := by
  induction spans with
  | nil => simp
  | cons span rest ih =>
    -- A span that ends at the bound or before it is dropped, any other one loses its front.
    by_cases hcut : bound < span.last
    · have hpart : Span.above bound span =
          some { span with first := max span.first (bound + 1) } := by
        simp [Span.above, hcut]
      rw [List.filterMap_cons_some hpart, reasonIn?_cons, ih, reasonIn?_cons]
      grind
    · have hnone : Span.above bound span = none := by simp [Span.above, hcut]
      rw [List.filterMap_cons_none hnone, ih, reasonIn?_cons]
      grind

theorem below_eq_some {bound : Nat} {span part : Span} (h : Span.below bound span = some part) :
    part.first = span.first ∧ part.last = min span.last (bound - 1) ∧
      part.reason = span.reason ∧ span.first < bound := by
  unfold Span.below at h
  split at h
  · next hlt => obtain rfl := Option.some.inj h; exact ⟨rfl, rfl, rfl, hlt⟩
  · simp at h

theorem above_eq_some {bound : Nat} {span part : Span} (h : Span.above bound span = some part) :
    part.first = max span.first (bound + 1) ∧ part.last = span.last ∧
      part.reason = span.reason ∧ bound < span.last := by
  unfold Span.above at h
  split at h
  · next hlt => obtain rfl := Option.some.inj h; exact ⟨rfl, rfl, rfl, hlt⟩
  · simp at h

/-- The parts below a slot are in order and end before the slot. -/
theorem Ordered.below {ledger : Ledger} (h : ledger.Ordered) (bound : Nat) :
    Ordered ⟨ledger.spans.filterMap (Span.below bound)⟩ ∧
      ∀ part ∈ ledger.spans.filterMap (Span.below bound), part.last < bound := by
  refine ⟨⟨?_, ?_⟩, ?_⟩
  · refine h.pairwise.filterMap _ ?_
    -- Cutting never moves the first slot of a span, and never lets it end later.
    intro left right hlt left' hleft right' hright
    have hl := below_eq_some hleft
    have hr := below_eq_some hright
    omega
  · intro part hpart
    obtain ⟨span, hspan, hcut⟩ := List.mem_filterMap.mp hpart
    have := below_eq_some hcut
    have := h.nonempty span hspan
    omega
  · intro part hpart
    obtain ⟨span, hspan, hcut⟩ := List.mem_filterMap.mp hpart
    have := below_eq_some hcut
    omega

/-- The parts above a slot are in order and begin after the slot. -/
theorem Ordered.above {ledger : Ledger} (h : ledger.Ordered) (bound : Nat) :
    Ordered ⟨ledger.spans.filterMap (Span.above bound)⟩ ∧
      ∀ part ∈ ledger.spans.filterMap (Span.above bound), bound < part.first := by
  refine ⟨⟨?_, ?_⟩, ?_⟩
  · refine h.pairwise.filterMap _ ?_
    -- Cutting never moves the last slot of a span, and never lets it begin earlier.
    intro left right hlt left' hleft right' hright
    have hl := above_eq_some hleft
    have hr := above_eq_some hright
    omega
  · intro part hpart
    obtain ⟨span, hspan, hcut⟩ := List.mem_filterMap.mp hpart
    have := above_eq_some hcut
    have := h.nonempty span hspan
    omega
  · intro part hpart
    obtain ⟨span, hspan, hcut⟩ := List.mem_filterMap.mp hpart
    have := above_eq_some hcut
    omega

/-- The new span between the parts that are left of the old ones, before anything is joined. -/
def overlaid (ledger : Ledger) (range : SlotRange) (reason : FailureReason) : Ledger :=
  ⟨ledger.spans.filterMap (Span.below range.first) ++
    ⟨range.first, range.last, reason⟩ :: ledger.spans.filterMap (Span.above range.last)⟩

theorem Ordered.overlaid {ledger : Ledger} (h : ledger.Ordered) {range : SlotRange}
    (hrange : range.first ≤ range.last) (reason : FailureReason) :
    (ledger.overlaid range reason).Ordered := by
  obtain ⟨hbelow, hends⟩ := h.below range.first
  obtain ⟨habove, hbegins⟩ := h.above range.last
  refine ⟨?_, ?_⟩
  · -- what is left below ends before the range, and what is left above begins after it
    refine List.pairwise_append.mpr ⟨hbelow.pairwise, ?_, ?_⟩
    · exact List.pairwise_cons.mpr ⟨fun part hpart => hbegins part hpart, habove.pairwise⟩
    · intro left hleft right hright
      have hlt := hends left hleft
      rcases List.mem_cons.mp hright with rfl | hright
      · exact hlt
      · have := hbegins right hright
        omega
  · intro span hspan
    rcases List.mem_append.mp hspan with hspan | hspan
    · exact hbelow.nonempty span hspan
    · rcases List.mem_cons.mp hspan with rfl | hspan
      · exact hrange
      · exact habove.nonempty span hspan

theorem reasonOf?_overlaid (ledger : Ledger) {range : SlotRange}
    (hrange : range.first ≤ range.last) (reason : FailureReason) (slot : Nat) :
    (ledger.overlaid range reason).reasonOf? slot =
      if range.contains slot then some reason else ledger.reasonOf? slot := by
  rw [reasonOf?_eq, reasonOf?_eq, overlaid, reasonIn?_append, reasonIn?_cons, reasonIn?_below,
    reasonIn?_above]
  simp only [SlotRange.contains_iff]
  -- a slot is below the range, above it or in it
  by_cases hbelow : slot < range.first
  · have hout : ¬(range.first ≤ slot ∧ slot ≤ range.last) := by omega
    have hnot : ¬range.last < slot := by omega
    simp [hbelow, hout, hnot]
  · by_cases habove : range.last < slot
    · have hout : ¬(range.first ≤ slot ∧ slot ≤ range.last) := by omega
      simp [hbelow, habove, hout]
    · have hin : range.first ≤ slot ∧ slot ≤ range.last := by omega
      simp [hbelow, hin]

/-! ### Joining -/

/-- The second list is the first one, or has two neighbours of it joined. -/
inductive JoinedOnce : List Span → List Span → Prop
  | refl (spans : List Span) : JoinedOnce spans spans
  | join (front : List Span) {left right joined : Span} (back : List Span)
      (h : left.join? right = some joined) :
      JoinedOnce (front ++ left :: right :: back) (front ++ joined :: back)

theorem join?_eq_some {left right joined : Span} (h : left.join? right = some joined) :
    joined = ⟨left.first, right.last, left.reason⟩ ∧ left.last + 1 = right.first ∧
      left.reason = right.reason := by
  unfold Span.join? at h
  split at h
  · next hjoin => exact ⟨(Option.some.inj h).symm, hjoin⟩
  · simp at h

theorem joinRight_joinedOnce (span : Span) (spans : List Span) :
    JoinedOnce (span :: spans) (joinRight span spans) := by
  cases spans with
  | nil => exact .refl _
  | cons next rest =>
    rw [joinRight]
    cases h : span.join? next with
    | none => exact .refl _
    | some joined => exact .join [] rest h

theorem JoinedOnce.cons {spans joined : List Span} (h : JoinedOnce spans joined) (span : Span) :
    JoinedOnce (span :: spans) (span :: joined) := by
  cases h with
  | refl => exact .refl _
  | join front back h => exact .join (span :: front) back h

theorem JoinedOnce.append {spans joined : List Span} (h : JoinedOnce spans joined)
    (front : List Span) : JoinedOnce (front ++ spans) (front ++ joined) := by
  induction front with
  | nil => exact h
  | cons span rest ih => exact ih.cons span

theorem joinLeft_concat (front : List Span) (left : Span) (spans : List Span) :
    joinLeft (front ++ [left]) spans = front ++ joinRight left spans := by
  induction front with
  | nil => cases spans <;> rfl
  | cons span front ih =>
    rw [List.cons_append, List.cons_append, ← ih]
    cases front <;> rfl

theorem joinLeft_joinedOnce (below spans : List Span) :
    JoinedOnce (below ++ spans) (joinLeft below spans) := by
  induction below with
  | nil => cases spans <;> exact .refl _
  | cons left more ih =>
    cases more with
    | cons next more => exact ih.cons left
    | nil =>
      -- only the last of the spans in front can touch what follows
      cases spans with
      | nil => exact .refl _
      | cons next rest =>
        simp only [List.cons_append, List.nil_append, joinLeft]
        cases h : left.join? next with
        | none => exact .refl _
        | some joined => exact .join [] rest h

theorem JoinedOnce.ordered {spans joined : List Span} (h : JoinedOnce spans joined)
    (hspans : Ordered ⟨spans⟩) : Ordered ⟨joined⟩ := by
  cases h with
  | refl => exact hspans
  | @join front left right joined back h =>
    obtain ⟨rfl, htouch, -⟩ := join?_eq_some h
    have hleft := hspans.nonempty left (by simp)
    have hright := hspans.nonempty right (by simp)
    -- The joined span ends where the right one ended, which is all that the spans behind it ask.
    obtain ⟨hfront, hback, hacross⟩ := List.pairwise_append.mp hspans.pairwise
    simp only [List.pairwise_cons] at hback
    refine ⟨List.pairwise_append.mpr
      ⟨hfront, List.pairwise_cons.mpr ⟨hback.2.1, hback.2.2⟩, ?_⟩, ?_⟩
    · intro a ha b hb
      rcases List.mem_cons.mp hb with rfl | hb
      · exact hacross a ha left (by simp)
      · exact hacross a ha b (by simp [hb])
    · intro span hspan
      rcases List.mem_append.mp hspan with hspan | hspan
      · exact hspans.nonempty span (by simp [hspan])
      · rcases List.mem_cons.mp hspan with rfl | hspan
        · show left.first ≤ right.last
          omega
        · exact hspans.nonempty span (by simp [hspan])

theorem JoinedOnce.reasonIn?_eq {spans joined : List Span} (h : JoinedOnce spans joined)
    (hspans : Ordered ⟨spans⟩) (slot : Nat) : reasonIn? joined slot = reasonIn? spans slot := by
  cases h with
  | refl => rfl
  | @join front left right joined back h =>
    obtain ⟨rfl, htouch, hreason⟩ := join?_eq_some h
    have hleft := hspans.nonempty left (by simp)
    have hright := hspans.nonempty right (by simp)
    -- the joined span has the slots of both, and both have its reason
    simp only [reasonIn?_append, reasonIn?_cons]
    congr 1
    grind

/-! ### Entering a range -/

theorem recordRange_joinedOnce (ledger : Ledger) (range : SlotRange) (reason : FailureReason) :
    ∃ between, JoinedOnce (ledger.overlaid range reason).spans between ∧
      JoinedOnce between (ledger.recordRange range reason).spans :=
  -- first with the span above the range, then with the span below it
  ⟨_, (joinRight_joinedOnce _ _).append _, joinLeft_joinedOnce _ _⟩

/-- **Entering a range keeps the spans in order.** -/
theorem Ordered.recordRange {ledger : Ledger} (h : ledger.Ordered) {range : SlotRange}
    (hrange : range.first ≤ range.last) (reason : FailureReason) :
    (ledger.recordRange range reason).Ordered := by
  obtain ⟨between, hfirst, hsecond⟩ := recordRange_joinedOnce ledger range reason
  exact hsecond.ordered (hfirst.ordered (h.overlaid hrange reason))

/-- **Entering a range overwrites the map on the range**, and nowhere else. -/
theorem reasonOf?_recordRange {ledger : Ledger} (h : ledger.Ordered) {range : SlotRange}
    (hrange : range.first ≤ range.last) (reason : FailureReason) (slot : Nat) :
    (ledger.recordRange range reason).reasonOf? slot =
      if range.contains slot then some reason else ledger.reasonOf? slot := by
  obtain ⟨between, hfirst, hsecond⟩ := recordRange_joinedOnce ledger range reason
  have hover := h.overlaid hrange reason
  rw [← reasonOf?_overlaid ledger hrange reason, reasonOf?_eq, reasonOf?_eq,
    hsecond.reasonIn?_eq (hfirst.ordered hover), hfirst.reasonIn?_eq hover]

/-! ### The lists -/

theorem isSome_reasonIn? {spans : List Span} {slot : Nat} :
    (reasonIn? spans slot).isSome ↔ ∃ span ∈ spans, span.first ≤ slot ∧ slot ≤ span.last := by
  simp [reasonIn?, Span.range, List.find?_isSome]

/-- The listed slots are those that have a reason. -/
theorem mem_slots {ledger : Ledger} {slot : Nat} :
    slot ∈ ledger.slots ↔ (ledger.reasonOf? slot).isSome := by
  rw [reasonOf?_eq, isSome_reasonIn?]
  simp [slots, Span.range]

theorem not_mem_slots {ledger : Ledger} {slot : Nat} :
    slot ∉ ledger.slots ↔ ledger.reasonOf? slot = none := by
  rw [mem_slots, Bool.not_eq_true, Option.isSome_eq_false_iff, Option.isNone_iff_eq_none]

/-- **The slots are listed in ascending order**, each once. -/
theorem Ordered.pairwise_slots {ledger : Ledger} (h : ledger.Ordered) :
    ledger.slots.Pairwise (· < ·) := by
  refine List.pairwise_flatMap.mpr ⟨fun span _ => List.pairwise_lt_range', ?_⟩
  refine h.pairwise.imp ?_
  intro left right hlt a ha b hb
  simp only [SlotRange.mem_slots, Span.range] at ha hb
  omega

theorem Ordered.nodup_slots {ledger : Ledger} (h : ledger.Ordered) : ledger.slots.Nodup :=
  h.pairwise_slots.imp Nat.ne_of_lt

theorem map_fst_entries (ledger : Ledger) : ledger.entries.map Prod.fst = ledger.slots := by
  simp [entries, slots, List.map_flatMap, Function.comp_def]

/-- A span in order gives its reason to its slots: no span in front of it has them. -/
theorem Ordered.reasonOf?_of_mem {ledger : Ledger} (h : ledger.Ordered) {span : Span}
    (hspan : span ∈ ledger.spans) {slot : Nat} (hslot : span.first ≤ slot ∧ slot ≤ span.last) :
    ledger.reasonOf? slot = some span.reason := by
  obtain ⟨front, back, hsplit⟩ := List.append_of_mem hspan
  have hfront : reasonIn? front slot = none := by
    rw [← Option.not_isSome_iff_eq_none, isSome_reasonIn?]
    rintro ⟨other, hother, hin⟩
    have hpairwise := h.pairwise
    rw [hsplit] at hpairwise
    have := (List.pairwise_append.mp hpairwise).2.2 other hother span (by simp)
    omega
  rw [reasonOf?_eq, hsplit, reasonIn?_append, hfront, reasonIn?_cons, if_pos hslot]
  rfl

/-- **The entries are the map written out.** -/
theorem Ordered.mem_entries {ledger : Ledger} (h : ledger.Ordered) {slot : Nat}
    {reason : FailureReason} :
    (slot, reason) ∈ ledger.entries ↔ ledger.reasonOf? slot = some reason := by
  simp only [entries, List.mem_flatMap, List.mem_map, SlotRange.mem_slots, Span.range,
    Prod.mk.injEq]
  constructor
  · rintro ⟨span, hspan, _, hin, rfl, rfl⟩
    exact h.reasonOf?_of_mem hspan hin
  · intro hreason
    obtain ⟨span, hspan, hin⟩ := isSome_reasonIn?.mp
      (show (reasonIn? ledger.spans slot).isSome by rw [← reasonOf?_eq, hreason]; rfl)
    have hsame := h.reasonOf?_of_mem hspan hin
    exact ⟨span, hspan, slot, hin, rfl, Option.some.inj (hsame.symm.trans hreason)⟩

/-! ### The number of slots -/

/-- A running total of spans that is held at the largest word is the number of their slots, held
there once. -/
theorem foldl_count_eq {spans : List Span} {total : Nat}
    (hnonempty : ∀ span ∈ spans, span.first ≤ span.last) (htotal : total ≤ Word.max) :
    spans.foldl (fun total span => Word.clamp (total + span.count)) total =
      Word.clamp (total + (spans.flatMap fun span => span.range.slots).length) := by
  induction spans generalizing total with
  | nil => exact (Word.clamp_of_le htotal).symm
  | cons span rest ih =>
    have hspan := hnonempty span List.mem_cons_self
    -- Each count is clamped on its own, and so is the running total.
    have hcount : span.count = Word.clamp span.range.slots.length := by
      simp only [Span.count, SlotRange.count, SlotRange.slots, Span.range, List.length_range']
      congr 1
      omega
    rw [List.foldl_cons, List.flatMap_cons, List.length_append, hcount,
      ih (fun other hother => hnonempty other (List.mem_cons_of_mem _ hother)) (Word.clamp_le _)]
    simp only [Word.clamp_eq_min]
    omega

/-- The size is the number of slots, held at the largest word. -/
theorem Ordered.size_eq_clamp {ledger : Ledger} (h : ledger.Ordered) :
    ledger.size = Word.clamp ledger.slots.length := by
  have hcount := foldl_count_eq h.nonempty (Nat.zero_le Word.max)
  rwa [Nat.zero_add] at hcount

theorem Ordered.size_eq {ledger : Ledger} (h : ledger.Ordered)
    (hlength : ledger.slots.length ≤ Word.max) : ledger.size = ledger.slots.length := by
  rw [h.size_eq_clamp, Word.clamp_of_le hlength]

end Ledger

end Backfill
