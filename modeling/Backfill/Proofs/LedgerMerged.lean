import Backfill.Proofs.LedgerMap

/-!
# One way to write a map down

A map from slots to reasons can be written as spans in many ways, since a span may be cut anywhere.
A ledger joins a new span with the neighbours that it touches, so no two spans of a ledger touch
with one reason.  Under this invariant there is only one way: two ledgers that give every slot the
same reason have the same spans, whatever was entered in them and in whatever order.

## Main definitions

* `Ledger.Merged` — spans in order, of which no two touch with one reason.

## Main results

* `Ledger.Merged.recordRange` — entering a range keeps the spans merged.
* `Ledger.Merged.eq_of_reasonOf?` — **the spans are determined by the reasons.**
-/

namespace Backfill

namespace Ledger

/-- Spans in order, of which no two touch with one reason. -/
structure Merged (ledger : Ledger) : Prop extends Ordered ledger where
  apart : ledger.spans.Pairwise fun left right => left.join? right = none

theorem join?_eq_none {left right : Span} :
    left.join? right = none ↔ ¬(left.last + 1 = right.first ∧ left.reason = right.reason) := by
  simp [Span.join?]

theorem merged_empty : Merged empty := ⟨ordered_empty, .nil⟩

theorem Merged.tail {span : Span} {rest : List Span} (h : Merged ⟨span :: rest⟩) :
    Merged ⟨rest⟩ where
  pairwise := (List.pairwise_cons.mp h.pairwise).2
  nonempty other hother := h.nonempty other (List.mem_cons_of_mem _ hother)
  apart := (List.pairwise_cons.mp h.apart).2

/-! ### Entering a range -/

/-- The parts below a slot do not touch with one reason if the spans do not. -/
theorem Merged.below {ledger : Ledger} (h : ledger.Merged) (bound : Nat) :
    Merged ⟨ledger.spans.filterMap (Span.below bound)⟩ where
  toOrdered := (h.toOrdered.below bound).1
  apart := by
    refine h.apart.filterMap _ ?_
    intro left right hapart left' hleft right' hright
    obtain ⟨hleftFirst, hleftLast, hleftReason, hleftLt⟩ := below_eq_some hleft
    obtain ⟨hrightFirst, hrightLast, hrightReason, hrightLt⟩ := below_eq_some hright
    rw [join?_eq_none] at hapart ⊢
    rintro ⟨htouch, hreason⟩
    -- a part that was cut off ends right below the slot, where no other part begins
    refine hapart ⟨by omega, ?_⟩
    rw [← hleftReason, ← hrightReason, hreason]

/-- The parts above a slot do not touch with one reason if the spans do not. -/
theorem Merged.above {ledger : Ledger} (h : ledger.Merged) (bound : Nat) :
    Merged ⟨ledger.spans.filterMap (Span.above bound)⟩ where
  toOrdered := (h.toOrdered.above bound).1
  apart := by
    refine h.apart.filterMap _ ?_
    intro left right hapart left' hleft right' hright
    obtain ⟨hleftFirst, hleftLast, hleftReason, hleftLt⟩ := above_eq_some hleft
    obtain ⟨hrightFirst, hrightLast, hrightReason, hrightLt⟩ := above_eq_some hright
    rw [join?_eq_none] at hapart ⊢
    rintro ⟨htouch, hreason⟩
    refine hapart ⟨by omega, ?_⟩
    rw [← hleftReason, ← hrightReason, hreason]

/-- A span in front of merged spans is joined with the first of them if they touch. -/
theorem Merged.joinRight {span : Span} {spans : List Span} (h : Merged ⟨spans⟩)
    (hspan : span.first ≤ span.last) (hlt : ∀ other ∈ spans, span.last < other.first) :
    Merged ⟨joinRight span spans⟩ := by
  have hordered : Ordered ⟨span :: spans⟩ := by
    refine ⟨List.pairwise_cons.mpr ⟨hlt, h.pairwise⟩, fun other hother => ?_⟩
    rcases List.mem_cons.mp hother with rfl | hmem
    · exact hspan
    · exact h.nonempty other hmem
  refine ⟨(joinRight_joinedOnce span spans).ordered hordered, ?_⟩
  cases spans with
  | nil => exact List.pairwise_singleton _ _
  | cons next rest =>
    obtain ⟨hnext, hrest⟩ := List.pairwise_cons.mp h.apart
    rw [Ledger.joinRight]
    cases hjoin : span.join? next with
    | some joined =>
      -- the new span ends where the first one did, with the same reason
      obtain ⟨rfl, -, hreason⟩ := join?_eq_some hjoin
      refine List.pairwise_cons.mpr ⟨fun other hother => ?_, hrest⟩
      have hapart := hnext other hother
      rw [join?_eq_none] at hapart ⊢
      rwa [hreason]
    | none =>
      refine List.pairwise_cons.mpr ⟨fun other hother => ?_, h.apart⟩
      rcases List.mem_cons.mp hother with rfl | hmem
      · exact hjoin
      · -- the first span lies in between
        have hbetween := (List.pairwise_cons.mp h.pairwise).1 other hmem
        have hnonempty := h.nonempty next List.mem_cons_self
        have hbefore := hlt next List.mem_cons_self
        rw [join?_eq_none]
        rintro ⟨htouch, -⟩
        omega

/-- What a span that is joined from the left begins with. -/
theorem mem_joinRight {span other : Span} {spans : List Span}
    (h : other ∈ Ledger.joinRight span spans) :
    other.first = span.first ∧ other.reason = span.reason ∨ other ∈ spans := by
  cases spans with
  | nil =>
    obtain rfl := List.mem_singleton.mp h
    exact .inl ⟨rfl, rfl⟩
  | cons next rest =>
    rw [Ledger.joinRight] at h
    -- Joining keeps where the span starts and why, and drops the neighbour it takes in.
    cases hjoin : span.join? next with
    | some joined =>
      rw [hjoin] at h
      obtain ⟨rfl, -, -⟩ := join?_eq_some hjoin
      rcases List.mem_cons.mp h with rfl | hmem
      · exact .inl ⟨rfl, rfl⟩
      · exact .inr (List.mem_cons_of_mem _ hmem)
    | none =>
      rw [hjoin] at h
      rcases List.mem_cons.mp h with rfl | hmem
      · exact .inl ⟨rfl, rfl⟩
      · exact .inr hmem

/-- Merged spans below merged spans are joined at the seam if they touch. -/
theorem Merged.joinLeft {below spans : List Span} (hbelow : Merged ⟨below⟩) (h : Merged ⟨spans⟩)
    (hlt : ∀ left ∈ below, ∀ right ∈ spans, left.last < right.first) :
    Merged ⟨joinLeft below spans⟩ := by
  have hordered : Ordered ⟨below ++ spans⟩ := by
    refine ⟨List.pairwise_append.mpr ⟨hbelow.pairwise, h.pairwise, hlt⟩, fun span hspan => ?_⟩
    rcases List.mem_append.mp hspan with hmem | hmem
    · exact hbelow.nonempty span hmem
    · exact h.nonempty span hmem
  refine ⟨(joinLeft_joinedOnce below spans).ordered hordered, ?_⟩
  rcases List.eq_nil_or_concat below with rfl | ⟨front, left, rfl⟩
  · exact h.apart
  · rw [List.concat_eq_append] at *
    have hleft : left ∈ front ++ [left] := List.mem_append_right _ (List.mem_singleton_self _)
    have hnonempty := hbelow.nonempty left hleft
    obtain ⟨hfront, -, hacross⟩ := List.pairwise_append.mp hbelow.apart
    obtain ⟨-, -, hbefore⟩ := List.pairwise_append.mp hbelow.pairwise
    have hright := h.joinRight hnonempty (hlt left hleft)
    rw [joinLeft_concat]
    refine List.pairwise_append.mpr ⟨hfront, hright.apart, fun span hspan other hother => ?_⟩
    rcases mem_joinRight hother with ⟨hfirst, hreason⟩ | hmem
    · -- the joined span begins like the last of the spans in front
      have hapart := hacross span hspan left (List.mem_singleton_self _)
      rw [join?_eq_none] at hapart ⊢
      rwa [hfirst, hreason]
    · -- that span lies in between
      have hspanLt := hbefore span hspan left (List.mem_singleton_self _)
      have hleftLt := hlt left hleft other hmem
      rw [join?_eq_none]
      rintro ⟨htouch, -⟩
      omega

/-- **Entering a range keeps the spans merged.** -/
theorem Merged.recordRange {ledger : Ledger} (h : ledger.Merged) {range : SlotRange}
    (hrange : range.first ≤ range.last) (reason : FailureReason) :
    (ledger.recordRange range reason).Merged := by
  obtain ⟨-, hends⟩ := h.toOrdered.below range.first
  obtain ⟨-, hbegins⟩ := h.toOrdered.above range.last
  refine (h.below range.first).joinLeft ((h.above range.last).joinRight hrange hbegins) ?_
  intro left hleft right hright
  have hleftLt := hends left hleft
  rcases mem_joinRight hright with ⟨hfirst, -⟩ | hmem
  · rw [hfirst]
    exact hleftLt
  · have := hbegins right hmem
    omega

/-! ### The spans of a map -/

theorem reasonIn?_eq_none {spans : List Span} {slot : Nat}
    (h : ∀ span ∈ spans, slot < span.first) : reasonIn? spans slot = none := by
  rw [← Option.not_isSome_iff_eq_none, isSome_reasonIn?]
  rintro ⟨span, hspan, hfirst, -⟩
  have := h span hspan
  omega

theorem Merged.reasonIn?_tail {span : Span} {rest : List Span} (h : Merged ⟨span :: rest⟩)
    (slot : Nat) :
    reasonIn? rest slot = if slot ≤ span.last then none else reasonIn? (span :: rest) slot := by
  obtain ⟨hlt, -⟩ := List.pairwise_cons.mp h.pairwise
  split
  · next hle =>
    exact reasonIn?_eq_none fun other hother => Nat.lt_of_le_of_lt hle (hlt other hother)
  · next hgt => rw [reasonIn?_cons, if_neg (by omega)]

/-- Of two lists of merged spans with the same reasons, neither begins before the other. -/
theorem first_le_of_reasonIn? {left right : Span} {lefts rights : List Span}
    (hleft : Merged ⟨left :: lefts⟩) (hright : Merged ⟨right :: rights⟩)
    (hsame : ∀ slot, reasonIn? (left :: lefts) slot = reasonIn? (right :: rights) slot) :
    right.first ≤ left.first := by
  by_contra hlt
  have hnonempty := hleft.nonempty left List.mem_cons_self
  have hsome : reasonIn? (left :: lefts) left.first = some left.reason := by
    rw [reasonIn?_cons, if_pos ⟨Nat.le_refl _, hnonempty⟩]
  -- the other list begins later, so it knows nothing of this slot
  have hnone : reasonIn? (right :: rights) left.first = none := by
    refine reasonIn?_eq_none fun span hspan => ?_
    rcases List.mem_cons.mp hspan with rfl | hmem
    · omega
    · have := (List.pairwise_cons.mp hright.pairwise).1 span hmem
      have := hright.nonempty right List.mem_cons_self
      omega
  rw [hsame, hnone] at hsome
  exact absurd hsome (by simp)

/-- Of two lists of merged spans with the same reasons, a first span is no longer than the other
one: behind it a span with the same reason would touch. -/
theorem last_le_of_reasonIn? {left right : Span} {lefts rights : List Span}
    (hleft : Merged ⟨left :: lefts⟩)
    (hsame : ∀ slot, reasonIn? (left :: lefts) slot = reasonIn? (right :: rights) slot)
    (hfirst : left.first = right.first) (hreason : left.reason = right.reason) :
    right.last ≤ left.last := by
  by_contra hlt
  have hnonempty := hleft.nonempty left List.mem_cons_self
  have hbehind : reasonIn? lefts (left.last + 1) = some left.reason := by
    rw [hleft.reasonIn?_tail, if_neg (by omega), hsame, reasonIn?_cons, if_pos (by omega), hreason]
  cases lefts with
  | nil => simp at hbehind
  | cons next rest =>
    obtain ⟨hnextLt, -⟩ := List.pairwise_cons.mp hleft.pairwise
    have hbefore := hnextLt next List.mem_cons_self
    have hnext := hleft.tail.nonempty next List.mem_cons_self
    by_cases htouch : left.last + 1 = next.first
    · have hapart := (List.pairwise_cons.mp hleft.apart).1 next List.mem_cons_self
      rw [reasonIn?_cons, if_pos (by omega)] at hbehind
      rw [join?_eq_none] at hapart
      exact hapart ⟨htouch, (Option.some.inj hbehind).symm⟩
    · -- the next span begins later, and so do all others
      have hnone : reasonIn? (next :: rest) (left.last + 1) = none := by
        refine reasonIn?_eq_none fun span hspan => ?_
        rcases List.mem_cons.mp hspan with rfl | hmem
        · omega
        · have := (List.pairwise_cons.mp hleft.tail.pairwise).1 span hmem
          omega
      rw [hnone] at hbehind
      exact absurd hbehind (by simp)

theorem eq_of_reasonIn? {lefts rights : List Span} (hleft : Merged ⟨lefts⟩)
    (hright : Merged ⟨rights⟩) (hsame : ∀ slot, reasonIn? lefts slot = reasonIn? rights slot) :
    lefts = rights := by
  induction lefts generalizing rights with
  | nil =>
    cases rights with
    | nil => rfl
    | cons right rights =>
      have hnonempty := hright.nonempty right List.mem_cons_self
      have hnone := hsame right.first
      rw [reasonIn?_nil, reasonIn?_cons, if_pos ⟨Nat.le_refl _, hnonempty⟩] at hnone
      exact absurd hnone (by simp)
  | cons left lefts ih =>
    have hnonempty := hleft.nonempty left List.mem_cons_self
    cases rights with
    | nil =>
      have hnone := hsame left.first
      rw [reasonIn?_nil, reasonIn?_cons, if_pos ⟨Nat.le_refl _, hnonempty⟩] at hnone
      exact absurd hnone (by simp)
    | cons right rights =>
      have hback : ∀ slot, reasonIn? (right :: rights) slot = reasonIn? (left :: lefts) slot :=
        fun slot => (hsame slot).symm
      -- The first spans agree in their start, then in their reason, then in their end: neither list
      -- can show a slot before the other does, and a run stops where the reason does.
      have hfirst : left.first = right.first :=
        Nat.le_antisymm (first_le_of_reasonIn? hright hleft hback)
          (first_le_of_reasonIn? hleft hright hsame)
      have hreason : left.reason = right.reason := by
        have hslot := hsame left.first
        have hin := hright.nonempty right List.mem_cons_self
        rw [reasonIn?_cons, reasonIn?_cons, if_pos ⟨Nat.le_refl _, hnonempty⟩, if_pos (by omega)]
          at hslot
        exact Option.some.inj hslot
      have hlast : left.last = right.last :=
        Nat.le_antisymm (last_le_of_reasonIn? hright hback hfirst.symm hreason.symm)
          (last_le_of_reasonIn? hleft hsame hfirst hreason)
      obtain ⟨first, last, reason⟩ := left
      obtain rfl : right = ⟨first, last, reason⟩ := by
        cases right
        simp_all
      refine congrArg _ (ih hleft.tail hright.tail fun slot => ?_)
      rw [hleft.reasonIn?_tail, hright.reasonIn?_tail, hsame]

/-- **The spans are determined by the reasons.** -/
theorem Merged.eq_of_reasonOf? {left right : Ledger} (hleft : left.Merged) (hright : right.Merged)
    (hsame : ∀ slot, left.reasonOf? slot = right.reasonOf? slot) : left = right := by
  cases left
  cases right
  exact congrArg _ (eq_of_reasonIn? hleft hright hsame)

end Ledger

end Backfill
