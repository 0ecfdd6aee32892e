import Backfill.Proofs.LedgerMap
import Mathlib.Data.List.Induction

/-!
# Entering a range in place

A ledger that is kept as a search tree, keyed by the first slots of its spans, is changed in
place.  The spans that overlap the new range are found by walking down from the last span that
begins in the range or before it, for as long as the spans reach into the range.  Each of them
is taken out and what it has on either side of the range is put back; then the new span is
joined with its neighbours.  The walk misses no span because the spans are in order, and all of
this is done on machine words, where the word after the largest and the word before zero do not
exist.

`Ledger.recordInPlace?` says this step by step, and gives nothing as soon as such a word is asked
for.  It never is, and the outcome is that of `Ledger.recordRange`.

## Main definitions

* `Word.next?`, `Word.previous?` — the words beside a word.
* `Ledger.reachingInto` — the walk.
* `Ledger.cutAround?` — what happens to a span that was found.
* `Ledger.recordInPlace?` — entering a range.

## Main results

* `Ledger.foldlM_cutAround?` — the walk leaves the parts below and above the range.
* `Ledger.joinBefore_eq`, `Ledger.joinAfter_eq` — joining in place is joining from either side.
* `Ledger.recordInPlace?_eq` — **entering a range in place succeeds, with the same spans.**
-/

namespace Backfill

namespace Word

/-- The word after this one, unless this is the largest. -/
def next? (n : Nat) : Option Nat := if n < max then some (n + 1) else none

/-- The word before this one, unless this is zero. -/
def previous? (n : Nat) : Option Nat := if 0 < n then some (n - 1) else none

theorem next?_of_lt {n : Nat} (h : n < max) : next? n = some (n + 1) := if_pos h

theorem previous?_of_pos {n : Nat} (h : 0 < n) : previous? n = some (n - 1) := if_pos h

theorem next?_eq_some {n m : Nat} (hm : m ≤ max) : next? n = some m ↔ n + 1 = m := by
  unfold next?
  split
  · simp
  · simp only [reduceCtorEq, false_iff]; omega

end Word

namespace Ledger

/-! ### Spans by their first slot -/

/-- Takes out the span that begins at a slot. -/
def without (first : Nat) (spans : List Span) : List Span :=
  spans.filter fun span => span.first != first

/-- Puts a span in its place. -/
def put (span : Span) : List Span → List Span
  | [] => [span]
  | other :: rest =>
    if span.first < other.first then span :: other :: rest else other :: put span rest

theorem put_append (span : Span) {front back : List Span}
    (hfront : ∀ other ∈ front, other.first < span.first)
    (hback : ∀ other ∈ back, span.first < other.first) :
    put span (front ++ back) = front ++ span :: back := by
  induction front with
  | nil =>
    cases back with
    | nil => rfl
    | cons other rest => exact if_pos (hback other (by simp))
  | cons other rest ih =>
    have hlt := hfront other (by simp)
    rw [List.cons_append, put, if_neg (by omega), ih fun o ho => hfront o (by simp [ho])]
    rfl

theorem without_append {front back : List Span} {span : Span}
    (hfront : ∀ other ∈ front, other.first < span.first)
    (hback : ∀ other ∈ back, span.first < other.first) :
    without span.first (front ++ span :: back) = front ++ back := by
  have hall : ∀ spans : List Span, (∀ other ∈ spans, other.first ≠ span.first) →
      spans.filter (fun other => other.first != span.first) = spans := by
    intro spans h
    exact List.filter_eq_self.mpr fun other hother => by simpa using h other hother
  rw [without, List.filter_append, List.filter_cons_of_neg (by simp),
    hall front fun o ho => Nat.ne_of_lt (hfront o ho),
    hall back fun o ho => (Nat.ne_of_lt (hback o ho)).symm]

theorem find?_append {front back : List Span} {span : Span}
    (hfront : ∀ other ∈ front, other.first < span.first) :
    (front ++ span :: back).find? (fun other => other.first == span.first) = some span := by
  have hnone : front.find? (fun other => other.first == span.first) = none := by
    rw [List.find?_eq_none]
    intro other hother
    simpa using Nat.ne_of_lt (hfront other hother)
  rw [List.find?_append, hnone, List.find?_cons_of_pos (by simp)]
  rfl

/-! ### The walk -/

/-- The first slots of the spans that reach into the range, from the last one down. -/
def reachingInto (range : SlotRange) (spans : List Span) : List Nat :=
  ((spans.filter fun span => span.first ≤ range.last).reverse.takeWhile fun span =>
    range.first ≤ span.last).map (·.first)

/-- Takes out the span that begins at a slot and puts back what it has on either side of the
range. -/
def cutAround? (range : SlotRange) (spans : List Span) (first : Nat) : Option (List Span) :=
  match spans.find? fun span => span.first == first with
  | none => some spans
  | some span =>
    let rest? := if span.first < range.first then
        (Word.previous? range.first).map fun last =>
          put { span with last := last } (without first spans)
      else some (without first spans)
    rest?.bind fun rest =>
      if range.last < span.last then
        (Word.next? range.last).map fun first => put { span with first := first } rest
      else some rest

/-- Joins the new span with the one before it, if that one ends right before it with the same
reason; gives the first slot of the new span and the spans that remain. -/
def joinBefore (range : SlotRange) (reason : FailureReason) (spans : List Span) :
    Nat × List Span :=
  match (spans.filter fun span => span.first < range.first).getLast? with
  | some left =>
    if Word.next? left.last = some range.first ∧ left.reason = reason then
      (left.first, without left.first spans)
    else (range.first, spans)
  | none => (range.first, spans)

/-- Joins the new span with the one that begins right after it, if that one has the same reason;
gives the last slot of the new span and the spans that remain. -/
def joinAfter (range : SlotRange) (reason : FailureReason) (spans : List Span) :
    Nat × List Span :=
  match (Word.next? range.last).bind fun next => spans.find? fun span => span.first == next with
  | some right =>
    if right.reason = reason then (right.last, without right.first spans) else (range.last, spans)
  | none => (range.last, spans)

/-- Enters a range in place.  Gives nothing when a word beside another is asked for that does not
exist. -/
def recordInPlace? (ledger : Ledger) (range : SlotRange) (reason : FailureReason) :
    Option Ledger := do
  let spans ← (reachingInto range ledger.spans).foldlM (cutAround? range) ledger.spans
  let (first, spans) := joinBefore range reason spans
  let (last, spans) := joinAfter range reason spans
  return ⟨put ⟨first, last, reason⟩ spans⟩

/-! ### What the walk finds -/

/-- Spans in order fall into those before the range, those that reach into it, and those after
it. -/
theorem Ordered.split {spans : List Span} (h : Ordered ⟨spans⟩) (range : SlotRange) :
    ∃ before within after, spans = before ++ within ++ after ∧
      (∀ span ∈ before, span.last < range.first) ∧
      (∀ span ∈ within, span.first ≤ range.last ∧ range.first ≤ span.last) ∧
      ∀ span ∈ after, range.last < span.first := by
  induction spans with
  | nil => exact ⟨[], [], [], rfl, by simp, by simp, by simp⟩
  | cons span rest ih =>
    obtain ⟨hfirst, hpairwise⟩ := List.pairwise_cons.mp h.pairwise
    have hspan := h.nonempty span (by simp)
    obtain ⟨before, within, after, rfl, hbefore, hwithin, hafter⟩ :=
      ih ⟨hpairwise, fun other hother => h.nonempty other (by simp [hother])⟩
    have hlater : ∀ other ∈ before ++ within ++ after,
        span.last < other.first ∧ other.first ≤ other.last :=
      fun other hother => ⟨hfirst other hother, h.nonempty other (List.mem_cons_of_mem _ hother)⟩
    by_cases hends : span.last < range.first
    · refine ⟨span :: before, within, after, rfl, ?_, hwithin, hafter⟩
      simpa [hends] using hbefore
    · -- the spans above it end even later, so none of them lies before the range
      have hnil : before = [] := by
        refine List.eq_nil_iff_forall_not_mem.mpr fun other hother => ?_
        have := hbefore other hother
        have := hlater other (by simp [hother])
        omega
      subst hnil
      by_cases hbegins : range.last < span.first
      · have hnil : within = [] := by
          refine List.eq_nil_iff_forall_not_mem.mpr fun other hother => ?_
          have := hwithin other hother
          have := hlater other (by simp [hother])
          omega
        subst hnil
        refine ⟨[], [], span :: after, rfl, by simp, by simp, ?_⟩
        simpa [hbegins] using hafter
      · refine ⟨[], span :: within, after, rfl, by simp, ?_, hafter⟩
        intro other hother
        rcases List.mem_cons.mp hother with rfl | hother
        · omega
        · exact hwithin other hother

/-- The walk finds the spans that reach into the range, and stops at the first that does not. -/
theorem reachingInto_eq {before within after : List Span} {range : SlotRange}
    (hbefore : ∀ span ∈ before, span.first ≤ range.last ∧ span.last < range.first)
    (hwithin : ∀ span ∈ within, span.first ≤ range.last ∧ range.first ≤ span.last)
    (hafter : ∀ span ∈ after, range.last < span.first) :
    reachingInto range (before ++ within ++ after) = within.reverse.map (·.first) := by
  have hkeep : ∀ spans : List Span, (∀ span ∈ spans, span.first ≤ range.last) →
      spans.filter (fun span => decide (span.first ≤ range.last)) = spans :=
    fun spans h => List.filter_eq_self.mpr fun span hspan => by simpa using h span hspan
  have hdrop : after.filter (fun span => decide (span.first ≤ range.last)) = [] :=
    List.filter_eq_nil_iff.mpr fun span hspan => by simpa using hafter span hspan
  rw [reachingInto, List.filter_append, List.filter_append, hdrop,
    hkeep before fun span hspan => (hbefore span hspan).1,
    hkeep within fun span hspan => (hwithin span hspan).1, List.append_nil, List.reverse_append,
    List.takeWhile_append_of_pos (by simpa using fun span hspan => (hwithin span hspan).2)]
  congr 1
  -- Seen from the back, the scan stops at the last span that ends before the range.
  have hstop : before.reverse.takeWhile (fun span => decide (range.first ≤ span.last)) = [] := by
    cases hrev : before.reverse with
    | nil => rfl
    | cons span rest =>
      have hmem : span ∈ before := by rw [← List.mem_reverse, hrev]; simp
      have hlt := (hbefore span hmem).2
      exact List.takeWhile_cons_of_neg (by simp; omega)
  rw [hstop, List.append_nil]

/-! ### What the walk leaves -/

/-- A span that reaches into the range makes way for its parts below and above the range. -/
theorem cutAround?_append {range : SlotRange} {front back : List Span} {span : Span}
    (hfront : ∀ other ∈ front, other.first < span.first)
    (hback : ∀ other ∈ back, span.last < other.first)
    (hspan : span.first ≤ range.last ∧ range.first ≤ span.last) (hle : span.first ≤ span.last)
    (hword : span.last ≤ Word.max) :
    cutAround? range (front ++ span :: back) span.first =
      some (front ++ (Span.below range.first span).toList ++ (Span.above range.last span).toList ++
        back) := by
  have hrest : without span.first (front ++ span :: back) = front ++ back :=
    without_append hfront fun other hother => by have := hback other hother; omega
  -- the part below stands where the span stood
  have hbelow : (if span.first < range.first then
      (Word.previous? range.first).map fun last => put { span with last := last } (front ++ back)
      else some (front ++ back)) =
      some (front ++ (Span.below range.first span).toList ++ back) := by
    unfold Span.below
    split
    · next hlt =>
      have hmin : min span.last (range.first - 1) = range.first - 1 := by omega
      have hput : put { span with last := range.first - 1 } (front ++ back) =
          front ++ { span with last := range.first - 1 } :: back :=
        put_append _ hfront fun other hother => by
          have := hback other hother
          show span.first < other.first
          omega
      rw [Word.previous?_of_pos (by omega), Option.map_some, hput, hmin]
      simp
    · simp
  -- the part above follows; when there is one, what comes later lies beyond it
  have habove : (if range.last < span.last then
      (Word.next? range.last).map fun first => put { span with first := first }
        (front ++ (Span.below range.first span).toList ++ back)
      else some (front ++ (Span.below range.first span).toList ++ back)) =
      some (front ++ (Span.below range.first span).toList ++
        (Span.above range.last span).toList ++ back) := by
    unfold Span.above
    split
    · next hlt =>
      have hmax : max span.first (range.last + 1) = range.last + 1 := by omega
      have hput : put { span with first := range.last + 1 }
          (front ++ (Span.below range.first span).toList ++ back) =
          front ++ (Span.below range.first span).toList ++
            { span with first := range.last + 1 } :: back := by
        refine put_append _ (fun other hother => ?_) fun other hother => ?_
        · show other.first < range.last + 1
          rcases List.mem_append.mp hother with hother | hother
          · have := hfront other hother
            omega
          · have := below_eq_some (Option.mem_toList.mp hother)
            omega
        · have := hback other hother
          show range.last + 1 < other.first
          omega
      rw [Word.next?_of_lt (by omega), Option.map_some, hput, hmax]
      simp
    · simp
  simp only [cutAround?, find?_append hfront, hrest, hbelow, Option.bind_some, habove]

theorem filterMap_below_eq_nil {bound : Nat} {spans : List Span}
    (h : ∀ span ∈ spans, bound ≤ span.first) : spans.filterMap (Span.below bound) = [] :=
  List.filterMap_eq_nil_iff.mpr fun span hspan => if_neg (by have := h span hspan; omega)

theorem filterMap_below_eq_self {bound : Nat} {spans : List Span}
    (h : ∀ span ∈ spans, span.first ≤ span.last ∧ span.last < bound) :
    spans.filterMap (Span.below bound) = spans := by
  refine (List.filterMap_congr fun span hspan => ?_).trans List.filterMap_some
  have hlt := h span hspan
  have hmin : min span.last (bound - 1) = span.last := by omega
  simp only [Span.below, if_pos (show span.first < bound by omega), hmin]

theorem filterMap_above_eq_nil {bound : Nat} {spans : List Span}
    (h : ∀ span ∈ spans, span.last ≤ bound) : spans.filterMap (Span.above bound) = [] :=
  List.filterMap_eq_nil_iff.mpr fun span hspan => if_neg (by have := h span hspan; omega)

theorem filterMap_above_eq_self {bound : Nat} {spans : List Span}
    (h : ∀ span ∈ spans, span.first ≤ span.last ∧ bound < span.first) :
    spans.filterMap (Span.above bound) = spans := by
  refine (List.filterMap_congr fun span hspan => ?_).trans List.filterMap_some
  have hlt := h span hspan
  have hmax : max span.first (bound + 1) = span.first := by omega
  simp only [Span.above, if_pos (show bound < span.last by omega), hmax]

/-- The walk over the spans that reach into the range, when some of them, at the upper end, have
been cut already. -/
theorem foldlM_cutAround?_reverse (range : SlotRange) {before within : List Span} (cut : List Span)
    {after : List Span}
    (h : Ordered ⟨before ++ within ++ cut ++ after⟩)
    (hword : ∀ span ∈ within, span.last ≤ Word.max)
    (hwithin : ∀ span ∈ within ++ cut, span.first ≤ range.last ∧ range.first ≤ span.last) :
    (within.reverse.map (·.first)).foldlM (cutAround? range)
        (before ++ within ++ cut.filterMap (Span.below range.first) ++
          cut.filterMap (Span.above range.last) ++ after) =
      some (before ++ (within ++ cut).filterMap (Span.below range.first) ++
        (within ++ cut).filterMap (Span.above range.last) ++ after) := by
  induction within using List.reverseRecOn generalizing cut with
  | nil => simp
  | append_singleton within span ih =>
    have hsplit : before ++ (within ++ [span]) ++ cut ++ after =
        (before ++ within) ++ span :: (cut ++ after) := by simp
    obtain ⟨-, hlater, hearlier⟩ := List.pairwise_append.mp (hsplit ▸ h).pairwise
    replace hlater := (List.pairwise_cons.mp hlater).1
    have hspan := hwithin span (by simp)
    have hnonempty := h.nonempty span (by simp)
    -- the spans cut before lie above this one, so they have no parts below the range
    have hnil : cut.filterMap (Span.below range.first) = [] :=
      filterMap_below_eq_nil fun other hother => by
        have := hlater other (by simp [hother])
        omega
    have hback : ∀ other ∈ cut.filterMap (Span.above range.last) ++ after,
        span.last < other.first := by
      intro other hother
      rcases List.mem_append.mp hother with hother | hother
      · obtain ⟨old, hold, hpart⟩ := List.mem_filterMap.mp hother
        have := above_eq_some hpart
        have := hlater old (by simp [hold])
        omega
      · exact hlater other (by simp [hother])
    have hfront : ∀ other ∈ before ++ within, other.first < span.first := by
      intro other hother
      have hlt : other.last < span.first := hearlier other hother span (by simp)
      have := h.nonempty other (by rw [hsplit]; exact List.mem_append_left _ hother)
      omega
    have hstep := cutAround?_append hfront hback hspan hnonempty (hword span (by simp))
    have hrest := ih (span :: cut) (by simpa using h)
      (fun other hother => hword other (by simp [hother])) (by simpa using hwithin)
    have hstate : before ++ (within ++ [span]) ++ cut.filterMap (Span.below range.first) ++
        cut.filterMap (Span.above range.last) ++ after =
        (before ++ within) ++ span :: (cut.filterMap (Span.above range.last) ++ after) := by
      simp [hnil]
    rw [List.reverse_concat, List.map_cons, List.foldlM_cons, hstate, hstep]
    -- with the parts of this span put back, the rest of the walk is the induction hypothesis
    cases hbelow : Span.below range.first span <;> cases habove : Span.above range.last span <;>
      simpa [List.filterMap_append, List.filterMap_cons, hbelow, habove, hnil] using hrest

/-- **The walk leaves the parts below and above the range.** -/
theorem foldlM_cutAround? {ledger : Ledger} (h : ledger.Ordered)
    (hword : ∀ span ∈ ledger.spans, span.last ≤ Word.max) {range : SlotRange}
    (hrange : range.first ≤ range.last) :
    (reachingInto range ledger.spans).foldlM (cutAround? range) ledger.spans =
      some (ledger.spans.filterMap (Span.below range.first) ++
        ledger.spans.filterMap (Span.above range.last)) := by
  obtain ⟨spans⟩ := ledger
  -- Only the spans in the middle meet the range; the cuts leave the other two parts alone.
  obtain ⟨before, within, after, rfl, hbefore, hwithin, hafter⟩ := h.split range
  have hnonempty : ∀ span ∈ before ++ within ++ after, span.first ≤ span.last := h.nonempty
  have hwalk := foldlM_cutAround?_reverse range [] (by simpa using h)
    (fun span hspan => hword span (by simp [hspan])) (by simpa using hwithin)
  have hbeforeReach : ∀ span ∈ before, span.first ≤ range.last ∧ span.last < range.first :=
    fun span hspan => by
      have := hbefore span hspan
      have := hnonempty span (by simp [hspan])
      omega
  have hbelowBefore : before.filterMap (Span.below range.first) = before :=
    filterMap_below_eq_self fun span hspan =>
      ⟨hnonempty span (by simp [hspan]), hbefore span hspan⟩
  have hbelowAfter : after.filterMap (Span.below range.first) = [] :=
    filterMap_below_eq_nil fun span hspan => by have := hafter span hspan; omega
  have haboveBefore : before.filterMap (Span.above range.last) = [] :=
    filterMap_above_eq_nil fun span hspan => by have := hbefore span hspan; omega
  have haboveAfter : after.filterMap (Span.above range.last) = after :=
    filterMap_above_eq_self fun span hspan =>
      ⟨hnonempty span (by simp [hspan]), hafter span hspan⟩
  rw [reachingInto_eq hbeforeReach hwithin hafter]
  simpa [List.filterMap_append, hbelowBefore, hbelowAfter, haboveBefore, haboveAfter] using hwalk

/-! ### Joining in place -/

/-- Joining with the span after the range is joining from the right. -/
theorem joinAfter_eq {range : SlotRange} (reason : FailureReason) (front : List Span)
    {above : List Span}
    (hword : ∀ span ∈ above, span.last ≤ Word.max) (habove : Ordered ⟨above⟩)
    (hfront : ∀ span ∈ front, span.first ≤ range.last)
    (hbegins : ∀ span ∈ above, range.last < span.first) (first : Nat) :
    ∃ last rest, joinAfter range reason (front ++ above) = (last, front ++ rest) ∧
      joinRight ⟨first, range.last, reason⟩ above = ⟨first, last, reason⟩ :: rest ∧
      ∀ span ∈ rest, range.last < span.first := by
  have hmiss : ∀ spans : List Span, (∀ span ∈ spans, span.first ≠ range.last + 1) →
      spans.find? (fun span => span.first == range.last + 1) = none :=
    fun spans h => List.find?_eq_none.mpr fun span hspan => by simpa using h span hspan
  have hfrontMiss := hmiss front fun span hspan => by have := hfront span hspan; omega
  cases above with
  | nil =>
    refine ⟨range.last, [], ?_, rfl, by simp⟩
    -- There may be no slot after the range at all, if it ends at the largest word.
    have hnone : ((Word.next? range.last).bind fun next =>
        front.find? fun span => span.first == next) = none := by
      unfold Word.next?
      split
      · exact hfrontMiss
      · rfl
    simp only [joinAfter, List.append_nil, hnone]
  | cons right rest =>
    have hright := hbegins right (by simp)
    have hrightWord := hword right (by simp)
    have hrightLe := habove.nonempty right (by simp)
    have hrest : ∀ span ∈ rest, right.first < span.first := fun span hspan => by
      have : right.last < span.first := (List.pairwise_cons.mp habove.pairwise).1 span hspan
      omega
    have hnext := Word.next?_of_lt (n := range.last) (by omega)
    -- The next span is found by its start, and joined only if it has the same reason.
    by_cases htouch : right.first = range.last + 1
    · have hfind : (front ++ right :: rest).find? (fun span => span.first == range.last + 1) =
          some right := by
        rw [List.find?_append, hfrontMiss, List.find?_cons_of_pos (by simp [htouch])]
        rfl
      have hwithout : without right.first (front ++ right :: rest) = front ++ rest :=
        without_append (fun span hspan => by have := hfront span hspan; omega) hrest
      by_cases hreason : right.reason = reason
      · refine ⟨right.last, rest, ?_, ?_, fun span hspan => by have := hrest span hspan; omega⟩
        · simp only [joinAfter, hnext, Option.bind_some, hfind, hreason, if_true, hwithout]
        · simp [joinRight, Span.join?, htouch, hreason]
      · refine ⟨range.last, right :: rest, ?_, ?_, hbegins⟩
        · simp only [joinAfter, hnext, Option.bind_some, hfind, hreason, if_false]
        · simp [joinRight, Span.join?, Ne.symm hreason]
    · have hfind : (front ++ right :: rest).find? (fun span => span.first == range.last + 1) =
          none := by
        rw [List.find?_append, hfrontMiss, hmiss (right :: rest)]
        · rfl
        · intro span hspan
          rcases List.mem_cons.mp hspan with rfl | hspan
          · exact htouch
          · have := hrest span hspan
            omega
      refine ⟨range.last, right :: rest, ?_, ?_, hbegins⟩
      · simp only [joinAfter, hnext, Option.bind_some, hfind]
      · simp [joinRight, Span.join?, Ne.symm htouch]

/-- Joining with the span before the range is joining from the left. -/
theorem joinBefore_eq {range : SlotRange} (reason : FailureReason) {below above : List Span}
    (hword : range.first ≤ Word.max) (hbelow : Ordered ⟨below⟩)
    (hends : ∀ span ∈ below, span.last < range.first)
    (habove : ∀ span ∈ above, range.first ≤ span.first) :
    ∃ first front, joinBefore range reason (below ++ above) = (first, front ++ above) ∧
      (∀ last rest, joinLeft below (⟨range.first, last, reason⟩ :: rest) =
        front ++ ⟨first, last, reason⟩ :: rest) ∧
      (∀ span ∈ front, span.first < first) ∧ first ≤ range.first := by
  have hbelowLt : ∀ span ∈ below, span.first < range.first := fun span hspan => by
    have := hbelow.nonempty span hspan
    have := hends span hspan
    omega
  have hfilter : (below ++ above).filter (fun span => decide (span.first < range.first)) =
      below := by
    rw [List.filter_append, List.filter_eq_self.mpr (by simpa using hbelowLt),
      List.filter_eq_nil_iff.mpr (by simpa using habove), List.append_nil]
  rcases List.eq_nil_or_concat' below with rfl | ⟨front, left, rfl⟩
  · -- nothing before the range
    refine ⟨range.first, [], ?_, fun _ _ => rfl, by simp, Nat.le_refl _⟩
    simp only [joinBefore, hfilter, List.getLast?_nil]
  · have hleftLt := hbelowLt left (by simp)
    have hfrontLt : ∀ span ∈ front, span.first < left.first := fun span hspan => by
      have := hbelow.nonempty span (by simp [hspan])
      have : span.last < left.first :=
        (List.pairwise_append.mp hbelow.pairwise).2.2 span hspan left (by simp)
      omega
    have hlast? : (front ++ [left]).getLast? = some left := by simp
    by_cases hjoins : left.last + 1 = range.first ∧ left.reason = reason
    · -- the span before the range grows
      have hnext := (Word.next?_eq_some hword).mpr hjoins.1
      have hwithout : without left.first (front ++ [left] ++ above) = front ++ above := by
        rw [List.append_assoc]
        refine without_append hfrontLt fun span hspan => ?_
        have := habove span hspan
        omega
      refine ⟨left.first, front, ?_, fun last rest => ?_, hfrontLt, Nat.le_of_lt hleftLt⟩
      · simp only [joinBefore, hfilter, hlast?, hnext, hjoins.2, and_self, if_true, hwithout]
      · rw [joinLeft_concat, joinRight, Span.join?, if_pos hjoins]
        simp only [hjoins.2]
    · -- the span before the range stays as it is
      refine ⟨range.first, front ++ [left], ?_, fun last rest => ?_, hbelowLt, Nat.le_refl _⟩
      · rw [← Word.next?_eq_some hword] at hjoins
        simp only [joinBefore, hfilter, hlast?, if_neg hjoins]
      · rw [joinLeft_concat, joinRight, Span.join?, if_neg hjoins, List.append_assoc]
        rfl

/-- **Entering a range in place succeeds, with the same spans**: no word is asked for that does
not exist. -/
theorem recordInPlace?_eq {ledger : Ledger} (h : ledger.Ordered)
    (hword : ∀ span ∈ ledger.spans, span.last ≤ Word.max) {range : SlotRange}
    (hrange : range.first ≤ range.last) (hlast : range.last ≤ Word.max) (reason : FailureReason) :
    ledger.recordInPlace? range reason = some (ledger.recordRange range reason) := by
  obtain ⟨hbelow, hends⟩ := h.below range.first
  obtain ⟨habove, hbegins⟩ := h.above range.last
  have haboveWord : ∀ part ∈ ledger.spans.filterMap (Span.above range.last),
      part.last ≤ Word.max := fun part hpart => by
    obtain ⟨span, hspan, hcut⟩ := List.mem_filterMap.mp hpart
    rw [(above_eq_some hcut).2.1]
    exact hword span hspan
  obtain ⟨first, front, hjoin, hleft, hfront, hfirst⟩ := joinBefore_eq reason
    (Nat.le_trans hrange hlast) hbelow hends fun span hspan => by
      have := hbegins span hspan
      omega
  obtain ⟨last, rest, hafter, hright, hrest⟩ := joinAfter_eq reason front haboveWord habove
    (fun span hspan => by have := hfront span hspan; omega) hbegins range.first
  -- After the cuts and the joins the new span is put between the parts it separates.
  have hput : put ⟨first, last, reason⟩ (front ++ rest) = front ++ ⟨first, last, reason⟩ :: rest :=
    put_append _ hfront fun span hspan => by
      have := hrest span hspan
      show first < span.first
      omega
  rw [recordInPlace?, foldlM_cutAround? h hword hrange, recordRange, hright, hleft, ← hput]
  simp only [Option.bind_eq_bind, Option.bind_some, Option.pure_def, hjoin, hafter]

end Ledger

end Backfill
