import Backfill.Proofs.BatchTrials
import Backfill.Proofs.ResponseMatching

/-!
# Matching for any list of slots

A list of slots may name a slot several times, and responses may have any identifiers.  The first
time that a slot is named it takes every response with its identifier away, so a slot that is named
again finds none, and it is the last time that counts.  All that matters about the responses is
which of them have the identifier of a slot, and in which order these stand.

## Main definitions

* `Envelope.Foreign` — an identifier that belongs to no slot of a list.

## Main results

* `Envelope.outcomesOf_append` — slots that are named later see what earlier ones have left.
* `Envelope.lookup_matchSlots_of_count_eq_one`, `Envelope.lookup_matchSlots_of_repeated` — what is
  found for a slot that is named once, or several times.
* `Envelope.matchSlots_congr` — responses with other identifiers do not matter, nor does the order
  of responses with different ones.
* `Envelope.matching_for_any_slots` — **all of this, for any slots and any responses.**
-/

namespace Backfill

/-! ### Slots of outcomes -/

namespace Outcomes

variable {outcomes : Outcomes} {slot other : Nat}

/-- An outcome is put in for one slot. -/
theorem mem_keys_insert {outcome : Outcome} :
    other ∈ (insert slot outcome outcomes).map (·.1) ↔
      other = slot ∨ other ∈ outcomes.map (·.1) := by
  induction outcomes with
  | nil => simp [insert]
  | cons pair rest ih =>
    obtain ⟨found, old⟩ := pair
    -- The key is put in front, in place of an equal one, or further back.
    simp only [insert]
    split
    case isTrue => simp
    case isFalse =>
      split
      case isTrue heq =>
        subst heq
        simp
      case isFalse =>
        rw [List.map_cons, List.mem_cons, ih, List.map_cons, List.mem_cons]
        exact or_left_comm

/-- An outcome is put in where its slot belongs. -/
theorem pairwise_insert (h : outcomes.Pairwise (·.1 < ·.1)) (outcome : Outcome) :
    (insert slot outcome outcomes).Pairwise (·.1 < ·.1) := by
  induction outcomes with
  | nil => exact List.pairwise_singleton _ _
  | cons pair rest ih =>
    obtain ⟨found, old⟩ := pair
    obtain ⟨hfound, hrest⟩ := List.pairwise_cons.mp h
    simp only [insert]
    split
    case isTrue hlt =>
      refine List.pairwise_cons.mpr ⟨List.forall_mem_cons.mpr ⟨hlt, ?_⟩, h⟩
      exact fun pair hpair => Nat.lt_trans hlt (hfound pair hpair)
    case isFalse hge =>
    split
    case isTrue heq =>
      subst heq
      exact List.pairwise_cons.mpr ⟨hfound, hrest⟩
    -- Behind the first key, whatever was inserted is still greater than it.
    case isFalse hne =>
      refine List.pairwise_cons.mpr ⟨fun pair hpair => ?_, ih hrest⟩
      obtain heq | hmem := mem_keys_insert.mp (List.mem_map_of_mem (f := (·.1)) hpair)
      · omega
      · obtain ⟨pair', hpair', heq⟩ := List.mem_map.mp hmem
        exact heq ▸ hfound pair' hpair'

theorem pairwise_foldl_insert {pairs : List (Nat × Outcome)} (h : outcomes.Pairwise (·.1 < ·.1)) :
    (pairs.foldl (fun outcomes pair => insert pair.1 pair.2 outcomes) outcomes).Pairwise
      (·.1 < ·.1) := by
  induction pairs generalizing outcomes with
  | nil => exact h
  | cons pair rest ih => exact ih (pairwise_insert h pair.2)

theorem mem_keys_foldl_insert {pairs : List (Nat × Outcome)} :
    slot ∈ (pairs.foldl (fun outcomes pair => insert pair.1 pair.2 outcomes) outcomes).map (·.1) ↔
      slot ∈ pairs.map (·.1) ∨ slot ∈ outcomes.map (·.1) := by
  induction pairs generalizing outcomes with
  | nil => simp
  | cons pair rest ih =>
    rw [List.foldl_cons, ih, mem_keys_insert, List.map_cons, List.mem_cons]
    exact or_left_comm.trans or_assoc.symm

theorem lookup_ofList_append {before after : List (Nat × Outcome)} {outcome : Outcome}
    (h : slot ∉ after.map (·.1)) :
    (ofList (before ++ (slot, outcome) :: after)).lookup slot = some outcome := by
  rw [ofList, List.foldl_append, List.foldl_cons, lookup_foldl_insert_of_not_mem h,
    lookup_insert_self]

end Outcomes

/-! ### Identifiers of no slot -/

/-- An identifier is not told from its digits if zeros stand in front of them. -/
theorem RequestId.ofSlot_ne_padded (slot other zeros : Nat) :
    RequestId.ofSlot other ≠
      .text (String.ofList ("block-".toList ++ List.replicate (zeros + 1) '0' ++
        Nat.toDigits 10 slot)) := by
  intro h
  have htext : Nat.toDigits 10 other = List.replicate (zeros + 1) '0' ++ Nat.toDigits 10 slot := by
    have := String.ofList_injective (RequestId.text.inj h)
    rwa [List.append_assoc, List.append_cancel_left_eq] at this
  -- zeros in front do not change the number, so the same digits would be longer
  have hvalue := congrArg (Nat.ofDigitChars 10 · 0) htext
  simp only [Nat.ofDigitChars_append, Nat.ofDigitChars_replicate_zero, Nat.mul_zero,
    Nat.ofDigitChars_ten_toDigits] at hvalue
  have hlength := congrArg List.length htext
  rw [hvalue, List.length_append, List.length_replicate] at hlength
  omega

namespace Envelope

/-- The identifier of a response that answers no slot of a list. -/
inductive Foreign (slots : List Nat) : Option RequestId → Prop
  | missing : Foreign slots none
  | number (n : Nat) : Foreign slots (some (.number n))
  /-- The number of a slot is written without zeros in front. -/
  | padded (zeros slot : Nat) : Foreign slots (some (.text (String.ofList
    ("block-".toList ++ List.replicate (zeros + 1) '0' ++ Nat.toDigits 10 slot))))
  | unlisted {id : RequestId} (h : ∀ slot ∈ slots, RequestId.ofSlot slot ≠ id) :
    Foreign slots (some id)

variable {slots : List Nat} {responses others : List Response} {slot : Nat}

theorem Foreign.ne_ofSlot {id : Option RequestId} (h : Foreign slots id) (hslot : slot ∈ slots) :
    id ≠ some (.ofSlot slot) := by
  cases h with
  | missing => exact nofun
  | number n => exact nofun
  | padded zeros other =>
    exact fun heq => RequestId.ofSlot_ne_padded _ _ _ (Option.some.inj heq).symm
  | unlisted h => exact fun heq => h slot hslot (Option.some.inj heq).symm

/-! ### What is left for later slots -/

/-- The responses that slots leave for those named later. -/
def leftBy (slots : List Nat) (responses : List Response) : List Response :=
  responses.filter fun response => slots.all fun slot => response.id != some (.ofSlot slot)

theorem outcomesOf_cons (slot : Nat) (slots : List Nat) (responses : List Response) :
    outcomesOf (slot :: slots) responses = (slot, answerTo responses slot) ::
      outcomesOf slots (responses.filter (·.id != some (.ofSlot slot))) := rfl

/-- Slots that are named later see what earlier ones have left. -/
theorem outcomesOf_append (first second : List Nat) (responses : List Response) :
    outcomesOf (first ++ second) responses =
      outcomesOf first responses ++ outcomesOf second (leftBy first responses) := by
  induction first generalizing responses with
  | nil => simp [leftBy, outcomesOf]
  | cons slot rest ih =>
    rw [List.cons_append, outcomesOf_cons, outcomesOf_cons, ih, List.cons_append]
    simp [leftBy, List.filter_filter, Bool.and_comm]

theorem map_fst_outcomesOf (slots : List Nat) (responses : List Response) :
    (outcomesOf slots responses).map (·.1) = slots := by
  induction slots generalizing responses with
  | nil => rfl
  | cons slot rest ih => rw [outcomesOf_cons, List.map_cons, ih]

theorem answerTo_leftBy (h : slot ∉ slots) :
    answerTo (leftBy slots responses) slot = answerTo responses slot := by
  induction slots generalizing responses with
  | nil => simp [leftBy]
  | cons other rest ih =>
    rw [List.mem_cons, not_or] at h
    have hleft : leftBy (other :: rest) responses =
        leftBy rest (responses.filter (·.id != some (.ofSlot other))) := by
      simp [leftBy, List.filter_filter, Bool.and_comm]
    rw [hleft, ih h.2, answerTo_filter (Ne.symm h.1)]

theorem answerTo_leftBy_of_mem (h : slot ∈ slots) :
    answerTo (leftBy slots responses) slot = .failed .noResponse := by
  have hnone : (leftBy slots responses).find? (·.id == some (.ofSlot slot)) = none := by
    rw [List.find?_eq_none]
    intro response hresponse heq
    have hleft := List.all_eq_true.mp (List.mem_filter.mp hresponse).2 slot h
    exact absurd (eq_of_beq heq) (bne_iff_ne.mp hleft)
  rw [answerTo, hnone]

theorem lookup_matchSlots_append {first second : List Nat} (h : slot ∉ second) :
    (matchSlots (first ++ slot :: second) responses).lookup slot =
      some (answerTo (leftBy first responses) slot) := by
  rw [matchSlots, outcomesOf_append, outcomesOf_cons]
  exact Outcomes.lookup_ofList_append (by rwa [map_fst_outcomesOf])

/-- A slot that is named once gets the first response with its identifier. -/
theorem lookup_matchSlots_of_count_eq_one (h : slots.count slot = 1) :
    (matchSlots slots responses).lookup slot = some (answerTo responses slot) := by
  obtain ⟨first, second, rfl⟩ := List.append_of_mem (List.count_pos_iff.mp (h ▸ Nat.one_pos))
  rw [List.count_append, List.count_cons_self] at h
  have hfirst : slot ∉ first := List.count_eq_zero.mp (by omega)
  have hsecond : slot ∉ second := List.count_eq_zero.mp (by omega)
  rw [lookup_matchSlots_append hsecond, answerTo_leftBy hfirst]

/-- A slot that is named several times gets none. -/
theorem lookup_matchSlots_of_repeated (h : 1 < slots.count slot) :
    (matchSlots slots responses).lookup slot = some (.failed .noResponse) := by
  -- the list is cut at the last place that names the slot
  obtain ⟨first, second, rfl, hsecond⟩ : ∃ first second, slots = first ++ slot :: second ∧
      slot ∉ second := by
    obtain ⟨second, first, hreverse, hnot⟩ := List.eq_append_cons_of_mem
      (List.mem_reverse.mpr (List.count_pos_iff.mp (Nat.zero_lt_of_lt h)))
    refine ⟨first.reverse, second.reverse, ?_, by simpa using hnot⟩
    rw [← List.reverse_reverse slots, hreverse]
    simp
  rw [List.count_append, List.count_cons_self, List.count_eq_zero.mpr hsecond] at h
  have hfirst : slot ∈ first := List.count_pos_iff.mp (by omega)
  rw [lookup_matchSlots_append hsecond, answerTo_leftBy_of_mem hfirst]

/-! ### What matters about the responses -/

/-- Responses with other identifiers do not matter, nor does the order of responses with different
ones. -/
theorem outcomesOf_congr (h : ∀ slot ∈ slots, responses.filter (·.id == some (.ofSlot slot)) =
    others.filter (·.id == some (.ofSlot slot))) :
    outcomesOf slots responses = outcomesOf slots others := by
  induction slots generalizing responses others with
  | nil => rfl
  | cons slot rest ih =>
    obtain ⟨hslot, hrest⟩ := List.forall_mem_cons.mp h
    have hanswer : answerTo responses slot = answerTo others slot := by
      rw [answerTo, answerTo, ← List.head?_filter, ← List.head?_filter, hslot]
    rw [outcomesOf_cons, outcomesOf_cons, hanswer]
    refine congrArg _ (ih fun other hother => ?_)
    -- Taking out the answers to one slot and looking for those to another can be exchanged.
    have hcomm (all : List Response) : (all.filter (·.id != some (.ofSlot slot))).filter
        (·.id == some (.ofSlot other)) = (all.filter (·.id == some (.ofSlot other))).filter
          (·.id != some (.ofSlot slot)) := List.filter_comm _ _ _
    rw [hcomm, hcomm, hrest other hother]

/-- **Matching, for any slots and any responses.**  There is an outcome for each slot and nothing
else.  A slot that is named once gets the first response with its identifier, and one that is named
several times gets none.  A response with an identifier of no slot might as well be missing, and
responses with different identifiers might as well change places. -/
theorem matching_for_any_slots (slots : List Nat) (responses : List Response) :
    (matchSlots slots responses).Pairwise (·.1 < ·.1) ∧
    (∀ slot, slot ∈ (matchSlots slots responses).map (·.1) ↔ slot ∈ slots) ∧
    (∀ slot, slots.count slot = 1 →
      (matchSlots slots responses).lookup slot = some (answerTo responses slot)) ∧
    (∀ slot, 1 < slots.count slot →
      (matchSlots slots responses).lookup slot = some (.failed .noResponse)) ∧
    (∀ before response after, responses = before ++ response :: after → Foreign slots response.id →
      matchSlots slots (before ++ after) = matchSlots slots responses) ∧
    ∀ others : List Response,
      (∀ id, others.filter (·.id == some id) = responses.filter (·.id == some id)) →
        matchSlots slots others = matchSlots slots responses := by
  refine ⟨Outcomes.pairwise_foldl_insert .nil, fun slot => ?_,
    fun _ h => lookup_matchSlots_of_count_eq_one h, fun _ h => lookup_matchSlots_of_repeated h,
    ?_, ?_⟩
  · rw [matchSlots, Outcomes.ofList, Outcomes.mem_keys_foldl_insert, map_fst_outcomesOf]
    simp
  · rintro before response after rfl hforeign
    refine congrArg Outcomes.ofList (outcomesOf_congr fun slot hslot => ?_)
    -- A foreign id is the id of none of the slots, so no search stops at it.
    have hid : (response.id == some (.ofSlot slot)) = false :=
      beq_eq_false_iff_ne.mpr (hforeign.ne_ofSlot hslot)
    simp [hid]
  · exact fun others h => congrArg Outcomes.ofList (outcomesOf_congr fun slot _ => h _)

/-- A slot that is named twice loses its block, one that is answered twice keeps the first answer,
and one with zeros in front answers nobody. -/
theorem matching_for_any_slots_five_twice :
    ∃ padded first second block : Response,
      padded = .success (.text "block-007") .null ∧ first = .success (.ofSlot 7) (.int 2) ∧
      second = .failure (.ofSlot 7) (-1) "late" ∧ block = .success (.ofSlot 5) (.int 3) ∧
      [5, 7, 5].count 7 = 1 ∧ 1 < [5, 7, 5].count 5 ∧ Foreign [5, 7, 5] padded.id ∧
      (matchSlots [5, 7, 5] [padded, first, second, block]).lookup 7 = some (.fetched (.int 2)) ∧
      (matchSlots [5, 7, 5] [padded, first, second, block]).lookup 5 =
        some (.failed .noResponse) ∧
      matchSlots [5, 7, 5] [first, second, block] =
        matchSlots [5, 7, 5] [padded, first, second, block] ∧
      matchSlots [5, 7, 5] [block, first, padded, second] =
        matchSlots [5, 7, 5] [padded, first, second, block] := by
  refine ⟨_, _, _, _, rfl, rfl, rfl, rfl, by decide, by decide, .padded 1 7, ?_, ?_, ?_, ?_⟩
  · exact (matching_for_any_slots _ _).2.2.1 7 (by decide)
  · exact (matching_for_any_slots _ _).2.2.2.1 5 (by decide)
  · exact (matching_for_any_slots _ _).2.2.2.2.1 [] _ _ rfl (.padded 1 7)
  · refine (matching_for_any_slots _ _).2.2.2.2.2 _ fun id => ?_
    by_cases hseven : id = .ofSlot 7
    · subst hseven
      decide
    · by_cases hfive : id = .ofSlot 5
      · subst hfive
        decide
      · simp [List.filter_cons, Response.success, Response.failure, Ne.symm hseven,
          Ne.symm hfive]

end Envelope

end Backfill
