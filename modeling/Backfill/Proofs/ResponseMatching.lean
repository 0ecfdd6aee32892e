import Backfill.Rpc.Envelope
import Backfill.Text.Basic
import Backfill.Proofs.AccountEntries

/-!
# Matching responses with slots

Each slot takes the first response that has its identifier, and takes all others with that
identifier away.  Identifiers of different slots are different, so what one slot takes away no other
slot misses, and each slot of a list without repeats may look at all responses.

## Main definitions

* `Envelope.answerTo` — what the responses say about a slot.

## Main results

* `RequestId.ofSlot_injective` — different slots have different identifiers.
* `Envelope.outcomesOf_eq_map` — slots without repeats do not take responses away from each other.
* `Envelope.lookup_matchSlots`, `Envelope.keys_matchSlots` — what is found for the slots, and that
  nothing else is found.
-/

namespace Backfill

/-! ### Identifiers -/

namespace RequestId

/-- Different slots have different identifiers. -/
theorem ofSlot_injective {slot other : Nat} (h : ofSlot slot = ofSlot other) : slot = other := by
  have htext : "block-".toList ++ Nat.toDigits 10 slot = "block-".toList ++ Nat.toDigits 10 other :=
    String.ofList_injective (RequestId.text.inj h)
  exact Text.toDigits_injective (List.append_cancel_left htext)

end RequestId

/-! ### Outcomes in order -/

namespace Outcomes

/-- An outcome of a new slot is added, and all others stay. -/
theorem keys_insert {slot : Nat} {outcomes : Outcomes} (h : slot ∉ outcomes.map (·.1))
    (outcome : Outcome) :
    ((insert slot outcome outcomes).map (·.1)).Perm (slot :: outcomes.map (·.1)) := by
  induction outcomes with
  | nil => exact .refl _
  | cons pair rest ih =>
    obtain ⟨other, found⟩ := pair
    rw [List.map_cons, List.mem_cons, not_or] at h
    simp only [insert]
    split
    case isTrue => exact .refl _
    case isFalse =>
      rw [if_neg h.1]
      exact ((ih h.2).cons other).trans (.swap slot other _)

/-- The slots of outcomes that are gathered one after the other. -/
theorem keys_foldl_insert {pairs : List (Nat × Outcome)} {outcomes : Outcomes}
    (h : (pairs.map (·.1) ++ outcomes.map (·.1)).Nodup) :
    ((pairs.foldl (fun outcomes pair => insert pair.1 pair.2 outcomes) outcomes).map (·.1)).Perm
      (pairs.map (·.1) ++ outcomes.map (·.1)) := by
  induction pairs generalizing outcomes with
  | nil => exact .refl _
  | cons pair rest ih =>
    obtain ⟨hpair, hrest⟩ := List.nodup_cons.mp h
    have hkeys := keys_insert (fun hmem => hpair (List.mem_append_right _ hmem)) pair.2
    -- the slot that has been put in moves from those gathered before to those still to come
    have hmiddle : (rest.map (·.1) ++ (insert pair.1 pair.2 outcomes).map (·.1)).Perm
        (pair.1 :: (rest.map (·.1) ++ outcomes.map (·.1))) :=
      (hkeys.append_left _).trans List.perm_middle
    exact (ih (hmiddle.nodup_iff.mpr h)).trans hmiddle

theorem keys_ofList {pairs : List (Nat × Outcome)} (h : (pairs.map (·.1)).Nodup) :
    ((ofList pairs).map (·.1)).Perm (pairs.map (·.1)) := by
  have hkeys := @keys_foldl_insert pairs [] (by rwa [List.map_nil, List.append_nil])
  rwa [List.map_nil, List.append_nil] at hkeys

end Outcomes

/-! ### Responses -/

namespace Envelope

variable {slots : List Nat} {responses : List Response} {slot : Nat}

/-- What the responses say about a slot. -/
def answerTo (responses : List Response) (slot : Nat) : Outcome :=
  match responses.find? (·.id == some (.ofSlot slot)) with
  | some response => response.outcome
  | none => .failed .noResponse

theorem answerTo_filter {other : Nat} (h : other ≠ slot) :
    answerTo (responses.filter (·.id != some (.ofSlot other))) slot = answerTo responses slot := by
  have hkept (response : Response) :
      decide ((response.id != some (.ofSlot other)) = true ∧
        (response.id == some (.ofSlot slot)) = true) = (response.id == some (.ofSlot slot)) := by
    by_cases hid : response.id = some (.ofSlot slot)
    · have hne : RequestId.ofSlot slot ≠ .ofSlot other :=
        fun heq => h (RequestId.ofSlot_injective heq).symm
      simp [hid, hne]
    · simp [hid]
  simp only [answerTo, List.find?_filter, hkept]

/-- Slots without repeats do not take responses away from each other. -/
theorem outcomesOf_eq_map (h : slots.Nodup) (responses : List Response) :
    outcomesOf slots responses = slots.map fun slot => (slot, answerTo responses slot) := by
  induction slots generalizing responses with
  | nil => rfl
  | cons slot rest ih =>
    obtain ⟨hslot, hrest⟩ := List.nodup_cons.mp h
    have hmap : (rest.map fun other =>
          (other, answerTo (responses.filter (·.id != some (.ofSlot slot))) other)) =
        rest.map fun other => (other, answerTo responses other) := by
      refine List.map_congr_left fun other hother => ?_
      rw [answerTo_filter (ne_of_mem_of_not_mem hother hslot).symm]
    rw [List.map_cons, ← hmap, ← ih hrest]
    rfl

/-- Each slot is found with what the responses say about it. -/
theorem lookup_matchSlots (h : slots.Nodup) (hslot : slot ∈ slots) :
    (matchSlots slots responses).lookup slot = some (answerTo responses slot) := by
  rw [matchSlots, outcomesOf_eq_map h, Outcomes.ofList]
  exact Accounts.lookup_foldl_insert (.inl hslot)

/-- No other slot is found. -/
theorem keys_matchSlots (h : slots.Nodup) (responses : List Response) :
    ((matchSlots slots responses).map (·.1)).Perm slots := by
  have hkeys : (outcomesOf slots responses).map (·.1) = slots := by
    rw [outcomesOf_eq_map h, List.map_map]
    exact List.map_id' slots
  have hperm := @Outcomes.keys_ofList (outcomesOf slots responses) (by rwa [hkeys])
  rwa [hkeys] at hperm

end Envelope

end Backfill
