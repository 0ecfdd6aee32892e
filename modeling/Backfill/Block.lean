import Backfill.Json
import Backfill.Word

/-!
# Blocks

A block is any JSON value; of its contents only the list of transactions matters, and of a
transaction only the accounts that it names.

## Main definitions

* `Block.transactions?` — the transactions of a block.
* `Block.transactionCount` — how many there are.
* `Block.references` — whether a transaction names an account.
* `BlockFilter` — which transactions of a block are handed on; `BlockFilter.apply` is what
  remains of a block.
* `Block.summary` — a short description of a block.

## Main results

* `Json.get?_mapField_self`, `Json.get?_mapField_of_ne` — changing a field changes that field
  and no other.
-/

namespace Backfill

namespace Json

/-- Changes the value of the first field with this name. -/
def mapFirst (key : String) (change : Json → Json) :
    List (String × Json) → List (String × Json)
  | [] => []
  | (k, v) :: rest => if key == k then (k, change v) :: rest else (k, v) :: mapFirst key change rest

/-- Changes the value of the field with this name, if the value is an object that has one. -/
def mapField (key : String) (change : Json → Json) : Json → Json
  | .obj fields => .obj (mapFirst key change fields)
  | value => value

/-- The changed field holds the changed value. -/
theorem get?_mapField_self (key : String) (change : Json → Json) (value : Json) :
    (value.mapField key change).get? key = (value.get? key).map change := by
  cases value with
  | obj fields =>
    simp only [mapField, get?]
    induction fields with
    | nil => rfl
    | cons field rest ih =>
      obtain ⟨k, v⟩ := field
      simp only [mapFirst, List.lookup_cons]
      cases h : key == k with
      | true => simp [List.lookup_cons, h]
      | false => simp [List.lookup_cons, h, ih]
  | _ => rfl

/-- Every other field is untouched. -/
theorem get?_mapField_of_ne {key other : String} (h : other ≠ key) (change : Json → Json)
    (value : Json) : (value.mapField key change).get? other = value.get? other := by
  cases value with
  | obj fields =>
    simp only [mapField, get?]
    induction fields with
    | nil => rfl
    | cons field rest ih =>
      obtain ⟨k, v⟩ := field
      simp only [mapFirst]
      cases hk : key == k with
      | true =>
        have hok : (other == k) = false := by
          rw [beq_eq_false_iff_ne]
          intro heq
          exact h (heq.trans (beq_iff_eq.mp hk).symm)
        simp [List.lookup_cons, hok]
      | false => simp [List.lookup_cons, ih]
  | _ => rfl

end Json

namespace Block

/-- The transactions of a block, if it has a list of them. -/
def transactions? (block : Json) : Option (List Json) := (block.get? "transactions").bind Json.array?

/-- Number of transactions of a block. -/
def transactionCount (block : Json) : Nat := ((transactions? block).map List.length).getD 0

/-- Whether an entry of a list of accounts is the given account: a name, or an object that
gives the name as its `pubkey`. -/
def namesAccount (account : String) : Json → Bool
  | .str name => name == account
  | .obj fields => (fields.lookup "pubkey").bind Json.string? == some account
  | _ => false

/-- Whether a transaction names an account. -/
def references (account : String) (transaction : Json) : Bool :=
  match (transaction.at? ["transaction", "message", "accountKeys"]).bind Json.array? with
  | some keys => keys.any (namesAccount account)
  | none => false

/-- Keeps the transactions of a list that name the account. -/
def retain (account : String) : Json → Json
  | .arr transactions => .arr (transactions.filter (references account))
  | value => value

/-- A short description of a block: its own fields, and the size of its lists. -/
def summary (slot : Nat) (block : Json) : Json :=
  let rewards := (block.get? "rewards").bind Json.array?
  let known := fun key => match block.get? key with
    | none => []
    | some .null => []
    | some value => [(key, value)]
  .obj (Json.sortFields (
    [("blockNumber", .int slot),
      ("blockhash", (block.get? "blockhash").getD .null),
      ("parentSlot", (block.get? "parentSlot").getD .null),
      ("transactionCount", .int (transactionCount block)),
      ("rewardCount", .int ((rewards.map List.length).getD 0 : Nat))] ++
    known "blockHeight" ++ known "blockTime"))

end Block

/-- Which transactions of a block are handed on: all, or those that name an account. -/
structure BlockFilter where
  account : Option String
deriving DecidableEq, Repr, Inhabited

namespace BlockFilter

/-- What remains of a block, if any transaction remains. -/
def apply (filter : BlockFilter) (block : Json) : Option Json :=
  let kept := match filter.account with
    | some account => block.mapField "transactions" (Block.retain account)
    | none => block
  if 0 < Block.transactionCount kept then some kept else none

end BlockFilter

end Backfill
