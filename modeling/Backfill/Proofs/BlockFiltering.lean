import Backfill.Block
import Backfill.Proofs.IntegerText

/-!
# What a filter keeps of a block

A block may be any value.  A filter looks at one place of it, the list of transactions, and at one
place of each transaction, the list of its accounts; whatever stands elsewhere stays as it is.  So a
block with a list of transactions is cut into this list and a frame around it, and a filter is a
filter of lists inside the frame.

## Main definitions

* `Json.PointsTo` — a path leads from a value into a part of it, through objects and arrays.
* `Block.Names` — a transaction names an account.
* `BlockFilter.Keeps` — the transactions that a filter keeps.
* `Block.Frame` — a block without its transactions.

## Main results

* `Json.pointsTo_iff_at?` — a path of names leads through objects only.
* `Block.references_iff` — the accounts of a transaction are found where they should be.
* `BlockFilter.apply_fill` — a filter of blocks is a filter of lists inside a frame.
* `BlockFilter.apply_keeps_exactly` — **a filter keeps exactly the transactions that it should, in
  their order, and touches nothing else**; so it may be applied twice, and before or after another
  one.
-/

namespace Backfill

/-! ### Paths -/

namespace Json

/-- A path leads from a value to a part of it: a name leads into an object, and the digits of a
position into an array. -/
inductive PointsTo : Json → List String → Json → Prop
  | here (value : Json) : PointsTo value [] value
  | field {fields : List (String × Json)} {name : String} {path : List String}
    {value target : Json} (hfield : fields.lookup name = some value)
    (hpath : PointsTo value path target) : PointsTo (.obj fields) (name :: path) target
  | item {items : List Json} {position : Nat} {path : List String} {value target : Json}
    (hitem : items[position]? = some value) (hpath : PointsTo value path target) :
    PointsTo (.arr items) (Text.writeInteger position :: path) target

/-- **A path of names leads through objects only**, since none of its names is a position. -/
theorem pointsTo_iff_at? {path : List String}
    (hnames : ∀ name ∈ path, ∀ position, name ≠ Text.writeInteger position) {value target : Json} :
    value.PointsTo path target ↔ value.at? path = some target := by
  -- a name that is no position can only be that of a field
  induction path generalizing value with
  | nil =>
    constructor
    · rintro ⟨⟩
      rfl
    · intro h
      obtain rfl := Option.some.inj h
      exact .here value
  | cons name path ih =>
    obtain ⟨hname, hpath⟩ := List.forall_mem_cons.mp hnames
    rw [at?, List.foldlM_cons, Option.bind_eq_bind, Option.bind_eq_some_iff]
    constructor
    · intro h
      cases h with
      | field hfield hrest => exact ⟨_, hfield, (ih hpath).mp hrest⟩
      | item => exact absurd rfl (hname _)
    · rintro ⟨next, hnext, hrest⟩
      cases value with
      | obj fields => exact .field hnext ((ih hpath).mpr hrest)
      | _ => simp [get?] at hnext

theorem bind_array?_eq_some {found : Option Json} {items : List Json} :
    found.bind array? = some items ↔ found = some (.arr items) := by
  rw [Option.bind_eq_some_iff]
  constructor
  · rintro ⟨value, rfl, harray⟩
    cases value with
    | arr items => rw [Option.some.inj harray]
    | _ => cases harray
  · exact fun h => ⟨_, h, rfl⟩

theorem lookup_eq_some {key : String} {value : Json} {fields : List (String × Json)} :
    fields.lookup key = some value ↔ ∃ before after, fields = before ++ (key, value) :: after ∧
      ∀ field ∈ before, key ≠ field.1 := by
  simp only [List.lookup_eq_some_iff, bne_iff_ne]

theorem mapFirst_append_cons {key : String} {before : List (String × Json)}
    (h : ∀ field ∈ before, key ≠ field.1) (change : Json → Json) (value : Json)
    (after : List (String × Json)) : mapFirst key change (before ++ (key, value) :: after) =
      before ++ (key, change value) :: after := by
  induction before with
  | nil => simp [mapFirst]
  | cons field before ih =>
    obtain ⟨hfield, hbefore⟩ := List.forall_mem_cons.mp h
    rw [List.cons_append, mapFirst, beq_eq_false_iff_ne.mpr hfield, ih hbefore]
    rfl

end Json

/-! ### Accounts -/

namespace Block

/-- Where a transaction lists its accounts. -/
def accountPath : List String := ["transaction", "message", "accountKeys"]

/-- A transaction names an account: its list of accounts holds it, as a text or as the public key of
an object. -/
inductive Names (account : String) (transaction : Json) : Prop
  | text {keys : List Json} (hkeys : transaction.PointsTo accountPath (.arr keys))
    (hkey : .str account ∈ keys)
  | object {keys : List Json} {fields : List (String × Json)}
    (hkeys : transaction.PointsTo accountPath (.arr keys)) (hkey : .obj fields ∈ keys)
    (hname : fields.lookup "pubkey" = some (.str account))

theorem ne_writeInteger_of_mem_accountPath :
    ∀ name ∈ accountPath, ∀ position, name ≠ Text.writeInteger position := by
  have hletter : ∀ name ∈ accountPath, name.toList.all Char.isDigit = false := by decide
  rintro name hname position rfl
  obtain ⟨c, hc, hdigit⟩ := List.all_eq_false.mp (hletter _ hname)
  rw [Text.writeInteger, String.toList_ofList] at hc
  exact hdigit (Text.isDigit_of_mem_toDigits hc)

theorem namesAccount_iff {account : String} {key : Json} : namesAccount account key = true ↔
    key = .str account ∨ ∃ fields, key = .obj fields ∧
      fields.lookup "pubkey" = some (.str account) := by
  cases key with
  | obj fields =>
    simp only [namesAccount, beq_iff_eq, reduceCtorEq, Json.obj.injEq, exists_eq_left', false_or]
    rw [Option.bind_eq_some_iff]
    constructor
    · rintro ⟨found, hfound, htext⟩
      cases found with
      | str text => rw [hfound, Option.some.inj htext]
      | _ => cases htext
    · exact fun h => ⟨_, h, rfl⟩
  | _ => simp [namesAccount]

/-- **The accounts of a transaction are found where they should be.** -/
theorem references_iff {account : String} {transaction : Json} :
    references account transaction = true ↔ Names account transaction := by
  -- the path in the text of the filter is the one of the specification
  have hpath (keys : List Json) : transaction.PointsTo accountPath (.arr keys) ↔
      (transaction.at? accountPath).bind Json.array? = some keys := by
    rw [Json.pointsTo_iff_at? ne_writeInteger_of_mem_accountPath, Json.bind_array?_eq_some]
  have hany : references account transaction = true ↔
      ∃ keys, transaction.PointsTo accountPath (.arr keys) ∧
        ∃ key ∈ keys, namesAccount account key = true := by
    have hfound : references account transaction =
        ((transaction.at? accountPath).bind Json.array?).any (·.any (namesAccount account)) := by
      rw [references, accountPath]
      cases (transaction.at? ["transaction", "message", "accountKeys"]).bind Json.array? <;> rfl
    simp only [hpath, hfound]
    cases (transaction.at? accountPath).bind Json.array? <;> simp
  rw [hany]
  constructor
  · rintro ⟨keys, hkeys, key, hkey, hnames⟩
    rcases namesAccount_iff.mp hnames with rfl | ⟨fields, rfl, hname⟩
    · exact .text hkeys hkey
    · exact .object hkeys hkey hname
  · rintro (⟨hkeys, hkey⟩ | ⟨hkeys, hkey, hname⟩)
    · exact ⟨_, hkeys, _, hkey, namesAccount_iff.mpr (.inl rfl)⟩
    · exact ⟨_, hkeys, _, hkey, namesAccount_iff.mpr (.inr ⟨_, rfl, hname⟩)⟩

/-! ### Frames -/

/-- A block without its transactions: the fields before and behind them. -/
structure Frame where
  before : List (String × Json)
  after : List (String × Json)
  /-- No field before the transactions could be taken for them. -/
  first : ∀ field ∈ before, "transactions" ≠ field.1

/-- The block with these transactions. -/
def Frame.fill (frame : Frame) (transactions : List Json) : Json :=
  .obj (frame.before ++ ("transactions", .arr transactions) :: frame.after)

@[simp] theorem Frame.get?_fill (frame : Frame) (transactions : List Json) :
    (frame.fill transactions).get? "transactions" = some (.arr transactions) :=
  Json.lookup_eq_some.mpr ⟨frame.before, frame.after, rfl, frame.first⟩

theorem transactions?_eq_some {block : Json} {transactions : List Json} :
    transactions? block = some transactions ↔
      block.get? "transactions" = some (.arr transactions) :=
  Json.bind_array?_eq_some

@[simp] theorem Frame.transactions?_fill (frame : Frame) (transactions : List Json) :
    transactions? (frame.fill transactions) = some transactions :=
  transactions?_eq_some.mpr (frame.get?_fill transactions)

@[simp] theorem Frame.transactionCount_fill (frame : Frame) (transactions : List Json) :
    transactionCount (frame.fill transactions) = transactions.length := by
  simp [transactionCount]

theorem Frame.mapField_fill (frame : Frame) (change : Json → Json) {transactions kept : List Json}
    (h : change (.arr transactions) = .arr kept) :
    (frame.fill transactions).mapField "transactions" change = frame.fill kept := by
  rw [fill, Json.mapField, Json.mapFirst_append_cons frame.first, h, fill]

theorem Frame.fill_eq_mapField (frame : Frame) (transactions kept : List Json) :
    frame.fill kept = (frame.fill transactions).mapField "transactions" fun _ => .arr kept :=
  (frame.mapField_fill _ rfl).symm

theorem Frame.get?_fill_of_ne (frame : Frame) {key : String} (h : key ≠ "transactions")
    (transactions kept : List Json) :
    (frame.fill kept).get? key = (frame.fill transactions).get? key := by
  rw [frame.fill_eq_mapField transactions, Json.get?_mapField_of_ne h]

theorem exists_frame_of_transactions? {block : Json} {transactions : List Json}
    (h : transactions? block = some transactions) :
    ∃ frame : Frame, block = frame.fill transactions := by
  have hfound := transactions?_eq_some.mp h
  cases block with
  | obj fields =>
    obtain ⟨before, after, rfl, hfirst⟩ := Json.lookup_eq_some.mp hfound
    exact ⟨⟨before, after, hfirst⟩, rfl⟩
  | _ => cases hfound

end Block

/-! ### Filters -/

namespace BlockFilter

open Block

/-- The transactions that a filter keeps: those that name its account, if it has one. -/
def Keeps (filter : BlockFilter) (transaction : Json) : Prop :=
  ∀ account ∈ filter.account, Names account transaction

theorem all_references_iff {filter : BlockFilter} {transaction : Json} :
    filter.account.all (references · transaction) = true ↔ filter.Keeps transaction := by
  cases h : filter.account <;> simp [Keeps, h, references_iff]

instance (filter : BlockFilter) : DecidablePred filter.Keeps := fun _ =>
  decidable_of_iff _ all_references_iff

/-- Where there is no list of transactions, nothing is kept. -/
theorem apply_of_transactions?_eq_none (filter : BlockFilter) {block : Json}
    (h : transactions? block = none) : filter.apply block = none := by
  unfold apply
  cases filter.account with
  | none => simp [transactionCount, h]
  | some account =>
    -- what is no array of transactions does not become one
    have hretain : ∀ value : Json, value.array? = none → (retain account value).array? = none := by
      intro value hvalue
      cases value with
      | arr items => cases hvalue
      | _ => exact hvalue
    have hkept : transactions? (block.mapField "transactions" (retain account)) = none := by
      rw [transactions?, Json.get?_mapField_self]
      rw [transactions?] at h
      cases hfound : block.get? "transactions" with
      | none => rfl
      | some value =>
        rw [hfound] at h
        exact hretain value h
    simp [transactionCount, hkept]

/-- **A filter of blocks is a filter of lists inside a frame**; of a block without transactions
nothing is kept. -/
theorem apply_fill (filter : BlockFilter) (frame : Frame) (transactions : List Json) :
    filter.apply (frame.fill transactions) =
      if transactions.filter filter.Keeps = [] then none
      else some (frame.fill (transactions.filter filter.Keeps)) := by
  -- what is kept, whether or not there is an account
  obtain ⟨kept, hkept, hfill⟩ : ∃ kept, transactions.filter filter.Keeps = kept ∧
      filter.apply (frame.fill transactions) =
        if 0 < transactionCount (frame.fill kept) then some (frame.fill kept) else none := by
    refine ⟨_, rfl, ?_⟩
    cases haccount : filter.account with
    | none =>
      have hall : transactions.filter filter.Keeps = transactions :=
        List.filter_eq_self.mpr fun _ _ => decide_eq_true fun _ h => by simp [haccount] at h
      rw [hall, apply, haccount]
    | some account =>
      have hsame : transactions.filter filter.Keeps =
          transactions.filter (references account) := by
        refine List.filter_congr fun transaction _ => ?_
        rw [Bool.eq_iff_iff, decide_eq_true_iff, ← all_references_iff, haccount, Option.all_some]
      have hretain : retain account (.arr transactions) =
          .arr (transactions.filter filter.Keeps) := by rw [hsame, retain]
      rw [apply, haccount, ← frame.mapField_fill _ hretain]
  rw [hfill, hkept, Frame.transactionCount_fill]
  by_cases hnil : kept = []
  · rw [if_pos hnil, hnil, if_neg (by simp)]
  · rw [if_neg hnil, if_pos (List.length_pos_iff.mpr hnil)]

theorem apply_fill_eq_none (filter : BlockFilter) (frame : Frame) (transactions : List Json) :
    filter.apply (frame.fill transactions) = none ↔
      ∀ transaction ∈ transactions, ¬filter.Keeps transaction := by
  have hnil : transactions.filter filter.Keeps = [] ↔
      ∀ transaction ∈ transactions, ¬filter.Keeps transaction := by simp
  rw [apply_fill, ← hnil]
  split
  next h => exact iff_of_true rfl h
  next h => exact iff_of_false nofun h

theorem apply_fill_filter (filter : BlockFilter) (frame : Frame) {transactions : List Json}
    (h : transactions.filter filter.Keeps ≠ []) :
    filter.apply (frame.fill (transactions.filter filter.Keeps)) =
      some (frame.fill (transactions.filter filter.Keeps)) := by
  rw [apply_fill, List.filter_filter]
  simp only [Bool.and_self]
  rw [if_neg h]

theorem apply_cases (filter : BlockFilter) (block : Json) :
    (transactions? block = none ∧ filter.apply block = none) ∨
      ∃ (frame : Frame) (transactions : List Json), block = frame.fill transactions ∧
        filter.apply block = if transactions.filter filter.Keeps = [] then none
          else some (frame.fill (transactions.filter filter.Keeps)) := by
  cases h : transactions? block with
  | none => exact .inl ⟨rfl, filter.apply_of_transactions?_eq_none h⟩
  | some transactions =>
    obtain ⟨frame, rfl⟩ := exists_frame_of_transactions? h
    exact .inr ⟨frame, transactions, rfl, filter.apply_fill frame transactions⟩

/-- What two filters keep one after the other: the transactions that both of them keep. -/
theorem apply_bind_apply_fill (first second : BlockFilter) (frame : Frame)
    (transactions : List Json) : (first.apply (frame.fill transactions)).bind second.apply =
      if transactions.filter (fun transaction => first.Keeps transaction ∧
        second.Keeps transaction) = [] then none
      else some (frame.fill (transactions.filter fun transaction =>
        first.Keeps transaction ∧ second.Keeps transaction)) := by
  -- filtering twice keeps what both filters keep
  have hboth : (transactions.filter first.Keeps).filter second.Keeps =
      transactions.filter fun transaction => first.Keeps transaction ∧ second.Keeps transaction := by
    rw [List.filter_filter]
    refine List.filter_congr fun transaction _ => ?_
    rw [Bool.and_comm, Bool.decide_and]
  rw [apply_fill]
  by_cases hnil : transactions.filter first.Keeps = []
  · rw [hnil] at hboth
    rw [if_pos hnil, ← hboth]
    rfl
  · rw [if_neg hnil, Option.bind_some, apply_fill, hboth]

/-- **A filter keeps exactly the transactions that it should, in their order, and touches nothing
else.**  Nothing is kept of a block that has no list of transactions, or none that the filter keeps.
What was kept is kept again as it is, and of two filters it does not matter which comes first. -/
theorem apply_keeps_exactly (filter : BlockFilter) (block : Json) :
    (filter.apply block = none ↔ ∀ transactions,
      block.get? "transactions" = some (.arr transactions) →
        ∀ transaction ∈ transactions, ¬filter.Keeps transaction) ∧
    (∀ rest, filter.apply block = some rest →
      (∃ (frame : Frame) (transactions : List Json), block = frame.fill transactions ∧
        rest = frame.fill (transactions.filter filter.Keeps)) ∧
      (∀ key, key ≠ "transactions" → rest.get? key = block.get? key) ∧
      filter.apply rest = some rest) ∧
    ∀ other : BlockFilter,
      (filter.apply block).bind other.apply = (other.apply block).bind filter.apply := by
  -- either there are no transactions to look at, or the block is a frame around them
  rcases filter.apply_cases block with ⟨hblock, happly⟩ | ⟨frame, transactions, rfl, happly⟩
  · refine ⟨iff_of_true happly fun transactions h => ?_, fun rest hrest => ?_, fun other => ?_⟩
    · cases hblock.symm.trans (transactions?_eq_some.mpr h)
    · cases happly.symm.trans hrest
    · rw [happly, other.apply_of_transactions?_eq_none hblock]
      rfl
  · refine ⟨?_, fun rest hrest => ?_, fun other => ?_⟩
    · rw [apply_fill_eq_none]
      constructor
      · intro h found hfound
        obtain ⟨⟩ := (frame.get?_fill transactions).symm.trans hfound
        exact h
      · exact fun h => h transactions (frame.get?_fill transactions)
    · by_cases hnil : transactions.filter filter.Keeps = []
      · rw [happly, if_pos hnil] at hrest
        cases hrest
      · rw [happly, if_neg hnil] at hrest
        obtain rfl := Option.some.inj hrest
        exact ⟨⟨frame, transactions, rfl, rfl⟩,
          fun key hkey => frame.get?_fill_of_ne hkey transactions _,
          filter.apply_fill_filter frame hnil⟩
    · rw [apply_bind_apply_fill, apply_bind_apply_fill]
      simp only [and_comm]

/-- An account may be named by an object, but the way to the accounts does not lead through an
array. -/
example :
    let kept : Json := .obj [("transaction", .obj [("message", .obj [("accountKeys",
      .arr [.str "b", .obj [("pubkey", .str "a")]])])])]
    let other : Json := .obj [("transaction", .arr [.obj [("message", .obj [("accountKeys",
      .arr [.str "a"])])]])]
    BlockFilter.apply ⟨some "a"⟩ (.obj [("blockhash", .str "h"), ("transactions",
      .arr [other, kept])]) =
        some (.obj [("blockhash", .str "h"), ("transactions", .arr [kept])]) := by decide

end BlockFilter

end Backfill
