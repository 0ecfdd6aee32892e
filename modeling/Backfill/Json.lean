/-!
# JSON values

A number is either an integer of at most 64 bits, signed or unsigned, or a 64-bit
floating-point number, which is kept as its bits.  The fields of an object are kept as they
were written, repeated names included; the canonical form sorts them by name and keeps the
last of several fields with one name.

## Main definitions

* `Json` — a value.
* `Json.canonical` — its canonical form.
* `Json.get?`, `Json.at?`, `Json.array?`, `Json.string?` — looking into a value.
* `Json.depth` — how deeply arrays and objects are nested.

## Main results

* `Json.get?_obj` — looking a name up in an object.
-/

namespace Backfill

/-- A JSON value. -/
inductive Json
  | null
  | bool (value : Bool)
  /-- A number without fraction or exponent that fits in 64 bits. -/
  | int (value : Int)
  /-- Any other number, as the bits of a floating-point number. -/
  | real (bits : UInt64)
  | str (text : String)
  | arr (items : List Json)
  | obj (fields : List (String × Json))
deriving Repr, Inhabited

namespace Json

/-! ### Equality -/

mutual

/-- Whether two values are the same, fields in the same order. -/
def sameAs : Json → Json → Bool
  | .null, .null => true
  | .bool a, .bool b => a == b
  | .int a, .int b => a == b
  | .real a, .real b => a == b
  | .str a, .str b => a == b
  | .arr a, .arr b => sameItems a b
  | .obj a, .obj b => sameFields a b
  | _, _ => false

/-- Whether two lists of values are the same. -/
def sameItems : List Json → List Json → Bool
  | [], [] => true
  | a :: as, b :: bs => sameAs a b && sameItems as bs
  | _, _ => false

/-- Whether two lists of fields are the same. -/
def sameFields : List (String × Json) → List (String × Json) → Bool
  | [], [] => true
  | (k, a) :: as, (l, b) :: bs => k == l && sameAs a b && sameFields as bs
  | _, _ => false

end

mutual

theorem sameAs_iff : ∀ a b : Json, sameAs a b = true ↔ a = b
  | .null, b => by cases b <;> simp [sameAs]
  | .bool a, b => by cases b <;> simp [sameAs]
  | .int a, b => by cases b <;> simp [sameAs]
  | .real a, b => by cases b <;> simp [sameAs]
  | .str a, b => by cases b <;> simp [sameAs]
  | .arr a, b => by cases b <;> simp [sameAs, sameItems_iff a]
  | .obj a, b => by cases b <;> simp [sameAs, sameFields_iff a]

theorem sameItems_iff : ∀ as bs : List Json, sameItems as bs = true ↔ as = bs
  | [], bs => by cases bs <;> simp [sameItems]
  | a :: as, bs => by cases bs <;> simp [sameItems, sameAs_iff a, sameItems_iff as]

theorem sameFields_iff : ∀ as bs : List (String × Json), sameFields as bs = true ↔ as = bs
  | [], bs => by cases bs <;> simp [sameFields]
  | (k, a) :: as, bs => by
    cases bs with
    | nil => simp [sameFields]
    | cons b bs =>
      obtain ⟨l, b⟩ := b
      simp [sameFields, sameAs_iff a, sameFields_iff as, and_assoc]

end

instance : DecidableEq Json := fun a b => decidable_of_iff _ (sameAs_iff a b)

/-! ### The canonical form -/

/-- Puts a field into a list of fields sorted by name, replacing a field of that name. -/
def insertField (key : String) (value : Json) : List (String × Json) → List (String × Json)
  | [] => [(key, value)]
  | (k, v) :: rest =>
    if key < k then (key, value) :: (k, v) :: rest
    else if key = k then (key, value) :: rest
    else (k, v) :: insertField key value rest

/-- Sorts fields by name; of several fields with one name the last one stays. -/
def sortFields (fields : List (String × Json)) : List (String × Json) :=
  fields.foldl (fun sorted field => insertField field.1 field.2 sorted) []

mutual

/-- The value with the fields of every object sorted by name, each name once. -/
def canonical : Json → Json
  | .arr items => .arr (canonicalItems items)
  | .obj fields => .obj (sortFields (canonicalFields fields))
  | value => value

/-- The canonical forms of a list of values. -/
def canonicalItems : List Json → List Json
  | [] => []
  | item :: rest => canonical item :: canonicalItems rest

/-- The same fields with canonical values. -/
def canonicalFields : List (String × Json) → List (String × Json)
  | [] => []
  | (key, value) :: rest => (key, canonical value) :: canonicalFields rest

end

/-! ### Nesting -/

mutual

/-- How deeply arrays and objects are nested. -/
def depth : Json → Nat
  | .arr items => depthItems items + 1
  | .obj fields => depthFields fields + 1
  | _ => 0

/-- The largest depth in a list of values. -/
def depthItems : List Json → Nat
  | [] => 0
  | item :: rest => max (depth item) (depthItems rest)

/-- The largest depth in a list of fields. -/
def depthFields : List (String × Json) → Nat
  | [] => 0
  | (_, value) :: rest => max (depth value) (depthFields rest)

end

/-! ### Looking into a value -/

/-- The value of the field with this name, if the value is an object that has one. -/
def get? : Json → String → Option Json
  | .obj fields, key => fields.lookup key
  | _, _ => none

/-- The value found by following names from object to object. -/
def at? (value : Json) (path : List String) : Option Json :=
  path.foldlM get? value

/-- The items, if the value is an array. -/
def array? : Json → Option (List Json)
  | .arr items => some items
  | _ => none

/-- The text, if the value is a string. -/
def string? : Json → Option String
  | .str text => some text
  | _ => none

/-- Looking a name up in an object. -/
@[simp] theorem get?_obj (fields : List (String × Json)) (key : String) :
    (Json.obj fields).get? key = fields.lookup key := rfl

end Json

end Backfill
