import Backfill.Proofs.JsonNumbers
import Backfill.Proofs.JsonStrings
import Backfill.Json.Reader

/-!
# Values come back

A value whose numbers are integers that fit is read again from its text, whatever follows the text,
unless what follows goes on a number.  The text has no blanks, and each of its parts starts with a
character that tells what it is: no value starts with the bracket that ends an array.

## Main definitions

* `Json.isExact` — all numbers of a value are integers that fit in 64 bits.
* `Json.Fits` — such a value whose arrays and objects are not nested too deeply.
* `Json.ReadsBack` — a value is read again from its text.

## Main results

* `Json.inductionOn` — induction over a value.
* `Json.elements_moreItems`, `Json.members_fromName` — the items of an array and the fields of an
  object are read again if each of them is.
* `Json.readsBack` — a value that fits is read again.
* `Json.read_render` — a text that is a value is read as that value.
-/

namespace Backfill

namespace Json

/-! ### Values -/

/-- What holds of an array may be shown from its items, and what holds of an object from the values
of its fields. -/
@[elab_as_elim]
theorem inductionOn {motive : Json → Prop} (value : Json) (null : motive .null)
    (bool : ∀ b, motive (.bool b)) (int : ∀ n, motive (.int n)) (real : ∀ bits, motive (.real bits))
    (str : ∀ text, motive (.str text))
    (arr : ∀ items, (∀ item ∈ items, motive item) → motive (.arr items))
    (obj : ∀ fields, (∀ field ∈ fields, motive field.2) → motive (.obj fields)) : motive value :=
  @Json.rec motive (fun items => ∀ item ∈ items, motive item)
    (fun fields => ∀ field ∈ fields, motive field.2) (fun field => motive field.2)
    null bool int real str arr obj
    (fun _ h => absurd h List.not_mem_nil)
    (fun _ _ hitem hrest => List.forall_mem_cons.mpr ⟨hitem, hrest⟩)
    (fun _ h => absurd h List.not_mem_nil)
    (fun _ _ hfield hrest => List.forall_mem_cons.mpr ⟨hfield, hrest⟩)
    (fun _ _ hvalue => hvalue) value

mutual

/-- Whether all numbers of a value are integers that fit in 64 bits. -/
def isExact : Json → Bool
  | .int n => decide (InRange n)
  | .real _ => false
  | .arr items => itemsExact items
  | .obj fields => fieldsExact fields
  | _ => true

/-- Whether this holds of all items of a list. -/
def itemsExact : List Json → Bool
  | [] => true
  | item :: rest => isExact item && itemsExact rest

/-- Whether this holds of the values of all fields. -/
def fieldsExact : List (String × Json) → Bool
  | [] => true
  | (_, value) :: rest => isExact value && fieldsExact rest

end

theorem itemsExact_iff {items : List Json} :
    itemsExact items = true ↔ ∀ item ∈ items, item.isExact = true := by
  induction items with
  | nil => simp [itemsExact]
  | cons item rest ih => simp [itemsExact, ih]

theorem fieldsExact_iff {fields : List (String × Json)} :
    fieldsExact fields = true ↔ ∀ field ∈ fields, field.2.isExact = true := by
  induction fields with
  | nil => simp [fieldsExact]
  | cons field rest ih => simp [fieldsExact, ih]

theorem depthItems_le_iff {items : List Json} {depth : Nat} :
    depthItems items ≤ depth ↔ ∀ item ∈ items, item.depth ≤ depth := by
  induction items with
  | nil => simp [depthItems]
  | cons item rest ih => rw [depthItems, Nat.max_le, ih, List.forall_mem_cons]

theorem depthFields_le_iff {fields : List (String × Json)} {depth : Nat} :
    depthFields fields ≤ depth ↔ ∀ field ∈ fields, field.2.depth ≤ depth := by
  induction fields with
  | nil => simp [depthFields]
  | cons field rest ih => rw [depthFields, Nat.max_le, ih, List.forall_mem_cons]

/-- A value that is read again if arrays and objects may be nested `levels` deep. -/
structure Fits (levels : Nat) (value : Json) : Prop where
  exact : value.isExact
  depth : value.depth ≤ levels

instance (levels : Nat) (value : Json) : Decidable (Fits levels value) :=
  decidable_of_iff (value.isExact ∧ value.depth ≤ levels) ⟨fun h => ⟨h.1, h.2⟩, fun h => ⟨h.1, h.2⟩⟩

theorem Fits.mono {levels more : Nat} {value : Json} (h : value.Fits levels) (hle : levels ≤ more) :
    value.Fits more :=
  ⟨h.exact, Nat.le_trans h.depth hle⟩

@[simp] theorem fits_null (levels : Nat) : null.Fits levels := ⟨rfl, Nat.zero_le _⟩

@[simp] theorem fits_bool (levels : Nat) (b : Bool) : (bool b).Fits levels := ⟨rfl, Nat.zero_le _⟩

@[simp] theorem fits_str (levels : Nat) (text : String) : (str text).Fits levels :=
  ⟨rfl, Nat.zero_le _⟩

@[simp] theorem fits_int (levels : Nat) (n : Int) : (int n).Fits levels ↔ InRange n :=
  ⟨fun h => of_decide_eq_true h.exact, fun h => ⟨decide_eq_true h, Nat.zero_le _⟩⟩

theorem inRange_of_le {n : Nat} (h : n ≤ Word.max) : InRange n :=
  ⟨Int.le_trans (by decide) (Int.natCast_nonneg n), Int.ofNat_le.mpr h⟩

theorem fits_arr {levels : Nat} {items : List Json} :
    (arr items).Fits (levels + 1) ↔ ∀ item ∈ items, item.Fits levels := by
  constructor
  · intro h item hitem
    exact ⟨itemsExact_iff.mp h.exact item hitem,
      depthItems_le_iff.mp (Nat.le_of_succ_le_succ h.depth) item hitem⟩
  · intro h
    exact ⟨itemsExact_iff.mpr fun item hitem => (h item hitem).exact,
      Nat.succ_le_succ (depthItems_le_iff.mpr fun item hitem => (h item hitem).depth)⟩

theorem fits_obj {levels : Nat} {fields : List (String × Json)} :
    (obj fields).Fits (levels + 1) ↔ ∀ field ∈ fields, field.2.Fits levels := by
  constructor
  · intro h field hfield
    exact ⟨fieldsExact_iff.mp h.exact field hfield,
      depthFields_le_iff.mp (Nat.le_of_succ_le_succ h.depth) field hfield⟩
  · intro h
    exact ⟨fieldsExact_iff.mpr fun field hfield => (h field hfield).exact,
      Nat.succ_le_succ (depthFields_le_iff.mpr fun field hfield => (h field hfield).depth)⟩

/-! ### The first character -/

theorem skipBlank_cons {glyph : Glyph} (h : isBlank glyph = false) (text : List Glyph) :
    skipBlank (glyph :: text) = glyph :: text :=
  List.dropWhile_cons_of_neg (by simp [h])

/-- Whether a value may start with this character: no blank does, nor the end of an array. -/
def StartsValue (c : Char) : Prop := isBlank (some c) = false ∧ c ≠ ']'

instance (c : Char) : Decidable (StartsValue c) := inferInstanceAs (Decidable (_ ∧ _))

theorem startsValue_of_isDigit {c : Char} (h : c.isDigit) : StartsValue c := by
  refine ⟨?_, ne_of_isDigit h rfl⟩
  have hspace : c ≠ ' ' := ne_of_isDigit h rfl
  have hnewline : c ≠ '\n' := ne_of_isDigit h rfl
  have htab : c ≠ '\t' := ne_of_isDigit h rfl
  have hreturn : c ≠ '\r' := ne_of_isDigit h rfl
  simp [isBlank, hspace, hnewline, htab, hreturn]

/-- The text of a value has a first character. -/
theorem exists_chars_eq_cons {value : Json} (h : value.isExact) :
    ∃ c rest, value.chars = c :: rest ∧ StartsValue c := by
  -- An empty list or object is written in its own way, so these two are told apart once more.
  cases value with
  | null => exact ⟨_, _, rfl, by decide⟩
  | bool b => cases b <;> exact ⟨_, _, rfl, by decide⟩
  | int n =>
    cases n with
    | ofNat n =>
      obtain ⟨c, rest, hn, hdigit⟩ := exists_toDigits_eq_cons n
      exact ⟨c, rest, hn, startsValue_of_isDigit hdigit⟩
    | negSucc n => exact ⟨_, _, rfl, by decide⟩
  | real bits => exact absurd h (by simp [isExact])
  | str text => exact ⟨_, _, rfl, by decide⟩
  | arr items => cases items <;> exact ⟨_, _, rfl, by decide⟩
  | obj fields => cases fields <;> exact ⟨_, _, rfl, by decide⟩

/-! ### Arrays -/

/-- Whether a reader reads a value again from its text, whatever follows. -/
def ReadsBack (one : List Glyph → Read Json) (value : Json) : Prop :=
  ∀ text, EndsNumber text → one (value.chars.map some ++ text) = .ok (value, text)

variable {one : List Glyph → Read Json}

theorem elements_last {α : Type} {one : List Glyph → Read α} {item : α} {items : List α}
    {glyph : Glyph} {bound text rest : List Glyph} (h : one text = .ok (item, some ']' :: rest)) :
    elements one (glyph :: bound) items text = .ok (items.reverse ++ [item], rest) := by
  rw [elements, h]
  simp [skipBlank_cons, isBlank]

theorem elements_next {α : Type} {one : List Glyph → Read α} {item : α} {items : List α}
    {glyph : Glyph} {bound text rest : List Glyph} {c : Char} (hc : StartsValue c)
    (h : one text = .ok (item, some ',' :: some c :: rest)) :
    elements one (glyph :: bound) items text =
      elements one bound (item :: items) (some c :: rest) := by
  rw [elements, h]
  have hcomma : isBlank (some ',') = false := by decide
  simp [skipBlank_cons hcomma, skipBlank_cons hc.1, hc.2]

theorem endsNumber_moreItems (items : List Json) (text : List Glyph) :
    EndsNumber ((moreItems items).map some ++ text) := by
  cases items <;> simp [EndsNumber, moreItems, digitValue?]

theorem length_lt_length_moreItems (items : List Json) :
    items.length < (moreItems items).length := by
  induction items with
  | nil => simp [moreItems]
  | cons item rest ih =>
    simp only [moreItems, List.length_cons, List.length_append]
    omega

/-- The items of an array are read again if each of them is. -/
theorem elements_moreItems {item : Json} {rest : List Json}
    (hone : ∀ value ∈ item :: rest, ReadsBack one value)
    (hexact : ∀ value ∈ item :: rest, value.isExact) {bound : List Glyph}
    (hbound : rest.length < bound.length) (gathered : List Json) (text : List Glyph) :
    elements one bound gathered ((item.chars ++ moreItems rest).map some ++ text) =
      .ok (gathered.reverse ++ item :: rest, text) := by
  induction rest generalizing item bound gathered with
  | nil =>
    obtain ⟨_, bound, rfl⟩ := List.exists_cons_of_length_pos (Nat.zero_lt_of_lt hbound)
    -- a bracket follows the item, or a comma below: if the item is a number, it ends there
    have hitem := hone item List.mem_cons_self _ (endsNumber_moreItems [] text)
    rw [List.map_append, List.append_assoc]
    exact elements_last hitem
  | cons next rest ih =>
    obtain ⟨_, bound, rfl⟩ := List.exists_cons_of_length_pos (Nat.zero_lt_of_lt hbound)
    have hitem := hone item List.mem_cons_self _ (endsNumber_moreItems (next :: rest) text)
    have hrest := ih (fun value h => hone value (List.mem_cons_of_mem _ h))
      (fun value h => hexact value (List.mem_cons_of_mem _ h))
      (Nat.lt_of_succ_lt_succ hbound) (item :: gathered)
    obtain ⟨c, chars, hchars, hc⟩ :=
      exists_chars_eq_cons (hexact next (List.mem_cons_of_mem _ List.mem_cons_self))
    rw [List.map_append, List.append_assoc]
    simp only [moreItems, hchars, List.cons_append, List.map_cons] at hitem hrest ⊢
    rw [elements_next hc hitem, hrest, List.reverse_cons, List.append_assoc, List.singleton_append]

theorem array_eq_elements {c : Char} (hc : StartsValue c) (text : List Glyph) :
    array one (some c :: text) = elements one (some c :: text) [] (some c :: text) := by
  simp [array, skipBlank_cons hc.1, hc.2]

/-- An array is read again from behind its bracket if each of its items is. -/
theorem array_chars {items : List Json} (hone : ∀ value ∈ items, ReadsBack one value)
    (hexact : ∀ value ∈ items, value.isExact) (text : List Glyph) :
    ∃ rest, (Json.arr items).chars.map some ++ text = some '[' :: rest ∧
      array one rest = .ok (items, text) := by
  cases items with
  | nil => exact ⟨_, rfl, by simp [array, skipBlank_cons, isBlank]⟩
  | cons item rest =>
    refine ⟨(item.chars ++ moreItems rest).map some ++ text, rfl, ?_⟩
    obtain ⟨c, chars, hchars, hc⟩ := exists_chars_eq_cons (hexact item List.mem_cons_self)
    -- the text itself bounds the number of items, as each of them takes up some of it
    have hbound : rest.length < ((item.chars ++ moreItems rest).map some ++ text).length := by
      have := length_lt_length_moreItems rest
      simp only [List.length_append, List.length_map]
      omega
    have hread := elements_moreItems hone hexact hbound [] text
    simp only [hchars, List.cons_append, List.map_cons] at hread ⊢
    rw [array_eq_elements hc, hread, List.reverse_nil, List.nil_append]

/-! ### Objects -/

theorem afterColon_eq {value : Json} {rest after : List Glyph} (h : one rest = .ok (value, after)) :
    afterColon one (some ':' :: rest) = .ok (value, after) := by
  simp [afterColon, colon, skipBlank_cons, isBlank, h]

theorem members_last {name : String} {value : Json} {fields : List (String × Json)}
    {glyph : Glyph} {bound text rest after : List Glyph}
    (hname : stringValue text = .ok (name, some ':' :: rest))
    (hvalue : one rest = .ok (value, some '\x7d' :: after)) :
    members (anyField one) (glyph :: bound) fields text = .ok ((name, value) :: fields, after) := by
  rw [members, hname]
  simp [anyField, afterColon_eq hvalue, Except.map, skipBlank_cons, isBlank]

theorem members_next {name : String} {value : Json} {fields : List (String × Json)}
    {glyph : Glyph} {bound text rest after : List Glyph}
    (hname : stringValue text = .ok (name, some ':' :: rest))
    (hvalue : one rest = .ok (value, some ',' :: some '"' :: after)) :
    members (anyField one) (glyph :: bound) fields text =
      members (anyField one) bound ((name, value) :: fields) after := by
  rw [members, hname]
  simp [anyField, afterColon_eq hvalue, Except.map, skipBlank_cons, isBlank]

theorem endsNumber_moreFields (fields : List (String × Json)) (text : List Glyph) :
    EndsNumber ((moreFields fields).map some ++ text) := by
  cases fields <;> simp [EndsNumber, moreFields, digitValue?]

theorem length_lt_length_moreFields (fields : List (String × Json)) :
    fields.length < (moreFields fields).length := by
  induction fields with
  | nil => simp [moreFields]
  | cons field rest ih =>
    simp only [moreFields, List.length_cons, List.length_append]
    omega

/-- The text of a field and of those behind it, from behind the opening quote of its name on. -/
def fromName (name : String) (value : Json) (rest : List (String × Json)) : List Char :=
  name.toList.flatMap escape ++ '"' :: ':' :: value.chars ++ moreFields rest

theorem stringValue_fromName (name : String) (value : Json) (rest : List (String × Json))
    (text : List Glyph) :
    stringValue ((fromName name value rest).map some ++ text) =
      .ok (name, some ':' :: (value.chars.map some ++ ((moreFields rest).map some ++ text))) := by
  have hsplit : (fromName name value rest).map some ++ text =
      (name.toList.flatMap escape ++ ['"']).map some ++
        some ':' :: (value.chars.map some ++ ((moreFields rest).map some ++ text)) := by
    simp [fromName]
  rw [hsplit, stringValue_quoted]

/-- The fields of an object are read again if each of their values is. -/
theorem members_fromName {name : String} {value : Json} {rest : List (String × Json)}
    (hone : ∀ field ∈ (name, value) :: rest, ReadsBack one field.2) {bound : List Glyph}
    (hbound : rest.length < bound.length) (gathered : List (String × Json)) (text : List Glyph) :
    members (anyField one) bound gathered ((fromName name value rest).map some ++ text) =
      .ok (rest.reverse ++ (name, value) :: gathered, text) := by
  induction rest generalizing name value bound gathered with
  | nil =>
    obtain ⟨_, bound, rfl⟩ := List.exists_cons_of_length_pos (Nat.zero_lt_of_lt hbound)
    have hvalue := hone (name, value) List.mem_cons_self _ (endsNumber_moreFields [] text)
    exact members_last (stringValue_fromName name value [] text) hvalue
  | cons next rest ih =>
    obtain ⟨_, bound, rfl⟩ := List.exists_cons_of_length_pos (Nat.zero_lt_of_lt hbound)
    obtain ⟨nextName, nextValue⟩ := next
    have hvalue := hone (name, value) List.mem_cons_self _
      (endsNumber_moreFields ((nextName, nextValue) :: rest) text)
    have hrest := ih (fun field h => hone field (List.mem_cons_of_mem _ h))
      (Nat.lt_of_succ_lt_succ hbound) ((name, value) :: gathered)
    -- The text of the fields that follow opens with the comma and the quote of the next name.
    have hmore : (moreFields ((nextName, nextValue) :: rest)).map some ++ text =
        some ',' :: some '"' :: ((fromName nextName nextValue rest).map some ++ text) := by
      simp [moreFields, quoted, fromName]
    rw [hmore] at hvalue
    rw [members_next (hmore ▸ stringValue_fromName name value _ text) hvalue, hrest]
    simp

/-- An object is read again from behind its brace if each of the values of its fields is. -/
theorem object_chars {fields : List (String × Json)}
    (hone : ∀ field ∈ fields, ReadsBack one field.2) (text : List Glyph) :
    ∃ rest, (Json.obj fields).chars.map some ++ text = some '\x7b' :: rest ∧
      object (anyField one) [] rest = .ok (fields.reverse, text) := by
  cases fields with
  | nil => exact ⟨_, rfl, by simp [object, skipBlank_cons, isBlank]⟩
  | cons field rest =>
    obtain ⟨name, value⟩ := field
    refine ⟨some '"' :: ((fromName name value rest).map some ++ text), ?_, ?_⟩
    · simp [chars, quoted, fromName]
    · -- Each field is written with a comma at least, so the text is a bound on their number.
      have hbound : rest.length <
          (some '"' :: ((fromName name value rest).map some ++ text)).length := by
        have := length_lt_length_moreFields rest
        simp only [fromName, List.length_cons, List.length_append, List.length_map]
        omega
      have hread := members_fromName hone hbound [] text
      simp [object, skipBlank_cons, isBlank, hread]

/-! ### All values -/

theorem value_eq_scalar {c : Char} (hblank : isBlank (some c) = false) (hlist : c ≠ '[')
    (hobject : c ≠ '\x7b') (depth : Nat) (text : List Glyph) :
    value depth (some c :: text) = scalar (some c) text := by
  cases depth <;> simp [value, skipBlank_cons hblank, hlist, hobject]

/-- A digit starts a number. -/
theorem scalar_digit {c : Char} (h : c.isDigit) (text : List Glyph) :
    scalar (some c) text = number false (some c :: text) := by
  obtain ⟨hlow, hhigh⟩ := Char.isDigit_iff_toNat.mp h
  unfold scalar
  split
  case h_6 heq =>
    obtain rfl := Option.some.inj heq
    exact if_pos ⟨hlow, hhigh⟩
  case h_7 heq => exact absurd heq (by simp)
  all_goals
    rename_i heq
    obtain rfl := Option.some.inj heq
    exact absurd h (by decide)

/-- An integer is read again. -/
theorem readsBack_int {n : Int} (h : InRange n) (depth : Nat) :
    ReadsBack (value depth) (.int n) := by
  intro text htext
  -- The two signs go different ways: a digit is a scalar at once, a minus sign is read before one.
  cases n with
  | ofNat n =>
    have hread := number_toDigits (Int.ofNat_le.mp h.2) htext
    obtain ⟨c, rest, hn, hdigit⟩ := exists_toDigits_eq_cons n
    simp only [chars, integerChars, hn, List.map_cons, List.cons_append] at hread ⊢
    rw [value_eq_scalar (startsValue_of_isDigit hdigit).1 (ne_of_isDigit hdigit rfl)
        (ne_of_isDigit hdigit rfl),
      scalar_digit hdigit, hread]
    rfl
  | negSucc n =>
    have hread := number_neg_toDigits (Nat.succ_pos n) (by have := h.1; omega) htext
    simp only [chars, integerChars, List.map_cons, List.cons_append]
    rw [value_eq_scalar (by decide) (by decide) (by decide)]
    exact hread

/-- A value that fits is read again from its text, whatever follows. -/
theorem readsBack {v : Json} {levels : Nat} (h : v.Fits levels) : ReadsBack (value levels) v := by
  -- the levels stay free in the induction: what is inside a value is read with one level less
  induction v using inductionOn generalizing levels with
  | null =>
    intro text _
    simp [chars, value_eq_scalar, isBlank, scalar, constant, word, Except.map]
  | bool b =>
    intro text _
    cases b <;> simp [chars, value_eq_scalar, isBlank, scalar, constant, word, Except.map]
  | int n => exact readsBack_int ((fits_int levels n).mp h) levels
  | real bits => exact absurd h.exact (by simp [isExact])
  | str string =>
    intro text _
    have hread := @stringValue_quoted text string
    simp only [chars, quoted, List.cons_append, List.map_cons] at hread ⊢
    rw [value_eq_scalar (by decide) (by decide) (by decide)]
    simp only [scalar, hread, Except.map]
  | arr items ih =>
    cases levels with
    | zero => exact absurd h.depth (Nat.not_succ_le_zero _)
    | succ levels =>
      intro text _
      have hitems := fits_arr.mp h
      obtain ⟨rest, htext, hread⟩ :=
        array_chars (fun item hitem => ih item hitem (hitems item hitem))
          (fun item hitem => (hitems item hitem).exact) text
      rw [htext, value, skipBlank_cons (by decide)]
      simp [hread, Except.map]
  | obj fields ih =>
    cases levels with
    | zero => exact absurd h.depth (Nat.not_succ_le_zero _)
    | succ levels =>
      intro text _
      have hfields := fits_obj.mp h
      obtain ⟨rest, htext, hread⟩ :=
        object_chars (fun field hfield => ih field hfield (hfields field hfield)) text
      rw [htext, value, skipBlank_cons (by decide)]
      simp [hread, Except.map]

theorem value_chars {v : Json} (h : v.Fits nesting) :
    value nesting (v.chars.map some) = .ok (v, []) := by
  have hread := readsBack h [] (by simp [EndsNumber])
  rwa [List.append_nil] at hread

/-- A text that is a value is read as that value. -/
theorem read_render {v : Json} (h : v.Fits nesting) : read (Glyph.ofString v.render) = .ok v := by
  simp [read, whole, Glyph.ofString, render, value_chars h, onlyBlank, skipBlank, Except.map]

end Json

end Backfill
