import Backfill.Proofs.JsonReading
import Backfill.Proofs.JsonSkimming
import Backfill.Rpc.ResponseReader

/-!
# Records are read as they are found

A record may be read from its text field by field, or its text may be read as one value in which the
fields are looked for.  The first way knows beforehand what each field should be, notices a flaw
early, and only reads past what it does not need.  On the text of a value both ways come to the same
result, as long as the value is not nested too deeply.

## Main definitions

* `Json.Finds` — reading a text comes to the same as looking into its value.
* `Json.Due` — the items of an array that are still to come.
* `Json.slot` — what becomes of one field of a record, given a field of an object.
* `Json.Schema.Reads` — every field of a record is read as it is found.
* `Json.Schema.find?` — the record that a value holds, found in its items or in its fields.

## Main results

* `Json.finds_text`, `Json.finds_signed`, `Json.finds_via`, `Json.finds_optional` — the readers of
  single fields.
* `Json.nextItem_toOption`, `Json.dueItem_toOption`, `Json.endItems_toOption` — the readers of a
  record that is written as an array.
* `Json.foldlM_slot` — each field of a record that is written as an object is gathered on its own.
* `Json.Schema.finds_read` — **a record is read as it is found**, if its fields are.
* `Json.Finds.whole_eq_ok_iff` — **a text that denotes a value is read as what is found in the
  value.**
-/

namespace Backfill

theorem toOption_bind {ε α β : Type} (result : Except ε α) (next : α → Except ε β) :
    (result >>= next).toOption = result.toOption.bind fun found => (next found).toOption := by
  cases result <;> rfl

theorem toOption_map {ε α β : Type} (result : Except ε α) (f : α → β) :
    (result.map f).toOption = result.toOption.map f := by
  cases result <;> rfl

namespace Json

variable {text rest : List Glyph} {v : Json} {levels : Nat}

/-! ### Single fields -/

/-- Reading a text comes to the same as looking into its value, if that is nested at most so many
levels. -/
def Finds {α : Type} (levels : Nat) (one : List Glyph → Read α) (find : Json → Option α) : Prop :=
  ∀ v text rest, SpellsWithin levels v text rest → (one text).toOption = (find v).map (·, rest)

theorem Finds.skipBlank {α : Type} {one : List Glyph → Read α} {find : Json → Option α}
    (hone : Finds levels one find) (h : SpellsWithin levels v text rest) :
    (one (Json.skipBlank text)).toOption = (find v).map (·, rest) :=
  hone _ _ _ ⟨spells_skipBlank.mpr h.1, h.2⟩

theorem Spells.cases_first (h : Spells v text rest) :
    ∃ glyph tail, skipBlank text = glyph :: tail ∧
      (Token v (glyph :: tail) rest ∨ (glyph = some '[' ∧ ∃ items, v = .arr items) ∨
        glyph = some '\x7b' ∧ ∃ fields, v = .obj fields) := by
  cases h with
  | token htoken =>
    obtain ⟨glyph, tail, htext⟩ := List.exists_cons_of_length_pos
      (Nat.zero_lt_of_lt htoken.length_lt)
    exact ⟨glyph, tail, htext, .inl (htext ▸ htoken)⟩
  | array htext => exact ⟨_, _, htext, .inr (.inl ⟨rfl, _, rfl⟩)⟩
  | object htext => exact ⟨_, _, htext, .inr (.inr ⟨rfl, _, rfl⟩)⟩

theorem Token.string?_eq_none {glyph : Glyph} (h : Token v (glyph :: text) rest)
    (hquote : glyph ≠ some '"') : v.string? = none := by
  cases h with
  | string => exact absurd rfl hquote
  | null | true | false => rfl
  | positive _ _ hvalue | negative _ _ hvalue =>
    obtain ⟨k, rfl⟩ | ⟨bits, rfl⟩ := eq_of_value? hvalue <;> rfl

theorem Token.exists_eq_str (h : Token v (some '"' :: text) rest) :
    ∃ found, v = .str found ∧ stringValue text = .ok (found, rest) := by
  have hread : (stringValue text).map (fun found => (Json.str found.1, found.2)) = .ok (v, rest) :=
    scalar_eq_ok_iff.mpr h
  cases hstring : stringValue text with
  | error fault => simp [hstring, Except.map] at hread
  | ok result =>
    rw [hstring] at hread
    obtain ⟨rfl, rfl⟩ := Prod.mk.inj (Except.ok.inj hread)
    exact ⟨_, rfl, rfl⟩

/-- A text is read. -/
theorem finds_text : Finds levels Json.text string? := by
  rintro v text rest ⟨h, -⟩
  obtain ⟨glyph, tail, htext, htoken | ⟨rfl, items, rfl⟩ | ⟨rfl, fields, rfl⟩⟩ := h.cases_first
  · by_cases hquote : glyph = some '"'
    · subst hquote
      obtain ⟨found, rfl, hstring⟩ := htoken.exists_eq_str
      simp [Json.text, htext, hstring, string?, Except.toOption]
    · rw [htoken.string?_eq_none hquote]
      simp [Json.text, htext, hquote, Except.toOption]
  · simp [Json.text, htext, string?, Except.toOption]
  · simp [Json.text, htext, string?, Except.toOption]

/-- Whether a number may start with this glyph. -/
def StartsNumber (glyph : Glyph) : Prop := glyph = some '-' ∨ (digitValue? glyph).isSome

theorem Token.code?_eq_none {glyph : Glyph} (h : Token v (glyph :: text) rest)
    (hstart : ¬StartsNumber glyph) : RpcError.code? v = none := by
  cases h with
  | null | true | false | string => rfl
  | negative => exact absurd (.inl rfl) hstart
  | positive _ hnumber =>
    obtain ⟨hdigits, -⟩ := hnumber
    obtain ⟨first, more, hfirst, hdigit⟩ := exists_digit_of_digits hdigits
    obtain ⟨rfl, -⟩ := List.cons.inj hfirst
    exact absurd (.inr (by simp [hdigit])) hstart

/-- An integer is read. -/
theorem finds_signed : Finds levels signed RpcError.code? := by
  rintro v text rest ⟨h, -⟩
  obtain ⟨glyph, tail, htext, htoken | ⟨rfl, items, rfl⟩ | ⟨rfl, fields, rfl⟩⟩ := h.cases_first
  · have hread := scalar_eq_ok_iff.mpr htoken
    by_cases hstart : StartsNumber glyph
    · simp only [signed, htext, if_pos (show glyph = _ ∨ _ from hstart), hread]
      cases v with
      | int n => cases hfits : fitsSigned n <;> simp [RpcError.code?, hfits, Except.toOption]
      | null | bool | real | str | arr | obj => rfl
    · rw [htoken.code?_eq_none hstart]
      simp only [signed, htext, if_neg (show ¬(glyph = _ ∨ _) from hstart)]
      rfl
  · simp [signed, htext, RpcError.code?, digitValue?, Except.toOption]
  · simp [signed, htext, RpcError.code?, digitValue?, Except.toOption]

/-- What can be found in a value is read. -/
theorem finds_via {α : Type} (find : Json → Option α) : Finds levels (via levels find) find := by
  intro v text rest h
  rw [via, value_eq_ok_iff.mpr h]
  cases hfind : find v <;> simp [hfind, Except.toOption]

theorem Token.eq_null (h : Token v (some 'n' :: text) rest) :
    v = .null ∧ word ['u', 'l', 'l'] text = .ok ((), rest) := by
  obtain ⟨rfl, htext⟩ := eq_of_constant (scalar_eq_ok_iff.mpr h)
  exact ⟨rfl, word_eq_ok_iff.mpr htext⟩

theorem Token.eq_of_null {glyph : Glyph} (h : Token .null (glyph :: text) rest) :
    glyph = some 'n' := by
  cases h with
  | null => rfl
  | positive _ _ hvalue | negative _ _ hvalue =>
    obtain ⟨k, heq⟩ | ⟨bits, heq⟩ := eq_of_value? hvalue <;> contradiction

theorem optional?_of_ne_null {α : Type} {find : Json → Option α} (h : v ≠ .null) :
    optional? find v = (find v).map some := by
  rw [optional?]
  exact h

/-- A value that may be null is read. -/
theorem finds_optional {α : Type} {one : List Glyph → Read α} {find : Json → Option α}
    (h : Finds levels one find) : Finds levels (optional one) (optional? find) := by
  rintro v text rest ⟨hspells, hdepth⟩
  have hone := h.skipBlank ⟨hspells, hdepth⟩
  have hother {glyph tail} (htext : skipBlank text = glyph :: tail) (hnull : v ≠ .null)
      (hglyph : glyph ≠ some 'n') :
      (optional one text).toOption = (optional? find v).map (·, rest) := by
    rw [htext] at hone
    simp only [optional, htext, if_neg hglyph, toOption_map, hone, optional?_of_ne_null hnull]
    cases find v <;> rfl
  -- only a token can be null, and it is told by its first letter
  obtain ⟨glyph, tail, htext, htoken | ⟨rfl, items, rfl⟩ | ⟨rfl, fields, rfl⟩⟩ :=
    hspells.cases_first
  · by_cases hglyph : glyph = some 'n'
    · subst hglyph
      obtain ⟨rfl, hword⟩ := htoken.eq_null
      simp [optional, htext, hword, optional?, Except.map, Except.toOption]
    · refine hother htext ?_ hglyph
      rintro rfl
      exact hglyph htoken.eq_of_null
  · exact hother htext Json.noConfusion (by decide)
  · exact hother htext Json.noConfusion (by decide)

/-! ### Records by position -/

section Items

variable {α : Type} {one : List Glyph → Read α} {find : Json → Option α} {items : List Json}
  {isFirst : Bool}

/-- Items of an array that are still to come, up to its bracket: the first one follows the opening
bracket, and any other a comma. -/
def Due (levels : Nat) (isFirst : Bool) (items : List Json) (text rest : List Glyph) : Prop :=
  if isFirst then Enclosed ']' (SpellsWithin levels) items text rest
  else Following ']' (SpellsWithin levels) items text rest

theorem Due.close (h : Due levels isFirst [] text rest) : skipBlank text = some ']' :: rest := by
  cases isFirst with
  | true =>
    obtain ⟨hclose⟩ := h
    exact hclose
  | false =>
    obtain ⟨hclose⟩ := h
    exact hclose

/-- The first item that is due stands in front. -/
theorem Due.first {item : Json} (h : Due levels true (item :: items) text rest) :
    ∃ behind, SpellsWithin levels item text behind ∧ Due levels false items behind rest := by
  have h : Enclosed ']' (SpellsWithin levels) (item :: items) text rest := h
  cases h with
  | items hitem hmore => exact ⟨_, hitem, hmore⟩

theorem Due.later {item : Json} (h : Due levels false (item :: items) text rest) :
    ∃ start behind, skipBlank text = some ',' :: start ∧
      SpellsWithin levels item start behind ∧ Due levels false items behind rest := by
  have h : Following ']' (SpellsWithin levels) (item :: items) text rest := h
  cases h with
  | next hcomma hitem hmore => exact ⟨_, _, hcomma, hitem, hmore⟩

/-- The next item of an array is read if there is one. -/
theorem nextItem_toOption (hone : Finds levels one find) (h : Due levels isFirst items text rest) :
    ∃ behind, Due levels false items.tail behind rest ∧
      (nextItem isFirst one text).toOption = (items.head?.mapM find).map (·, behind) := by
  cases items with
  | nil =>
    have hclose := h.close
    refine ⟨some ']' :: rest, .done (skipBlank_cons (by decide) rest), ?_⟩
    simp [nextItem, hclose, Except.toOption]
  | cons item items =>
    -- The first item stands behind the bracket, any later one behind a comma.
    cases isFirst with
    | true =>
      obtain ⟨behind, hitem, hmore⟩ := Due.first h
      obtain ⟨glyph, tail, htext, hglyph⟩ := hitem.1.exists_start
      have hread := hone.skipBlank hitem
      rw [htext] at hread
      refine ⟨behind, hmore, ?_⟩
      cases hfind : find item <;> simp [nextItem, htext, hglyph, toOption_map, hread, hfind]
    | false =>
      obtain ⟨start, behind, hcomma, hitem, hmore⟩ := Due.later h
      obtain ⟨glyph, tail, htext, hglyph⟩ := hitem.1.exists_start
      have hread := hone.skipBlank hitem
      rw [htext] at hread
      refine ⟨behind, hmore, ?_⟩
      cases hfind : find item <;> simp [nextItem, hcomma, htext, hglyph, toOption_map, hread, hfind]

/-- An item that a record cannot do without is read if there is one. -/
theorem dueItem_toOption (hone : Finds levels one find) (h : Due levels isFirst items text rest) :
    ∃ behind, Due levels false items.tail behind rest ∧
      (dueItem isFirst one text).toOption = (items.head?.bind find).map (·, behind) := by
  obtain ⟨behind, hbehind, hread⟩ := nextItem_toOption hone h
  refine ⟨behind, hbehind, ?_⟩
  have hdue : (dueItem isFirst one text).toOption =
      (nextItem isFirst one text).toOption.bind fun read => read.1.map (·, read.2) := by
    unfold dueItem
    rcases nextItem isFirst one text with fault | ⟨found | found, rest⟩ <;> rfl
  rw [hdue, hread]
  cases items with
  | nil => rfl
  | cons item items => cases hfind : find item <;> simp [hfind]

/-- The end of a record is read if no item is left. -/
theorem endItems_toOption (h : Due levels isFirst items text rest) :
    (endItems text).toOption = if items = [] then some ((), rest) else none := by
  cases items with
  | nil => simp [endItems, h.close, Except.toOption]
  | cons item items =>
    cases isFirst with
    | true =>
      obtain ⟨behind, hitem, -⟩ := Due.first h
      obtain ⟨glyph, tail, htext, hglyph⟩ := hitem.1.exists_start
      by_cases hcomma : glyph = some ',' <;> simp [endItems, htext, hglyph, hcomma, Except.toOption]
    | false =>
      obtain ⟨start, behind, hcomma, -, -⟩ := Due.later h
      simp [endItems, hcomma, Except.toOption]

end Items

/-! ### Records by name -/

section Names

variable {α σ : Type} {one : List Glyph → Read α} {find : Json → Option α} {key name : String}
  {fields : List (String × Json)} {known : Option α} {after : List Glyph}

/-- What becomes of a field of a record, given a field of an object: a value may be found in it, if
it has the right name, but not twice. -/
def slot (key : String) (find : Json → Option α) (known : Option α) (field : String × Json) :
    Option (Option α) :=
  if field.1 = key then
    match known with
    | some _ => none
    | none => (find field.2).map some
  else some known

theorem slot_none : slot key find none (key, v) = (find v).map some :=
  if_pos rfl

theorem slot_some (found : α) : slot key find (some found) (key, v) = none :=
  if_pos rfl

theorem slot_of_ne {field : String × Json} (h : field.1 ≠ key) :
    slot key find known field = some known :=
  if_neg h

theorem foldlM_slot_some (found : α) :
    fields.foldlM (slot key find) (some found) =
      if fields.filter (·.1 == key) = [] then some (some found) else none := by
  induction fields with
  | nil => rfl
  | cons field fields ih =>
    by_cases hkey : field.1 = key
    · simp [slot, hkey]
    · rw [List.filter_cons_of_neg (by simpa using hkey), ← ih]
      simp [slot, hkey]

/-- **Each field of a record is gathered on its own**: it is found where it is named once. -/
theorem foldlM_slot : fields.foldlM (slot key find) none =
    (only? fields key).bind (·.mapM find) := by
  induction fields with
  | nil => rfl
  | cons field fields ih =>
    obtain ⟨name, value⟩ := field
    -- A field of another name leaves the slot; one of this name fills it, a second one is refused.
    by_cases hkey : name = key
    · subst hkey
      rw [List.foldlM_cons]
      cases hfind : find value with
      | none =>
        cases hmore : fields.filter (·.1 == name) <;> simp [slot, only?, hfind, hmore]
      | some found =>
        cases hmore : fields.filter (·.1 == name) <;>
          simp [slot, only?, hfind, hmore, foldlM_slot_some]
    · have honly : only? ((name, value) :: fields) key = only? fields key := by
        simp [only?, hkey]
      rw [List.foldlM_cons, honly, ← ih]
      simp [slot, hkey]

/-- A field with the right name is read unless its value is known already. -/
theorem fieldRead_oneField (known : Option α) (put : Option α → σ) (hone : Finds levels one find)
    {field : String → σ → Except Flaw (List Glyph → Read σ)} {gathered : σ}
    (hfield : field key gathered = oneField known one fun found => put (some found))
    (hcolon : skipBlank text = some ':' :: after) (hvalue : SpellsWithin levels v after rest) :
    fieldRead field gathered key text =
      ((slot key find known (key, v)).bind fun new => some (put new)).map (·, rest) := by
  have hread : (afterColon one text).toOption = (find v).map (·, rest) := by
    simp [afterColon, colon, hcolon, hone _ _ _ hvalue]
  rw [fieldRead, hfield]
  -- A field that was there before is refused at its second name, before its value is read.
  cases known with
  | some found =>
    rw [slot_some]
    rfl
  | none =>
    rw [slot_none]
    have hmap : ((afterColon one text).map fun found => (put (some found.1), found.2)).toOption =
        (((find v).map some).bind fun new => some (put new)).map (·, rest) := by
      rw [toOption_map, hread]
      cases find v <;> rfl
    exact hmap

theorem fieldRead_otherField {field : String → σ → Except Flaw (List Glyph → Read σ)}
    {gathered : σ} (hfield : field name gathered = otherField gathered)
    (hcolon : skipBlank text = some ':' :: after) (hvalue : Spells v after rest) :
    fieldRead field gathered name text = some (gathered, rest) := by
  simp [fieldRead, hfield, otherField, afterColon, colon, hcolon, hvalue.skip, Except.map,
    Except.toOption]

end Names

/-! ### Both ways of writing a record -/

theorem Token.not_bracketed (h : Token v text rest) :
    ¬((∃ items, v = .arr items) ∨ ∃ fields, v = .obj fields) := by
  have hdepth := h.depth_eq
  rintro (⟨items, rfl⟩ | ⟨fields, rfl⟩) <;> exact Nat.succ_ne_zero _ hdepth

/-- A record is read if it is read by position and by name. -/
theorem finds_record {α : Type} {byPosition byName : List Glyph → Read α} {find : Json → Option α}
    (hposition : ∀ {items text rest}, Enclosed ']' Spells items text rest →
      (Json.arr items).depth ≤ levels →
        (byPosition text).toOption = (find (.arr items)).map (·, rest))
    (hname : ∀ {fields text rest}, Enclosed '\x7d' (Field Spells) fields text rest →
      (Json.obj fields).depth ≤ levels →
        (byName text).toOption = (find (.obj fields)).map (·, rest))
    (hfind : ∀ {v found}, find v = some found →
      (∃ items, v = .arr items) ∨ ∃ fields, v = .obj fields) :
    Finds levels (record byPosition byName) find := by
  rintro v text rest ⟨h, hdepth⟩
  cases h with
  | array htext hitems => simpa [record, htext] using hposition hitems hdepth
  | object htext hfields => simpa [record, htext] using hname hfields hdepth
  | token htoken =>
    -- A token is neither a list nor an object, so nothing can be found in it.
    have hnone : find v = none := by
      cases hv : find v with
      | none => rfl
      | some found => exact absurd (hfind hv) htoken.not_bracketed
    obtain ⟨glyph, tail, htext⟩ := List.exists_cons_of_length_pos
      (Nat.zero_lt_of_lt htoken.length_lt)
    rw [htext, ← scalar_eq_ok_iff] at htoken
    have hlist : glyph ≠ some '[' := by
      rintro rfl
      contradiction
    have hobject : glyph ≠ some '\x7b' := by
      rintro rfl
      contradiction
    simp [record, htext, hlist, hobject, hnone, Except.toOption]

/-! ### Schemas -/

/-- How the values of fields with these types are found. -/
@[reducible] def Finders : List Type → Type
  | [] => Unit
  | α :: types => (Json → Option α) × Finders types

namespace Schema

variable {types : List Type}

/-- The names of the fields. -/
def names : {types : List Type} → Schema types → List String
  | _, .done => []
  | _, .field name _ _ others => name :: others.names

/-- Every field is read as it is found. -/
inductive Reads (levels : Nat) : {types : List Type} → Schema types → Finders types → Prop
  | done : Reads levels .done ()
  | field {α : Type} {types : List Type} {name : String} {isDue : Bool} {one : List Glyph → Read α}
    {find : Json → Option α} {others : Schema types} {finders : Finders types}
    (hone : Finds levels one find) (hothers : others.Reads levels finders) :
    Reads levels (.field name isDue one others) (find, finders)

/-- What is found in the items of an array, from a position on. -/
def atPositions : {types : List Type} → Schema types → Finders types → List Json → Nat →
    Option (Gathered types)
  | _, .done, _, items, position => if items.length ≤ position then some () else none
  | _, .field _ isDue _ others, (find, finders), items, position =>
    (if isDue then (items[position]?.bind find).map some else items[position]?.mapM find).bind
      fun found => (others.atPositions finders items (position + 1)).map (found, ·)

/-- What is found in the fields of an object. -/
def atNames : {types : List Type} → Schema types → Finders types → List (String × Json) →
    Option (Gathered types)
  | _, .done, _, _ => some ()
  | _, .field name _ _ others, (find, finders), fields =>
    ((only? fields name).bind (·.mapM find)).bind fun found =>
      (others.atNames finders fields).map (found, ·)

/-- What becomes of the fields of a record, given a field of an object. -/
def gather : {types : List Type} → Schema types → Finders types → Gathered types →
    String × Json → Option (Gathered types)
  | _, .done, _, _, _ => some ()
  | _, .field key _ _ others, (find, finders), (known, gathered), given =>
    (slot key find known given).bind fun new => (others.gather finders gathered given).map (new, ·)

/-- The record that a value holds. -/
def find? {α : Type} (finish? : Gathered types → Option α) (schema : Schema types)
    (finders : Finders types) : Json → Option α
  | .arr items => (schema.atPositions finders items 0).bind finish?
  | .obj fields => (schema.atNames finders fields).bind finish?
  | _ => none

theorem readItem_toOption {α : Type} {one : List Glyph → Read α} {find : Json → Option α}
    {items : List Json} {isFirst : Bool} (isDue : Bool) (hone : Finds levels one find)
    (h : Due levels isFirst items text rest) :
    ∃ behind, Due levels false items.tail behind rest ∧
      (readItem isDue isFirst one text).toOption =
        (if isDue then (items.head?.bind find).map some else items.head?.mapM find).map
          (·, behind) := by
  cases isDue with
  | true =>
    obtain ⟨behind, hbehind, hread⟩ := dueItem_toOption hone h
    refine ⟨behind, hbehind, ?_⟩
    simp [readItem, toOption_map, hread, Function.comp_def]
  | false => exact nextItem_toOption hone h

/-- **Fields that are read by position are found there.** -/
theorem readItems_toOption {schema : Schema types} {finders : Finders types} {items : List Json}
    {position : Nat} {isFirst : Bool} (hreads : schema.Reads levels finders)
    (h : Due levels isFirst (items.drop position) text rest) :
    (schema.readItems isFirst text).toOption =
      (schema.atPositions finders items position).map (·, rest) := by
  -- Field by field, each at the next position; behind the last one no item may be left.
  induction schema generalizing text position isFirst with
  | done =>
    rw [readItems, endItems_toOption h, atPositions]
    simp only [List.drop_eq_nil_iff]
    split <;> rfl
  | @field α types name isDue one others ih =>
    obtain ⟨find, finders⟩ := finders
    cases hreads with | field hone hothers => ?_
    obtain ⟨behind, hbehind, hread⟩ := readItem_toOption isDue hone h
    rw [List.tail_drop] at hbehind
    rw [List.head?_drop] at hread
    simp only [readItems, toOption_bind, hread, Option.bind_map, Function.comp_def,
      ih hothers hbehind, atPositions, Option.map_bind, Option.map_map]
    exact congrArg _ (funext fun found => Option.map_eq_bind.symm)

/-- Fields are gathered in pairs as each of them is on its own. -/
theorem foldlM_pair {α β γ : Type} (f : α → γ → Option α) (g : β → γ → Option β) (items : List γ)
    (start : α × β) :
    items.foldlM (fun (first, second) item =>
        (f first item).bind fun first => (g second item).map (first, ·)) start =
      (items.foldlM f start.1).bind fun first => (items.foldlM g start.2).map (first, ·) := by
  -- an item that spoils one side spoils the pair, whatever it does to the other side
  induction items generalizing start with
  | nil => rfl
  | cons item items ih =>
    simp only [List.foldlM_cons]
    cases f start.1 item with
    | none => rfl
    | some first =>
      cases g start.2 item with
      | none => simp
      | some second => exact ih (first, second)

/-- **The fields of an object are gathered as they are found.** -/
theorem foldlM_gather (schema : Schema types) (finders : Finders types)
    (fields : List (String × Json)) :
    fields.foldlM (schema.gather finders) schema.start = schema.atNames finders fields := by
  induction schema with
  | done =>
    induction fields with
    | nil => rfl
    | cons field fields ih => exact ih
  | field name isDue one others ih =>
    obtain ⟨find, finders⟩ := finders
    have hpair := foldlM_pair (slot name find) (others.gather finders) fields (none, others.start)
    rw [ih finders, foldlM_slot] at hpair
    exact hpair

theorem gather_of_not_mem {schema : Schema types} {name : String} (h : name ∉ schema.names)
    (finders : Finders types) (gathered : Gathered types) (value : Json) :
    schema.gather finders gathered (name, value) = some gathered := by
  induction schema with
  | done => rfl
  | field key isDue one others ih =>
    obtain ⟨find, finders⟩ := finders
    obtain ⟨known, gathered⟩ := gathered
    rw [names, List.mem_cons, not_or] at h
    rw [gather, slot_of_ne h.1, ih h.2]
    rfl

/-- One field is read by name, if no two fields have the same. -/
theorem fieldRead_readField {schema : Schema types} {finders : Finders types}
    (hreads : schema.Reads levels finders) (hnames : schema.names.Nodup) (gathered : Gathered types)
    {name : String} {value : Json} {after : List Glyph}
    (hcolon : skipBlank text = some ':' :: after) (hvalue : SpellsWithin levels value after rest) :
    fieldRead schema.readField gathered name text =
      (schema.gather finders gathered (name, value)).map (·, rest) := by
  induction schema with
  | done => exact fieldRead_otherField rfl hcolon hvalue.1
  | field key isDue one others ih =>
    obtain ⟨find, finders⟩ := finders
    obtain ⟨known, gathered⟩ := gathered
    cases hreads with | field hone hothers => ?_
    rw [names, List.nodup_cons] at hnames
    by_cases hname : name = key
    · subst hname
      rw [fieldRead_oneField known (·, gathered) hone (by simp [readField]) hcolon hvalue, gather,
        gather_of_not_mem hnames.1]
      rfl
    · -- the other fields read it, and what is known of this one is put back in front
      have hput : ((others.gather finders gathered (name, value)).map (known, ·)).map (·, rest) =
          ((others.gather finders gathered (name, value)).map (·, rest)).map
            fun read => ((known, read.1), read.2) := by
        rw [Option.map_map, Option.map_map]
        rfl
      rw [gather, slot_of_ne hname, Option.bind_some, hput, ← ih hothers hnames.2 gathered,
        fieldRead, fieldRead, readField, if_neg hname]
      cases others.readField name gathered with
      | error flaw => rfl
      | ok read => exact toOption_map _ _

theorem making_toOption {α : Type} (finish? : Gathered types → Option α)
    (all : List Glyph → Read (Gathered types)) (text : List Glyph) :
    (making finish? all text).toOption =
      (all text).toOption.bind fun found => (finish? found.1).map (·, found.2) := by
  unfold making
  rcases all text with fault | ⟨found, rest⟩
  · rfl
  · cases hfinish : finish? found <;> simp [hfinish, Except.toOption]

/-- **A record is read as it is found**, if its fields are and no two of them have one name. -/
theorem finds_read {α : Type} {schema : Nat → Schema types} {finders : Finders types}
    {finish? : Gathered types → Option α} {find : Json → Option α}
    (hreads : ∀ levels, (schema levels).Reads levels finders)
    (hnames : ∀ levels, (schema levels).names.Nodup)
    (hfind : ∀ levels value, find value = (schema levels).find? finish? finders value)
    (levels : Nat) : Finds levels (read schema finish? levels) find := by
  have hbracketed {value : Json} {found : α} (h : find value = some found) :
      (∃ items, value = .arr items) ∨ ∃ fields, value = .obj fields := by
    rw [hfind 0] at h
    cases value with
    | arr items => exact .inl ⟨items, rfl⟩
    | obj fields => exact .inr ⟨fields, rfl⟩
    | null | bool | int | real | str => contradiction
  cases levels with
  | zero =>
    -- the record itself takes a level, so no record is nested in none
    exact finds_record (fun _ hdepth => absurd hdepth (Nat.not_succ_le_zero _))
      (fun _ hdepth => absurd hdepth (Nat.not_succ_le_zero _)) hbracketed
  | succ levels =>
    refine finds_record (fun hitems hdepth => ?_) (fun hfields hdepth => ?_) hbracketed
    case refine_1 items text rest =>
      have hdue : Due levels true (items.drop 0) text rest :=
        enclosed_spellsWithin_iff.mpr ⟨hitems, hdepth⟩
      rw [making_toOption, readItems_toOption (hreads levels) hdue, hfind levels, find?]
      cases (schema levels).atPositions finders items 0 <;> rfl
    case refine_2 fields text rest =>
      have hwithin := enclosed_field_spellsWithin_iff.mpr ⟨hfields, hdepth⟩
      rw [making_toOption, object_toOption
          (fun gathered _ _ => fieldRead_readField (hreads levels) (hnames levels) gathered)
          (fun _ _ _ h => h.1.length_lt) hwithin, foldlM_gather, hfind levels, find?]
      cases (schema levels).atNames finders fields <;> rfl

end Schema

/-! ### Whole texts -/

/-- **A text that denotes a value is read as what is found in the value.** -/
theorem Finds.whole_eq_ok_iff {α : Type} {one : List Glyph → Read α} {find : Json → Option α}
    {found : α} (hone : Finds levels one find) (h : Denotes text v) (hdepth : v.depth ≤ levels) :
    whole one text = .ok found ↔ find v = some found := by
  -- The text behind the value is blank because it denotes the value.
  obtain ⟨rest, hspells, hrest⟩ := h
  have hread := hone _ _ _ ⟨hspells, hdepth⟩
  rw [Json.whole_eq_ok_iff]
  constructor
  · rintro ⟨behind, hfound, -⟩
    rw [hfound] at hread
    obtain ⟨other, hother, heq⟩ := Option.map_eq_some_iff.mp hread.symm
    obtain ⟨rfl, -⟩ := Prod.mk.inj heq
    exact hother
  · intro hfound
    rw [hfound, Option.map_some, toOption_eq_some_iff] at hread
    exact ⟨rest, hread, hrest⟩

end Json

end Backfill
