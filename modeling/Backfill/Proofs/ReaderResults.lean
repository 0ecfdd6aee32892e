import Backfill.Proofs.JsonReading
import Backfill.Json.Record

/-!
# What readers return

A text may be read without being a value of the grammar throughout: what nobody asked for is only
read past.  Something is known of the result nevertheless, since each part of a record is read by a
reader of its own, and a property that every part has is a property of the record.

## Main definitions

* `Json.Yields` — all that a reader returns has a property.
* `Json.Traits`, `Json.Have` — a property for each field, and what has been gathered has them.

## Main results

* `Json.Yields.optional`, `Json.Yields.nextItem`, `Json.Yields.dueItem`, `Json.Yields.oneField` —
  what is read by position or by name has the property of its reader.
* `Json.object_invariant` — what each field keeps is kept in the end.
* `Json.Schema.yields_read` — **a record has a property in either form**, if it follows from those of
  its fields.
-/

namespace Backfill

theorem exists_of_bind_eq_ok {ε α β : Type} {result : Except ε α} {next : α → Except ε β} {last : β}
    (h : (result >>= next) = .ok last) : ∃ found, result = .ok found ∧ next found = .ok last := by
  cases result with
  | error fault => contradiction
  | ok found => exact ⟨found, rfl, h⟩

theorem exists_of_map_eq_ok {ε α β : Type} {result : Except ε α} {f : α → β} {last : β}
    (h : result.map f = .ok last) : ∃ found, result = .ok found ∧ f found = last := by
  cases result with
  | error fault => contradiction
  | ok found => exact ⟨found, rfl, Except.ok.inj h⟩

namespace Json

/-! ### What readers return -/

section Yields

variable {α σ : Type} {one : List Glyph → Read α} {P : α → Prop} {Q : σ → Prop} {levels : Nat}

/-- All that a reader returns has a property. -/
def Yields (one : List Glyph → Read α) (P : α → Prop) : Prop :=
  ∀ text found rest, one text = .ok (found, rest) → P found

/-- What may be null has the property if it is there. -/
theorem Yields.optional (h : Yields one P) :
    Yields (Json.optional one) fun found => ∀ x ∈ found, P x := by
  intro text found rest hread
  unfold Json.optional at hread
  split at hread
  -- At the end of the text the reader itself reports what is missing.
  case h_1 =>
    obtain ⟨⟨x, behind⟩, hone, heq⟩ := exists_of_map_eq_ok hread
    obtain ⟨rfl, -⟩ := Prod.mk.inj heq
    rintro _ ⟨⟩
    exact h _ _ _ hone
  case h_2 =>
    split at hread
    case isTrue =>
      obtain ⟨_, -, heq⟩ := exists_of_map_eq_ok hread
      obtain ⟨rfl, -⟩ := Prod.mk.inj heq
      exact nofun
    case isFalse =>
      obtain ⟨⟨x, behind⟩, hone, heq⟩ := exists_of_map_eq_ok hread
      obtain ⟨rfl, -⟩ := Prod.mk.inj heq
      rintro _ ⟨⟩
      exact h _ _ _ hone

/-- The next item of an array has the property if there is one. -/
theorem Yields.nextItem (h : Yields one P) (isFirst : Bool) :
    Yields (Json.nextItem isFirst one) fun found => ∀ x ∈ found, P x := by
  have hone {text found rest} (hread : (one text).map (fun result => (some result.1, result.2)) =
      .ok (found, rest)) : ∀ x ∈ found, P x := by
    obtain ⟨⟨x, behind⟩, hone, heq⟩ := exists_of_map_eq_ok hread
    obtain ⟨rfl, -⟩ := Prod.mk.inj heq
    rintro _ ⟨⟩
    exact h _ _ _ hone
  -- What is read is the reader's own result, behind a comma or without one.
  intro text found rest hread
  unfold Json.nextItem at hread
  split at hread
  case h_1 => contradiction
  case h_2 =>
  split at hread
  case isTrue =>
    obtain ⟨rfl, -⟩ := Prod.mk.inj (Except.ok.inj hread)
    rintro _ ⟨⟩
  case isFalse =>
  split at hread
  case isTrue => exact hone hread
  case isFalse =>
  split at hread
  case isFalse => contradiction
  case isTrue =>
    split at hread
    case h_1 => contradiction
    case h_2 =>
      split at hread
      case isTrue => contradiction
      case isFalse => exact hone hread

/-- An item that is due has the property. -/
theorem Yields.dueItem (h : Yields one P) (isFirst : Bool) :
    Yields (Json.dueItem isFirst one) P := by
  intro text found rest hread
  unfold Json.dueItem at hread
  split at hread
  case h_1 | h_2 => contradiction
  case h_3 hnext =>
    obtain ⟨rfl, -⟩ := Prod.mk.inj (Except.ok.inj hread)
    exact h.nextItem isFirst _ _ _ hnext _ rfl

/-- A property of what is gathered that each field keeps is kept by all of them. -/
theorem members_invariant {field : String → σ → Except Flaw (List Glyph → Read σ)}
    (hfield : ∀ name gathered reader, Q gathered → field name gathered = .ok reader →
      Yields reader Q) {bound text rest : List Glyph} {gathered found : σ} (h : Q gathered)
    (hread : members field bound gathered text = .ok (found, rest)) : Q found := by
  -- Every field is read with what was gathered before it, so the property goes along.
  induction bound generalizing gathered text with
  | nil => contradiction
  | cons glyph bound ih =>
    rw [members] at hread
    split at hread
    case h_1 => contradiction
    case h_2 name behind hname =>
    split at hread
    case h_1 => contradiction
    case h_2 reader hreader =>
    split at hread
    case h_1 => contradiction
    case h_2 next after hvalue =>
    have hnext := hfield _ _ _ h hreader _ _ _ hvalue
    split at hread
    case h_1 => contradiction
    case h_2 =>
    split at hread
    case isTrue =>
      obtain ⟨rfl, -⟩ := Prod.mk.inj (Except.ok.inj hread)
      exact hnext
    case isFalse =>
    split at hread
    case isFalse => contradiction
    case isTrue =>
    split at hread
    case h_1 => contradiction
    case h_2 =>
    split at hread
    case isTrue => exact ih hnext hread
    case isFalse => split at hread <;> contradiction

/-- A property of what is gathered that each field keeps holds in the end. -/
theorem object_invariant {field : String → σ → Except Flaw (List Glyph → Read σ)}
    (hfield : ∀ name gathered reader, Q gathered → field name gathered = .ok reader →
      Yields reader Q) {start : σ} (hstart : Q start) : Yields (object field start) Q := by
  intro text found rest hread
  unfold object at hread
  split at hread
  case h_1 => contradiction
  case h_2 =>
  split at hread
  case isTrue =>
    obtain ⟨rfl, -⟩ := Prod.mk.inj (Except.ok.inj hread)
    exact hstart
  case isFalse =>
  split at hread
  case isTrue => exact members_invariant hfield hstart hread
  case isFalse => contradiction

/-- A field that is read by name keeps what its value keeps. -/
theorem Yields.oneField (h : Yields one P) {known : Option α} {set : α → σ}
    (hset : ∀ x, P x → Q (set x)) {reader : List Glyph → Read σ}
    (hreader : Json.oneField known one set = .ok reader) : Yields reader Q := by
  cases known with
  | some found => contradiction
  | none =>
    obtain rfl := Except.ok.inj hreader
    intro text found rest hread
    obtain ⟨⟨x, behind⟩, hafter, heq⟩ := exists_of_map_eq_ok hread
    obtain ⟨rfl, -⟩ := Prod.mk.inj heq
    obtain ⟨after, -, hone⟩ := afterColon_eq_ok_iff.mp hafter
    exact hset x (h _ _ _ hone)

theorem yields_otherField {gathered : σ} (h : Q gathered) {reader : List Glyph → Read σ}
    (hreader : otherField gathered = .ok reader) : Yields reader Q := by
  obtain rfl := Except.ok.inj hreader
  intro text found rest hread
  obtain ⟨_, -, heq⟩ := exists_of_map_eq_ok hread
  obtain ⟨rfl, -⟩ := Prod.mk.inj heq
  exact h

/-- A record has the property in either form. -/
theorem Yields.record {byPosition byName : List Glyph → Read α} (hposition : Yields byPosition P)
    (hname : Yields byName P) : Yields (Json.record byPosition byName) P := by
  intro text found rest hread
  unfold Json.record at hread
  split at hread
  case h_1 => contradiction
  case h_2 =>
  split at hread
  case isTrue => exact hposition _ _ _ hread
  case isFalse =>
  split at hread
  case isTrue => exact hname _ _ _ hread
  case isFalse => contradiction

end Yields

/-! ### Schemas -/

/-- What is known of the values of fields with these types. -/
@[reducible] def Traits : List Type → Type
  | [] => Unit
  | α :: types => (α → Prop) × Traits types

/-- Whatever has been gathered has its trait. -/
def Have : {types : List Type} → Traits types → Gathered types → Prop
  | [], _, _ => True
  | _ :: _, (P, traits), (found, gathered) => (∀ x ∈ found, P x) ∧ Have traits gathered

namespace Schema

variable {types : List Type} {schema : Schema types} {traits : Traits types}

/-- Whatever is read has its trait. -/
inductive Yields : {types : List Type} → Schema types → Traits types → Prop
  | done : Yields .done ()
  | field {α : Type} {types : List Type} {name : String} {isDue : Bool} {one : List Glyph → Read α}
    {P : α → Prop} {others : Schema types} {traits : Traits types} (hone : Json.Yields one P)
    (hothers : others.Yields traits) : Yields (.field name isDue one others) (P, traits)

theorem yields_readItem {α : Type} {one : List Glyph → Read α} {P : α → Prop}
    (h : Json.Yields one P) (isDue isFirst : Bool) :
    Json.Yields (readItem isDue isFirst one) fun found => ∀ x ∈ found, P x := by
  intro text found rest hread
  cases isDue with
  | false => exact h.nextItem isFirst _ _ _ hread
  | true =>
    obtain ⟨⟨x, behind⟩, hdue, heq⟩ := exists_of_map_eq_ok hread
    obtain ⟨rfl, -⟩ := Prod.mk.inj heq
    rintro _ ⟨⟩
    exact h.dueItem isFirst _ _ _ hdue

theorem yields_readItems (h : schema.Yields traits) (isFirst : Bool) :
    Json.Yields (schema.readItems isFirst) (Have traits) := by
  induction schema generalizing isFirst with
  | done => exact fun _ _ _ _ => trivial
  | field name isDue one others ih =>
    obtain ⟨P, traits⟩ := traits
    cases h with | field hone hothers => ?_
    intro text found rest hread
    obtain ⟨⟨first, behind⟩, hfirst, hread⟩ := exists_of_bind_eq_ok hread
    obtain ⟨⟨gathered, last⟩, hmore, hread⟩ := exists_of_bind_eq_ok hread
    obtain ⟨rfl, -⟩ := Prod.mk.inj (Except.ok.inj hread)
    exact ⟨yields_readItem hone isDue isFirst _ _ _ hfirst, ih hothers false _ _ _ hmore⟩

theorem have_start (schema : Schema types) (traits : Traits types) :
    Have traits schema.start := by
  induction schema with
  | done => trivial
  | field name isDue one others ih => exact ⟨nofun, ih traits.2⟩

/-- A field that is read by name leaves what has been gathered with its traits. -/
theorem yields_readField (h : schema.Yields traits) {name : String} {gathered : Gathered types}
    (hgathered : Have traits gathered) {reader : List Glyph → Read (Gathered types)}
    (hreader : schema.readField name gathered = .ok reader) : Json.Yields reader (Have traits) := by
  induction schema with
  | done => exact yields_otherField trivial hreader
  | field key isDue one others ih =>
    obtain ⟨P, traits⟩ := traits
    obtain ⟨known, gathered⟩ := gathered
    cases h with | field hone hothers => ?_
    rw [readField] at hreader
    split at hreader
    case isTrue =>
      exact hone.oneField (fun x hx => ⟨by simpa using hx, hgathered.2⟩) hreader
    case isFalse =>
      obtain ⟨read, hmore, rfl⟩ := exists_of_map_eq_ok hreader
      intro text found rest hread
      obtain ⟨⟨new, behind⟩, hnew, heq⟩ := exists_of_map_eq_ok hread
      obtain ⟨rfl, -⟩ := Prod.mk.inj heq
      exact ⟨hgathered.1, ih hothers hgathered.2 hmore _ _ _ hnew⟩

theorem yields_making {α : Type} {P : α → Prop} {finish? : Gathered types → Option α}
    {all : List Glyph → Read (Gathered types)} (hall : Json.Yields all (Have traits))
    (hfinish : ∀ gathered found, Have traits gathered → finish? gathered = some found → P found) :
    Json.Yields (making finish? all) P := by
  intro text found rest hread
  unfold making at hread
  split at hread
  case h_1 => contradiction
  case h_2 gathered behind hgathered =>
  split at hread
  case h_1 hfound =>
    obtain ⟨rfl, -⟩ := Prod.mk.inj (Except.ok.inj hread)
    exact hfinish _ _ (hall _ _ _ hgathered) hfound
  case h_2 => contradiction

/-- **A record has a property in either form**, if it follows from the traits of its fields. -/
theorem yields_read {α : Type} {P : α → Prop} {schema : Nat → Schema types} {levels : Nat}
    {finish? : Gathered types → Option α} (h : (schema levels).Yields traits)
    (hfinish : ∀ gathered found, Have traits gathered → finish? gathered = some found → P found) :
    Json.Yields (read schema finish? (levels + 1)) P := by
  refine Yields.record (yields_making (yields_readItems h true) hfinish) (yields_making ?_ hfinish)
  exact object_invariant (fun _ _ _ hgathered => yields_readField h hgathered) (have_start _ traits)

end Schema

end Json

end Backfill
