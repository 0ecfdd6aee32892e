import Backfill.Proofs.JsonTokens

/-!
# The grammar of JSON texts

A value is a token, or it is put together from further values: the items of an array, or the fields
of an object, stand between brackets with commas in between.  Blanks may stand in front of a value,
in front of each mark and behind the whole.  The grammar does not limit how deeply values are
nested.

## Main definitions

* `Json.Following`, `Json.Enclosed` — items behind commas, up to the bracket that closes them.
* `Json.Field` — a name, a colon and a value stand in front of a text.
* `Json.Spells` — a value stands in front of a text.
* `Json.SpellsWithin` — such a value is nested at most so many levels.
* `Json.Denotes` — a text is a value and nothing else.

## Main results

* `Json.Spells.inductionOn` — induction over the texts of values.
* `Json.Spells.length_lt`, `Json.Spells.append` — a value takes up some of the text, and does not
  depend on what follows.
-/

namespace Backfill

namespace Json

/-! ### The grammar -/

section Grammar

variable {α : Type}

/-- Items stand in front of a text, each behind a comma, and then the bracket that closes them. -/
inductive Following (close : Char) (one : α → List Glyph → List Glyph → Prop) :
    List α → List Glyph → List Glyph → Prop
  | done {text rest : List Glyph} (hclose : skipBlank text = some close :: rest) :
    Following close one [] text rest
  | next {text tail behind rest : List Glyph} {item : α} {items : List α}
    (hcomma : skipBlank text = some ',' :: tail) (hitem : one item tail behind)
    (hmore : Following close one items behind rest) : Following close one (item :: items) text rest

/-- Items stand in front of a text, with commas in between, and then the bracket that closes
them. -/
inductive Enclosed (close : Char) (one : α → List Glyph → List Glyph → Prop) :
    List α → List Glyph → List Glyph → Prop
  | empty {text rest : List Glyph} (hclose : skipBlank text = some close :: rest) :
    Enclosed close one [] text rest
  | items {text behind rest : List Glyph} {item : α} {items : List α}
    (hitem : one item text behind) (hmore : Following close one items behind rest) :
    Enclosed close one (item :: items) text rest

/-- A name, a colon and a value stand in front of a text. -/
inductive Field (one : α → List Glyph → List Glyph → Prop) :
    String × α → List Glyph → List Glyph → Prop
  | intro {text tail behind after rest : List Glyph} {name : String} {value : α}
    (hquote : skipBlank text = some '"' :: tail) (hname : StringRest name.toList tail behind)
    (hcolon : skipBlank behind = some ':' :: after) (hvalue : one value after rest) :
    Field one (name, value) text rest

end Grammar

/-- A value stands in front of a text. -/
inductive Spells : Json → List Glyph → List Glyph → Prop
  | token {value : Json} {text rest : List Glyph} (htoken : Token value (skipBlank text) rest) :
    Spells value text rest
  | array {items : List Json} {text tail rest : List Glyph}
    (htext : skipBlank text = some '[' :: tail) (hitems : Enclosed ']' Spells items tail rest) :
    Spells (.arr items) text rest
  | object {fields : List (String × Json)} {text tail rest : List Glyph}
    (htext : skipBlank text = some '\x7b' :: tail)
    (hfields : Enclosed '\x7d' (Field Spells) fields tail rest) : Spells (.obj fields) text rest

/-- A value stands in front of a text, and it is nested at most so many levels. -/
def SpellsWithin (levels : Nat) (v : Json) (text rest : List Glyph) : Prop :=
  Spells v text rest ∧ v.depth ≤ levels

/-- A text is a value, with nothing but blanks around it. -/
def Denotes (text : List Glyph) (value : Json) : Prop :=
  ∃ rest, Spells value text rest ∧ skipBlank rest = []

/-! ### Induction -/

section Induction

variable {α : Type} {close : Char} {one two : α → List Glyph → List Glyph → Prop}
  {text rest : List Glyph}

theorem Following.imp {items : List α} (h : Following close one items text rest)
    (himp : ∀ item ∈ items, ∀ text rest, one item text rest → two item text rest) :
    Following close two items text rest := by
  induction h with
  | done hclose => exact .done hclose
  | next hcomma hitem _ ih =>
    exact .next hcomma (himp _ List.mem_cons_self _ _ hitem)
      (ih fun item hmem => himp item (List.mem_cons_of_mem _ hmem))

theorem Enclosed.imp {items : List α} (h : Enclosed close one items text rest)
    (himp : ∀ item ∈ items, ∀ text rest, one item text rest → two item text rest) :
    Enclosed close two items text rest := by
  cases h with
  | empty hclose => exact .empty hclose
  | items hitem hmore =>
    exact .items (himp _ List.mem_cons_self _ _ hitem)
      (hmore.imp fun item hmem => himp item (List.mem_cons_of_mem _ hmem))

theorem Field.imp {field : String × α} (h : Field one field text rest)
    (himp : ∀ text rest, one field.2 text rest → two field.2 text rest) :
    Field two field text rest := by
  obtain ⟨hquote, hname, hcolon, hvalue⟩ := h
  exact .intro hquote hname hcolon (himp _ _ hvalue)

end Induction

/-- What holds of a text in front of which a value stands may be shown from what holds of the texts
of the values inside. -/
@[elab_as_elim]
theorem Spells.inductionOn {motive : Json → List Glyph → List Glyph → Prop} {value : Json}
    {text rest : List Glyph} (h : Spells value text rest)
    (token : ∀ {value text rest}, Token value (skipBlank text) rest → motive value text rest)
    (array : ∀ {items text tail rest}, skipBlank text = some '[' :: tail →
      Enclosed ']' motive items tail rest → motive (.arr items) text rest)
    (object : ∀ {fields text tail rest}, skipBlank text = some '\x7b' :: tail →
      Enclosed '\x7d' (Field motive) fields tail rest → motive (.obj fields) text rest) :
    motive value text rest :=
  -- a row of items, or of fields, stands for the same row with the motive in place of the grammar
  @Spells.rec (fun value text rest _ => motive value text rest)
    (fun items text rest _ => Enclosed ']' motive items text rest)
    (fun fields text rest _ => Enclosed '\x7d' (Field motive) fields text rest)
    (fun items text rest _ => Following ']' motive items text rest)
    (fun field text rest _ => Field motive field text rest)
    (fun fields text rest _ => Following '\x7d' (Field motive) fields text rest)
    (fun htoken => token htoken) (fun htext _ hitems => array htext hitems)
    (fun htext _ hfields => object htext hfields)
    .empty (fun _ _ hitem hmore => .items hitem hmore)
    .empty (fun _ _ hfield hmore => .items hfield hmore)
    .done (fun hcomma _ _ hitem hmore => .next hcomma hitem hmore)
    (fun hquote hname hcolon _ hvalue => .intro hquote hname hcolon hvalue)
    .done (fun hcomma _ _ hfield hmore => .next hcomma hfield hmore) value text rest h

/-! ### Blanks -/

section Blanks

variable {text tail : List Glyph} {glyph : Glyph}

theorem length_skipBlank_le (text : List Glyph) : (skipBlank text).length ≤ text.length :=
  (List.dropWhile_suffix isBlank).length_le

theorem length_lt_of_skipBlank (h : skipBlank text = glyph :: tail) :
    tail.length < text.length := by
  have := length_skipBlank_le text
  rw [h, List.length_cons] at this
  exact this

@[simp] theorem skipBlank_skipBlank (text : List Glyph) :
    skipBlank (skipBlank text) = skipBlank text := by
  induction text with
  | nil => rfl
  | cons glyph tail ih =>
    cases hblank : isBlank glyph with
    | true => simpa [skipBlank, hblank] using ih
    | false => rw [skipBlank_cons hblank, skipBlank_cons hblank]

theorem skipBlank_append (h : skipBlank text = glyph :: tail) (more : List Glyph) :
    skipBlank (text ++ more) = glyph :: (tail ++ more) := by
  unfold skipBlank at h ⊢
  rw [List.dropWhile_append, h]
  rfl

end Blanks

/-! ### How much is taken -/

section Length

variable {α : Type} {close : Char} {one : α → List Glyph → List Glyph → Prop}
  {text rest : List Glyph}

/-- Items take up a glyph each. -/
theorem Following.length_lt {items : List α} (h : Following close one items text rest)
    (hone : ∀ item text rest, one item text rest → rest.length < text.length) :
    rest.length + items.length < text.length := by
  induction h with
  | done hclose => exact length_lt_of_skipBlank hclose
  | next hcomma hitem _ ih =>
    have := length_lt_of_skipBlank hcomma
    have := hone _ _ _ hitem
    rw [List.length_cons]
    omega

/-- Items take up a glyph each. -/
theorem Enclosed.length_lt {items : List α} (h : Enclosed close one items text rest)
    (hone : ∀ item text rest, one item text rest → rest.length < text.length) :
    rest.length + items.length < text.length := by
  cases h with
  | empty hclose => exact length_lt_of_skipBlank hclose
  | items hitem hmore =>
    have := hone _ _ _ hitem
    have := hmore.length_lt hone
    rw [List.length_cons]
    omega

/-- A field takes up some of the text. -/
theorem Field.length_lt {field : String × α} (h : Field one field text rest)
    (hone : ∀ item text rest, one item text rest → rest.length < text.length) :
    rest.length < text.length := by
  obtain ⟨hquote, hname, hcolon, hvalue⟩ := h
  have := length_lt_of_skipBlank hquote
  have := hname.length_lt
  have := length_lt_of_skipBlank hcolon
  have := hone _ _ _ hvalue
  omega

/-- A value takes up some of the text. -/
theorem Spells.length_lt {value : Json} (h : Spells value text rest) :
    rest.length < text.length := by
  refine h.inductionOn (fun htoken => ?_) (fun htext hitems => ?_) (fun htext hfields => ?_)
  case refine_1 => exact Nat.lt_of_lt_of_le htoken.length_lt (length_skipBlank_le _)
  case refine_2 =>
    have := length_lt_of_skipBlank htext
    have := hitems.length_lt fun _ _ _ h => h
    omega
  case refine_3 =>
    have := length_lt_of_skipBlank htext
    have := hfields.length_lt fun _ _ _ h => h.length_lt fun _ _ _ h => h
    omega

end Length

/-! ### What follows -/

section Append

variable {α : Type} {close : Char} {one : α → List Glyph → List Glyph → Prop}
  {text rest more : List Glyph}

/-- Items do not depend on what follows. -/
theorem Following.append {two : α → List Glyph → List Glyph → Prop} {items : List α}
    (h : Following close one items text rest)
    (hone : ∀ item text rest, one item text rest → two item (text ++ more) (rest ++ more)) :
    Following close two items (text ++ more) (rest ++ more) := by
  induction h with
  | done hclose => exact .done (skipBlank_append hclose more)
  | next hcomma hitem _ ih => exact .next (skipBlank_append hcomma more) (hone _ _ _ hitem) ih

/-- Items do not depend on what follows. -/
theorem Enclosed.append {two : α → List Glyph → List Glyph → Prop} {items : List α}
    (h : Enclosed close one items text rest)
    (hone : ∀ item text rest, one item text rest → two item (text ++ more) (rest ++ more)) :
    Enclosed close two items (text ++ more) (rest ++ more) := by
  cases h with
  | empty hclose => exact .empty (skipBlank_append hclose more)
  | items hitem hmore => exact .items (hone _ _ _ hitem) (hmore.append hone)

/-- A field does not depend on what follows. -/
theorem Field.append {two : α → List Glyph → List Glyph → Prop} {field : String × α}
    (h : Field one field text rest)
    (hone : ∀ item text rest, one item text rest → two item (text ++ more) (rest ++ more)) :
    Field two field (text ++ more) (rest ++ more) := by
  obtain ⟨hquote, hname, hcolon, hvalue⟩ := h
  exact .intro (skipBlank_append hquote more) (hname.append more) (skipBlank_append hcolon more)
    (hone _ _ _ hvalue)

/-- A value does not depend on what follows, unless that goes on with a number. -/
theorem Spells.append {value : Json} (h : Spells value text rest) (hmore : EndsNumber more) :
    Spells value (text ++ more) (rest ++ more) := by
  refine h.inductionOn (fun htoken => ?_) (fun htext hitems => ?_) (fun htext hfields => ?_)
  case refine_1 =>
    -- only a token can go on, and this only if it is a number
    refine .token ?_
    obtain ⟨glyph, tail, htext⟩ := List.exists_cons_of_length_pos
      (Nat.zero_lt_of_lt htoken.length_lt)
    have hread := htoken.append hmore
    rw [htext] at hread
    rwa [skipBlank_append htext]
  case refine_2 => exact .array (skipBlank_append htext more) (hitems.append fun _ _ _ h => h)
  case refine_3 =>
    exact .object (skipBlank_append htext more)
      (hfields.append fun _ _ _ h => h.append fun _ _ _ h => h)

end Append

/-! ### What stands in front -/

section Front

variable {α : Type} {text rest : List Glyph} {v : Json} {levels : Nat}

theorem Following.forall_mem {close : Char} {one : α → List Glyph → List Glyph → Prop}
    {items : List α} {P : α → Prop} (h : Following close one items text rest)
    (hone : ∀ item text rest, one item text rest → P item) : ∀ item ∈ items, P item := by
  induction h with
  | done => exact fun item hitem => absurd hitem List.not_mem_nil
  | next _ hitem _ ih => exact List.forall_mem_cons.mpr ⟨hone _ _ _ hitem, ih⟩

theorem Enclosed.forall_mem {close : Char} {one : α → List Glyph → List Glyph → Prop}
    {items : List α} {P : α → Prop} (h : Enclosed close one items text rest)
    (hone : ∀ item text rest, one item text rest → P item) : ∀ item ∈ items, P item := by
  cases h with
  | empty => exact fun item hitem => absurd hitem List.not_mem_nil
  | items hitem hmore =>
    exact List.forall_mem_cons.mpr ⟨hone _ _ _ hitem, hmore.forall_mem hone⟩

theorem Field.exists_quote {one : α → List Glyph → List Glyph → Prop} {field : String × α}
    (h : Field one field text rest) : ∃ tail, skipBlank text = some '"' :: tail := by
  obtain ⟨hquote, -, -, -⟩ := h
  exact ⟨_, hquote⟩

/-- Blanks in front do not matter. -/
theorem spells_skipBlank : Spells v (skipBlank text) rest ↔ Spells v text rest := by
  constructor
  · intro h
    cases h with
    | token htoken => exact .token (by rwa [skipBlank_skipBlank] at htoken)
    | array htext hitems => exact .array (by rwa [skipBlank_skipBlank] at htext) hitems
    | object htext hfields => exact .object (by rwa [skipBlank_skipBlank] at htext) hfields
  · intro h
    cases h with
    | token htoken => exact .token (by rwa [skipBlank_skipBlank])
    | array htext hitems => exact .array (by rwa [skipBlank_skipBlank]) hitems
    | object htext hfields => exact .object (by rwa [skipBlank_skipBlank]) hfields

/-- No value starts with the bracket that ends an array. -/
theorem Spells.exists_start (h : Spells v text rest) :
    ∃ glyph tail, skipBlank text = glyph :: tail ∧ glyph ≠ some ']' := by
  cases h with
  | token htoken =>
    obtain ⟨glyph, tail, htext⟩ := List.exists_cons_of_length_pos
      (Nat.zero_lt_of_lt htoken.length_lt)
    refine ⟨glyph, tail, htext, ?_⟩
    rintro rfl
    rw [htext, ← scalar_eq_ok_iff] at htoken
    contradiction
  | array htext => exact ⟨_, _, htext, by decide⟩
  | object htext => exact ⟨_, _, htext, by decide⟩

theorem enclosed_spellsWithin_iff {items : List Json} :
    Enclosed ']' (SpellsWithin levels) items text rest ↔
      Enclosed ']' Spells items text rest ∧ (Json.arr items).depth ≤ levels + 1 := by
  rw [depth, Nat.add_le_add_iff_right, depthItems_le_iff]
  constructor
  · intro h
    exact ⟨h.imp fun _ _ _ _ h => h.1, h.forall_mem fun _ _ _ h => h.2⟩
  · rintro ⟨h, hdepth⟩
    exact h.imp fun item hmem _ _ h => ⟨h, hdepth item hmem⟩

theorem enclosed_field_spellsWithin_iff {fields : List (String × Json)} :
    Enclosed '\x7d' (Field (SpellsWithin levels)) fields text rest ↔
      Enclosed '\x7d' (Field Spells) fields text rest ∧ (Json.obj fields).depth ≤ levels + 1 := by
  rw [depth, Nat.add_le_add_iff_right, depthFields_le_iff]
  constructor
  · intro h
    refine ⟨h.imp fun _ _ _ _ h => h.imp fun _ _ h => h.1, h.forall_mem ?_⟩
    rintro field text rest ⟨-, -, -, hvalue⟩
    exact hvalue.2
  · rintro ⟨h, hdepth⟩
    exact h.imp fun field hmem _ _ h => h.imp fun _ _ h => ⟨h, hdepth field hmem⟩

theorem Token.depth_eq (h : Token v text rest) : v.depth = 0 := by
  cases h with
  | null | true | false | string => rfl
  | positive _ _ hvalue | negative _ _ hvalue =>
    obtain ⟨k, rfl⟩ | ⟨bits, rfl⟩ := eq_of_value? hvalue <;> rfl

end Front

end Json

end Backfill
