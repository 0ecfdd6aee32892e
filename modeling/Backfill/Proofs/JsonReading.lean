import Backfill.Proofs.JsonGrammar

/-!
# Values are read by the grammar

The reader of values goes through the items of an array and the fields of an object one by one.  It
accepts what the grammar says, as long as arrays and objects are not nested too deeply, and since it
returns one result, a text stands for one value at most.

## Main definitions

* `Json.fieldRead` — what a reader of fields makes of one field.
* `Json.Accepts` — a reader reads the values down to a level, and nothing else.

## Main results

* `Json.object_toOption` — fields are gathered one after the other, by any reader of fields.
* `Json.value_eq_ok_iff`, `Json.read_eq_ok_iff` — **a text is read as a value just if it denotes
  that value, and the value is not nested too deeply.**
* `Json.Spells.unique` — a text stands for one value at most.
-/

namespace Backfill

namespace Json

/-! ### Items and fields -/

section Items

theorem afterColon_eq_ok_iff {α : Type} {one : List Glyph → Read α} {text rest : List Glyph}
    {value : α} : afterColon one text = .ok (value, rest) ↔
      ∃ after, skipBlank text = some ':' :: after ∧ one after = .ok (value, rest) := by
  unfold afterColon colon
  cases htext : skipBlank text with
  | nil => simp
  | cons glyph after =>
    by_cases hglyph : glyph = some ':'
    · simp [hglyph]
    · simp [hglyph]

variable {α σ : Type} {text rest : List Glyph}

/-- What is read from an array is items in a row. -/
theorem following_of_elements {one : List Glyph → Read α} {P : α → List Glyph → List Glyph → Prop}
    (hone : ∀ {item text rest}, one (skipBlank text) = .ok (item, rest) → P item text rest)
    {bound : List Glyph} {gathered found : List α}
    (h : elements one bound gathered (skipBlank text) = .ok (found, rest)) :
    ∃ item items behind, found = gathered.reverse ++ item :: items ∧ P item text behind ∧
      Following ']' P items behind rest := by
  -- the reader recurses on the bound; what it has gathered so far is in reverse
  induction bound generalizing gathered text with
  | nil => contradiction
  | cons glyph bound ih =>
    rw [elements] at h
    cases hread : one (skipBlank text) with
    | error fault => simp [hread] at h
    | ok result =>
      obtain ⟨item, behind⟩ := result
      simp only [hread] at h
      cases hbehind : skipBlank behind with
      | nil => simp [hbehind] at h
      | cons mark tail =>
        simp only [hbehind] at h
        split at h
        case isTrue hclose =>
          subst hclose
          obtain ⟨rfl, rfl⟩ := Prod.mk.inj (Except.ok.inj h)
          exact ⟨item, [], behind, List.reverse_cons, hone hread, .done hbehind⟩
        case isFalse =>
        split at h
        case isFalse => contradiction
        case isTrue hcomma =>
          subst hcomma
          cases htail : skipBlank tail with
          | nil => simp [htail] at h
          | cons next rest' =>
            simp only [htail] at h
            split at h
            case isTrue => contradiction
            case isFalse =>
              rw [← htail] at h
              obtain ⟨second, items, last, rfl, hsecond, hmore⟩ := ih h
              exact ⟨item, second :: items, behind, by simp, hone hread,
                .next hbehind hsecond hmore⟩

/-- Items in a row are read from an array. -/
theorem elements_of_following {one : List Glyph → Read α} {P : α → List Glyph → List Glyph → Prop}
    (hone : ∀ {item text rest}, P item text rest → one (skipBlank text) = .ok (item, rest))
    (hstart : ∀ {item text rest}, P item text rest →
      ∃ glyph tail, skipBlank text = glyph :: tail ∧ glyph ≠ some ']')
    {item : α} {items gathered : List α} {behind bound : List Glyph} (hitem : P item text behind)
    (hmore : Following ']' P items behind rest) (hbound : items.length < bound.length) :
    elements one bound gathered (skipBlank text) =
      .ok (gathered.reverse ++ item :: items, rest) := by
  -- each step spends one glyph of the bound, and puts the item before the one that is next
  induction hmore generalizing item text gathered bound with
  | done hclose =>
    obtain ⟨_, bound, rfl⟩ := List.exists_cons_of_length_pos (Nat.zero_lt_of_lt hbound)
    rw [elements, hone hitem]
    simp [hclose]
  | @next _ tail _ _ _ _ hcomma hsecond _ ih =>
    obtain ⟨_, bound, rfl⟩ := List.exists_cons_of_length_pos (Nat.zero_lt_of_lt hbound)
    obtain ⟨glyph, more, htail, hglyph⟩ := hstart hsecond
    have hread : elements one bound (item :: gathered) (skipBlank tail) = _ :=
      ih hsecond (Nat.lt_of_succ_lt_succ hbound)
    rw [htail] at hread
    simp [elements, hone hitem, hcomma, htail, hglyph, hread]

/-- What a field becomes: nothing, if its name or its value is refused. -/
def fieldRead (field : String → σ → Except Flaw (List Glyph → Read σ)) (gathered : σ)
    (name : String) (text : List Glyph) : Option (σ × List Glyph) :=
  (field name gathered).toOption.bind fun reader => (reader text).toOption

variable {field : String → σ → Except Flaw (List Glyph → Read σ)} {gathered found : σ}
  {name : String} {behind last tail next bound : List Glyph} {glyph : Glyph}

/-- A field that is taken has been read. -/
theorem exists_reader_of_fieldRead (h : fieldRead field gathered name text = some (found, rest)) :
    ∃ reader, field name gathered = .ok reader ∧ reader text = .ok (found, rest) := by
  unfold fieldRead at h
  cases hfield : field name gathered with
  | error flaw => simp [hfield, Except.toOption] at h
  | ok reader =>
    cases hread : reader text with
    | error fault => simp [hfield, hread, Except.toOption] at h
    | ok result =>
      refine ⟨reader, rfl, ?_⟩
      rw [hread]
      simpa [hfield, hread, Except.toOption] using h

/-- A field that is refused spoils the object. -/
theorem members_of_none (hname : stringValue text = .ok (name, behind))
    (h : fieldRead field gathered name behind = none) :
    (members field bound gathered text).toOption = none := by
  cases bound with
  | nil => rfl
  | cons glyph bound =>
    cases hfield : field name gathered with
    | error flaw => simp [members, hname, hfield, Except.toOption]
    | ok reader =>
      cases hread : reader behind with
      | error fault => simp [members, hname, hfield, hread, Except.toOption]
      | ok result => simp [fieldRead, hfield, hread, Except.toOption] at h

theorem members_of_close (hname : stringValue text = .ok (name, behind))
    (h : fieldRead field gathered name behind = some (found, last))
    (hlast : skipBlank last = some '\x7d' :: rest) :
    members field (glyph :: bound) gathered text = .ok (found, rest) := by
  obtain ⟨reader, hfield, hread⟩ := exists_reader_of_fieldRead h
  simp [members, hname, hfield, hread, hlast]

theorem members_of_comma (hname : stringValue text = .ok (name, behind))
    (h : fieldRead field gathered name behind = some (found, last))
    (hlast : skipBlank last = some ',' :: tail) (hquote : skipBlank tail = some '"' :: next) :
    members field (glyph :: bound) gathered text = members field bound found next := by
  obtain ⟨reader, hfield, hread⟩ := exists_reader_of_fieldRead h
  simp [members, hname, hfield, hread, hlast, hquote]

/-- Fields in a row are gathered one after the other. -/
theorem members_toOption {P : α → List Glyph → List Glyph → Prop}
    {step : σ → String × α → Option σ}
    (hfield : ∀ gathered name value {text after rest}, skipBlank text = some ':' :: after →
      P value after rest →
        fieldRead field gathered name text = (step gathered (name, value)).map (·, rest))
    {front : List Glyph} {one : String × α} {fields : List (String × α)}
    (hone : Field P one front last) (hfront : skipBlank front = some '"' :: text)
    (hmore : Following '\x7d' (Field P) fields last rest) (hbound : fields.length < bound.length) :
    (members field bound gathered text).toOption =
      ((one :: fields).foldlM step gathered).map (·, rest) := by
  -- a field that is refused makes both sides nothing, whatever stands behind it
  induction hmore generalizing one front text gathered bound with
  | done hclose =>
    obtain ⟨_, bound, rfl⟩ := List.exists_cons_of_length_pos (Nat.zero_lt_of_lt hbound)
    obtain @⟨_, _, _, _, _, name, value, hquote, hname, hcolon, hvalue⟩ := hone
    obtain ⟨-, rfl⟩ := List.cons.inj (hquote.symm.trans hfront)
    have hname := stringValue_eq_ok_iff.mpr hname
    have hread := hfield gathered name value hcolon hvalue
    rw [List.foldlM_cons]
    cases hstep : step gathered (name, value) with
    | none => exact members_of_none hname (by rw [hread, hstep]; rfl)
    | some found =>
      rw [members_of_close hname (by rw [hread, hstep]; rfl) hclose]
      rfl
  | @next _ tail _ _ _ fields hcomma hsecond _ ih =>
    obtain ⟨_, bound, rfl⟩ := List.exists_cons_of_length_pos (Nat.zero_lt_of_lt hbound)
    obtain @⟨_, _, _, _, _, name, value, hquote, hname, hcolon, hvalue⟩ := hone
    obtain ⟨-, rfl⟩ := List.cons.inj (hquote.symm.trans hfront)
    have hname := stringValue_eq_ok_iff.mpr hname
    have hread := hfield gathered name value hcolon hvalue
    rw [List.foldlM_cons]
    cases hstep : step gathered (name, value) with
    | none => exact members_of_none hname (by rw [hread, hstep]; rfl)
    | some found =>
      obtain ⟨next, hnext⟩ := hsecond.exists_quote
      rw [members_of_comma hname (by rw [hread, hstep]; rfl) hcomma hnext]
      exact ih hsecond hnext (Nat.lt_of_succ_lt_succ hbound)

/-- What is read from an object is fields in a row. -/
theorem following_of_members {one : List Glyph → Read Json}
    {P : Json → List Glyph → List Glyph → Prop}
    (hone : ∀ {value text rest}, one text = .ok (value, rest) → P value text rest)
    {front : List Glyph} {gathered found : List (String × Json)}
    (hfront : skipBlank front = some '"' :: text)
    (h : members (anyField one) bound gathered text = .ok (found, rest)) :
    ∃ field fields last, found = fields.reverse ++ field :: gathered ∧ Field P field front last ∧
      Following '\x7d' (Field P) fields last rest := by
  induction bound generalizing front text gathered with
  | nil => contradiction
  | cons glyph bound ih =>
    -- The reader's steps in turn: a name, a colon and a value, and then a closing brace or a comma.
    cases hname : stringValue text with
    | error fault => simp [members, hname] at h
    | ok result =>
      obtain ⟨name, behind⟩ := result
      cases hread : afterColon one behind with
      | error fault => simp [members, hname, anyField, hread, Except.map] at h
      | ok result =>
        obtain ⟨value, last⟩ := result
        simp only [members, hname, anyField, hread, Except.map] at h
        obtain ⟨after, hcolon, hvalue⟩ := afterColon_eq_ok_iff.mp hread
        have hfield : Field P (name, value) front last :=
          .intro hfront (stringValue_eq_ok_iff.mp hname) hcolon (hone hvalue)
        cases hlast : skipBlank last with
        | nil => simp [hlast] at h
        | cons mark tail =>
          simp only [hlast] at h
          split at h
          case isTrue hclose =>
            subst hclose
            obtain ⟨rfl, rfl⟩ := Prod.mk.inj (Except.ok.inj h)
            exact ⟨(name, value), [], last, rfl, hfield, .done hlast⟩
          case isFalse =>
          split at h
          case isFalse => contradiction
          case isTrue hcomma =>
            subst hcomma
            -- Behind a comma only another field may follow, which is the induction's.
            cases htail : skipBlank tail with
            | nil => simp [htail] at h
            | cons quote next =>
              simp only [htail] at h
              split at h
              case isFalse => split at h <;> contradiction
              case isTrue hquote =>
                subst hquote
                obtain ⟨second, fields, end_, rfl, hsecond, hmore⟩ := ih htail h
                exact ⟨(name, value), second :: fields, last, by simp, hfield,
                  .next hlast hsecond hmore⟩

end Items

/-! ### The reader -/

section Reader

variable {text rest : List Glyph} {v : Json} {levels : Nat} {one : List Glyph → Read Json}

/-- A reader reads the values that are nested at most so many levels, and nothing else. -/
def Accepts (levels : Nat) (one : List Glyph → Read Json) : Prop :=
  ∀ v text rest, one text = .ok (v, rest) ↔ SpellsWithin levels v text rest

/-- Items that are read one by one are read as an array. -/
theorem array_eq_ok_iff (hone : Accepts levels one) {items : List Json} :
    array one text = .ok (items, rest) ↔ Enclosed ']' (SpellsWithin levels) items text rest := by
  constructor
  · intro h
    unfold array at h
    cases htext : skipBlank text with
    | nil => simp [htext] at h
    | cons glyph tail =>
      simp only [htext] at h
      split at h
      case isTrue hclose =>
        subst hclose
        obtain ⟨rfl, rfl⟩ := Prod.mk.inj (Except.ok.inj h)
        exact .empty htext
      case isFalse =>
        rw [← htext] at h
        have hsound {item text rest} (hread : one (skipBlank text) = .ok (item, rest)) :
            SpellsWithin levels item text rest := by
          obtain ⟨hspells, hdepth⟩ := (hone _ _ _).mp hread
          exact ⟨spells_skipBlank.mp hspells, hdepth⟩
        obtain ⟨item, others, behind, rfl, hitem, hmore⟩ := following_of_elements hsound h
        exact .items hitem hmore
  · intro h
    unfold array
    cases h with
    | empty hclose => simp [hclose]
    | @items _ behind _ item others hitem hmore =>
      obtain ⟨glyph, tail, htext, hglyph⟩ := hitem.1.exists_start
      -- the text is long enough to bound the items also without the blanks in front
      have hbound : others.length < (skipBlank text).length := by
        have := (spells_skipBlank.mpr hitem.1).length_lt
        have := hmore.length_lt fun _ _ _ h => h.1.length_lt
        omega
      have hread : elements one (skipBlank text) [] (skipBlank text) =
          .ok ([].reverse ++ item :: others, rest) :=
        elements_of_following (fun h => (hone _ _ _).mpr ⟨spells_skipBlank.mpr h.1, h.2⟩)
          (fun h => h.1.exists_start) hitem hmore hbound
      rw [htext] at hread
      simpa [htext, hglyph] using hread

/-- Fields are gathered one after the other from behind the brace of an object. -/
theorem object_toOption {α σ : Type} {P : α → List Glyph → List Glyph → Prop}
    {field : String → σ → Except Flaw (List Glyph → Read σ)} {step : σ → String × α → Option σ}
    (hfield : ∀ gathered name value {text after rest}, skipBlank text = some ':' :: after →
      P value after rest →
        fieldRead field gathered name text = (step gathered (name, value)).map (·, rest))
    (hlength : ∀ value text rest, P value text rest → rest.length < text.length)
    {fields : List (String × α)} (h : Enclosed '\x7d' (Field P) fields text rest) (start : σ) :
    (object field start text).toOption = (fields.foldlM step start).map (·, rest) := by
  unfold object
  cases h with
  | empty hclose => simp [hclose, Except.toOption]
  | @items _ behind _ one others hone hmore =>
    obtain ⟨tail, hquote⟩ := hone.exists_quote
    -- The bound on the number of fields is the text's length, and every field takes some of it.
    have hbound : others.length < (some '"' :: tail).length := by
      have hfirst := hone
      obtain ⟨hquote', hname, hcolon, hvalue⟩ := hfirst
      have hmany := hmore.length_lt fun _ _ _ h => h.length_lt hlength
      have htail := hname.length_lt
      have hafter := length_lt_of_skipBlank hcolon
      have hbehind := hlength _ _ _ hvalue
      obtain ⟨-, rfl⟩ := List.cons.inj (hquote.symm.trans hquote')
      rw [List.length_cons]
      omega
    have hread : (members field (some '"' :: tail) start tail).toOption =
        ((one :: others).foldlM step start).map (·, rest) :=
      members_toOption hfield hone hquote hmore hbound
    simpa [hquote] using hread

theorem foldlM_cons_eq {α : Type} (items gathered : List α) :
    items.foldlM (fun gathered item => some (item :: gathered)) gathered =
      some (items.reverse ++ gathered) := by
  induction items generalizing gathered with
  | nil => rfl
  | cons item rest ih => simp [ih]

theorem toOption_eq_some_iff {ε α : Type} {result : Except ε α} {found : α} :
    result.toOption = some found ↔ result = .ok found := by
  cases result <;> simp [Except.toOption]

/-- Fields that are read one by one are read as an object. -/
theorem object_eq_ok_iff (hone : Accepts levels one) {fields : List (String × Json)} :
    object (anyField one) [] text = .ok (fields, rest) ↔
      Enclosed '\x7d' (Field (SpellsWithin levels)) fields.reverse text rest := by
  constructor
  · intro h
    unfold object at h
    cases htext : skipBlank text with
    | nil => simp [htext] at h
    | cons glyph tail =>
      simp only [htext] at h
      split at h
      case isTrue hclose =>
        subst hclose
        obtain ⟨rfl, rfl⟩ := Prod.mk.inj (Except.ok.inj h)
        exact .empty htext
      case isFalse =>
      split at h
      case isFalse => contradiction
      case isTrue hquote =>
        subst hquote
        have hsound {value text rest} (hread : one text = .ok (value, rest)) :
            SpellsWithin levels value text rest := (hone _ _ _).mp hread
        obtain ⟨field, others, last, rfl, hfield, hmore⟩ := following_of_members hsound htext h
        simpa using Enclosed.items hfield hmore
  · intro h
    have hfield (gathered : List (String × Json)) (name : String) (value : Json)
        {text after rest : List Glyph} (hcolon : skipBlank text = some ':' :: after)
        (hvalue : SpellsWithin levels value after rest) :
        fieldRead (anyField one) gathered name text =
          (some ((name, value) :: gathered)).map (·, rest) := by
      have hread := afterColon_eq_ok_iff.mpr ⟨after, hcolon, (hone _ _ _).mpr hvalue⟩
      simp [fieldRead, anyField, hread, Except.map, Except.toOption]
    -- Gathering every field puts the last one first, so the fields are given the other way round.
    have hread := @object_toOption text rest Json _ _ (anyField one)
      (fun gathered field => some (field :: gathered)) hfield (fun _ _ _ h => h.1.length_lt)
      fields.reverse h []
    rwa [foldlM_cons_eq, List.reverse_reverse, List.append_nil, Option.map_some,
      toOption_eq_some_iff] at hread

theorem value_of_token (h : Token v (skipBlank text) rest) (levels : Nat) :
    value levels text = .ok (v, rest) := by
  obtain ⟨glyph, tail, htext⟩ := List.exists_cons_of_length_pos (Nat.zero_lt_of_lt h.length_lt)
  rw [htext, ← scalar_eq_ok_iff] at h
  have hlist : glyph ≠ some '[' := by
    rintro rfl
    contradiction
  have hobject : glyph ≠ some '\x7b' := by
    rintro rfl
    contradiction
  cases levels <;> simp [value, htext, hlist, hobject, h]

/-- Without levels only tokens are read. -/
theorem accepts_value_zero : Accepts 0 (value 0) := by
  intro v text rest
  constructor
  · intro h
    unfold value at h
    split at h
    case h_1 => contradiction
    case h_2 glyph tail htext =>
      split at h
      case isTrue => contradiction
      case isFalse =>
        rw [scalar_eq_ok_iff, ← htext] at h
        exact ⟨.token h, Nat.le_of_eq h.depth_eq⟩
  · rintro ⟨h, hdepth⟩
    -- An array or an object would be one level deep already.
    cases h with
    | token htoken => exact value_of_token htoken 0
    | array | object => exact absurd hdepth (Nat.not_succ_le_zero _)

/-- A bracket takes the reader of values down a level. -/
theorem accepts_value_succ (hone : Accepts levels (value levels)) :
    Accepts (levels + 1) (value (levels + 1)) := by
  intro v text rest
  constructor
  · intro h
    unfold value at h
    split at h
    case h_1 => contradiction
    case h_2 glyph tail htext =>
      split at h
      case isTrue hlist =>
        subst hlist
        cases hread : array (value levels) tail with
        | error fault => simp [hread, Except.map] at h
        | ok result =>
          rw [hread] at h
          obtain ⟨rfl, rfl⟩ := Prod.mk.inj (Except.ok.inj h)
          obtain ⟨hitems, hdepth⟩ := enclosed_spellsWithin_iff.mp ((array_eq_ok_iff hone).mp hread)
          exact ⟨.array htext hitems, hdepth⟩
      case isFalse =>
      split at h
      case isTrue hobject =>
        subst hobject
        cases hread : object (anyField (value levels)) [] tail with
        | error fault => simp [hread, Except.map] at h
        | ok result =>
          rw [hread] at h
          obtain ⟨rfl, rfl⟩ := Prod.mk.inj (Except.ok.inj h)
          obtain ⟨hfields, hdepth⟩ :=
            enclosed_field_spellsWithin_iff.mp ((object_eq_ok_iff hone).mp hread)
          exact ⟨.object htext hfields, hdepth⟩
      case isFalse =>
        rw [scalar_eq_ok_iff, ← htext] at h
        exact ⟨.token h, by rw [h.depth_eq]; exact Nat.zero_le _⟩
  · rintro ⟨h, hdepth⟩
    -- Back from the grammar to the reader, where a list or an object has one level less to give.
    cases h with
    | token htoken => exact value_of_token htoken _
    | array htext hitems =>
      have hread := (array_eq_ok_iff hone).mpr (enclosed_spellsWithin_iff.mpr ⟨hitems, hdepth⟩)
      simp [value, htext, hread, Except.map]
    | @object fields _ _ _ htext hfields =>
      rw [← List.reverse_reverse fields] at hfields hdepth
      have hread := (object_eq_ok_iff hone).mpr
        (enclosed_field_spellsWithin_iff.mpr ⟨hfields, hdepth⟩)
      simp [value, htext, hread, Except.map]

/-- **The reader of values reads what the grammar says, down to its last level.** -/
theorem value_eq_ok_iff :
    value levels text = .ok (v, rest) ↔ Spells v text rest ∧ v.depth ≤ levels := by
  have haccepts : Accepts levels (value levels) := by
    -- the reader calls itself one level down, for any item and any field
    induction levels with
    | zero => exact accepts_value_zero
    | succ levels ih => exact accepts_value_succ ih
  exact haccepts v text rest

/-- A text stands for one value at most, and this ends at one place. -/
theorem Spells.unique {other : Json} {last : List Glyph} (h : Spells v text rest)
    (hother : Spells other text last) : v = other ∧ rest = last := by
  -- a reader with enough levels for both returns one result
  have hread := value_eq_ok_iff.mpr ⟨h, Nat.le_max_left v.depth other.depth⟩
  have hreadOther := value_eq_ok_iff.mpr ⟨hother, Nat.le_max_right v.depth other.depth⟩
  exact Prod.mk.inj (Except.ok.inj (hread.symm.trans hreadOther))

theorem onlyBlank_eq_ok_iff : onlyBlank text = .ok () ↔ skipBlank text = [] := by
  unfold onlyBlank
  split
  case isTrue hempty => exact iff_of_true rfl (List.isEmpty_iff.mp hempty)
  case isFalse hrest => exact iff_of_false nofun fun heq => hrest (List.isEmpty_iff.mpr heq)

/-- A text is read to its end. -/
theorem whole_eq_ok_iff {α : Type} {one : List Glyph → Read α} {found : α} :
    whole one text = .ok found ↔ ∃ rest, one text = .ok (found, rest) ∧ skipBlank rest = [] := by
  unfold whole
  constructor
  · intro h
    split at h
    case h_1 => contradiction
    case h_2 result rest hread =>
      -- Anything behind the value but blanks is an error of its own.
      cases hblank : onlyBlank rest with
      | error fault => simp [hblank, Except.map] at h
      | ok =>
        rw [hblank] at h
        obtain rfl := Except.ok.inj h
        exact ⟨rest, hread, onlyBlank_eq_ok_iff.mp hblank⟩
  · rintro ⟨rest, hread, hrest⟩
    simp only [hread, onlyBlank_eq_ok_iff.mpr hrest, Except.map]

/-- **A text is read as a value just if it denotes that value, and the value is not nested too
deeply.** -/
theorem read_eq_ok_iff : read text = .ok v ↔ Denotes text v ∧ v.depth ≤ nesting := by
  unfold read Denotes
  simp only [whole_eq_ok_iff, value_eq_ok_iff]
  constructor
  · rintro ⟨rest, ⟨hspells, hdepth⟩, hrest⟩
    exact ⟨⟨rest, hspells, hrest⟩, hdepth⟩
  · rintro ⟨⟨rest, hspells, hrest⟩, hdepth⟩
    exact ⟨rest, ⟨hspells, hdepth⟩, hrest⟩

end Reader

end Json

end Backfill
