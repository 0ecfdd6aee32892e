import Backfill.Proofs.JsonRoundTrip

/-!
# Canonical values

A value is canonical if the fields of all its objects are in ascending order of their names, each
name once.  Putting a value into this form keeps it if it has it already, and nests it no deeper.

## Main results

* `Json.pairwise_sortFields`, `Json.sortFields_eq_self` — fields are sorted, and stay as they are if
  they have been.
* `Json.canonical_canonical` — **the canonical form of a canonical value is that value.**
* `Json.depth_canonical_le` — it is nested no deeper.
-/

namespace Backfill

namespace Json

variable {key : String} {value : Json} {fields sorted : List (String × Json)}
  {field : String × Json}

/-! ### Sorting -/

/-- Putting in a field adds nothing else. -/
theorem mem_of_mem_insertField (h : field ∈ insertField key value fields) :
    field = (key, value) ∨ field ∈ fields := by
  induction fields with
  | nil => exact .inl (List.mem_singleton.mp h)
  | cons first rest ih =>
    obtain ⟨name, old⟩ := first
    -- The new field stands in place of one of its name, before a greater one, or further back.
    rw [insertField] at h
    split at h
    case isTrue => exact List.mem_cons.mp h
    case isFalse =>
    split at h
    case isTrue =>
      obtain heq | hmem := List.mem_cons.mp h
      · exact .inl heq
      · exact .inr (List.mem_cons_of_mem _ hmem)
    case isFalse =>
      obtain heq | hmem := List.mem_cons.mp h
      · exact .inr (List.mem_cons.mpr (.inl heq))
      · exact (ih hmem).imp_right (List.mem_cons_of_mem _)

/-- A field is put in where its name belongs. -/
theorem pairwise_insertField (h : fields.Pairwise (·.1 < ·.1)) :
    (insertField key value fields).Pairwise (·.1 < ·.1) := by
  induction fields with
  | nil => exact List.pairwise_singleton _ _
  | cons first rest ih =>
    obtain ⟨name, old⟩ := first
    obtain ⟨hfirst, hrest⟩ := List.pairwise_cons.mp h
    rw [insertField]
    split
    case isTrue hlt =>
      refine List.pairwise_cons.mpr ⟨List.forall_mem_cons.mpr ⟨hlt, fun field hfield => ?_⟩, h⟩
      exact String.lt_trans hlt (hfirst field hfield)
    case isFalse hge =>
    split
    case isTrue heq =>
      subst heq
      exact List.pairwise_cons.mpr ⟨hfirst, hrest⟩
    case isFalse hne =>
      refine List.pairwise_cons.mpr ⟨fun field hfield => ?_, ih hrest⟩
      obtain rfl | hmem := mem_of_mem_insertField hfield
      · -- two names are in order one way or the other
        exact String.not_le.mp fun hle => hne (String.le_antisymm hle (String.not_lt.mp hge))
      · exact hfirst field hmem

theorem pairwise_foldl_insertField (h : sorted.Pairwise (·.1 < ·.1)) :
    (fields.foldl (fun sorted field => insertField field.1 field.2 sorted) sorted).Pairwise
      (·.1 < ·.1) := by
  induction fields generalizing sorted with
  | nil => exact h
  | cons field rest ih => exact ih (pairwise_insertField h)

/-- Fields are sorted by name, each name once. -/
theorem pairwise_sortFields (fields : List (String × Json)) :
    (sortFields fields).Pairwise (·.1 < ·.1) := pairwise_foldl_insertField .nil

theorem mem_of_mem_foldl_insertField
    (h : field ∈ fields.foldl (fun sorted field => insertField field.1 field.2 sorted) sorted) :
    field ∈ fields ∨ field ∈ sorted := by
  induction fields generalizing sorted with
  | nil => exact .inr h
  | cons first rest ih =>
    obtain hrest | hinsert := ih h
    · exact .inl (List.mem_cons_of_mem _ hrest)
    · obtain rfl | hsorted := mem_of_mem_insertField hinsert
      · exact .inl List.mem_cons_self
      · exact .inr hsorted

theorem mem_of_mem_sortFields (h : field ∈ sortFields fields) : field ∈ fields :=
  (mem_of_mem_foldl_insertField h).resolve_right List.not_mem_nil

theorem insertField_eq_append (h : ∀ field ∈ fields, field.1 < key) :
    insertField key value fields = fields ++ [(key, value)] := by
  induction fields with
  | nil => rfl
  | cons first rest ih =>
    obtain ⟨name, old⟩ := first
    obtain ⟨hfirst, hrest⟩ := List.forall_mem_cons.mp h
    have hne : key ≠ name := by
      rintro rfl
      exact String.lt_irrefl _ hfirst
    rw [insertField, if_neg (String.lt_asymm hfirst), if_neg hne, ih hrest, List.cons_append]

/-- Fields that are in order stay as they are. -/
theorem sortFields_eq_self (h : fields.Pairwise (·.1 < ·.1)) : sortFields fields = fields := by
  have hfold (before : List (String × Json)) (hall : (before ++ fields).Pairwise (·.1 < ·.1)) :
      fields.foldl (fun sorted field => insertField field.1 field.2 sorted) before =
        before ++ fields := by
    clear h
    induction fields generalizing before with
    | nil => exact (List.append_nil before).symm
    | cons field rest ih =>
      have hlast : ∀ other ∈ before, other.1 < field.1 := fun other hother =>
        (List.pairwise_append.mp hall).2.2 other hother field List.mem_cons_self
      rw [List.foldl_cons, insertField_eq_append hlast, ih _ (by simpa using hall)]
      simp
  exact hfold [] h

/-! ### Values -/

theorem canonicalItems_eq_map (items : List Json) : canonicalItems items = items.map canonical := by
  induction items with
  | nil => rfl
  | cons item rest ih => rw [canonicalItems, ih, List.map_cons]

theorem canonicalFields_eq_map (fields : List (String × Json)) :
    canonicalFields fields = fields.map fun field => (field.1, field.2.canonical) := by
  induction fields with
  | nil => rfl
  | cons field rest ih => rw [canonicalFields, ih, List.map_cons]

theorem canonical_ne_null (h : value ≠ .null) : value.canonical ≠ .null := by
  cases value with
  | null => exact absurd rfl h
  | bool | int | real | str | arr | obj => exact nofun

/-- **The canonical form of a canonical value is that value.** -/
theorem canonical_canonical (value : Json) : value.canonical.canonical = value.canonical := by
  induction value using inductionOn with
  | null | bool | int | real | str => rfl
  | arr items ih =>
    simp only [canonical, canonicalItems_eq_map, List.map_map, Json.arr.injEq]
    exact List.map_congr_left ih
  | obj fields ih =>
    -- the values of sorted fields are canonical, and sorting them once more changes nothing
    have hvalues : canonicalFields (sortFields (canonicalFields fields)) =
        sortFields (canonicalFields fields) := by
      refine (canonicalFields_eq_map _).trans ((List.map_congr_left fun field hfield => ?_).trans
        (List.map_id _))
      have hmem := mem_of_mem_sortFields hfield
      rw [canonicalFields_eq_map] at hmem
      obtain ⟨source, hsource, rfl⟩ := List.mem_map.mp hmem
      exact Prod.ext rfl (ih source hsource)
    rw [canonical, canonical, hvalues, sortFields_eq_self (pairwise_sortFields _)]

/-- A canonical form is nested no deeper. -/
theorem depth_canonical_le (value : Json) : value.canonical.depth ≤ value.depth := by
  induction value using inductionOn with
  | null | bool | int | real | str => exact Nat.le_refl _
  | arr items ih =>
    rw [canonical, depth, depth, Nat.add_le_add_iff_right, depthItems_le_iff, canonicalItems_eq_map,
      List.forall_mem_map]
    exact fun item hitem => Nat.le_trans (ih item hitem)
      (depthItems_le_iff.mp (Nat.le_refl _) item hitem)
  | obj fields ih =>
    rw [canonical, depth, depth, Nat.add_le_add_iff_right, depthFields_le_iff]
    intro field hfield
    -- Sorting only drops fields, and the depth of an object is bounded field by field.
    have hmem := mem_of_mem_sortFields hfield
    rw [canonicalFields_eq_map] at hmem
    obtain ⟨source, hsource, rfl⟩ := List.mem_map.mp hmem
    exact Nat.le_trans (ih source hsource) (depthFields_le_iff.mp (Nat.le_refl _) source hsource)

end Json

end Backfill
