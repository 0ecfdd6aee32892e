import Backfill.FileTree

/-!
# What stays in a tree of files

A file can be lost only by being written again.  Directories are made where nothing is, so whatever
was there before is there afterwards, and every way that led somewhere leads there still.  Writing a
file changes what is at its own place, which is no directory, so no way leads through it, and what is
at other places is read as before.

## Main definitions

* `FileTree.Keeps` — whatever is in a tree is in a later one, at the same place.

## Main results

* `FileTree.keeps_makeDirs` — making directories keeps whatever is there.
* `FileTree.Keeps.read?` — a file that is kept is read as before.
* `FileTree.read?_of_write?_of_ne` — writing one file leaves the files at other places alone.
-/

namespace Backfill

namespace FileTree

variable {tree later written : FileTree} {place : Place} {path other : String}
  {content contents : List Glyph}

/-- Whatever is in a tree is in a later one, at the same place. -/
structure Keeps (tree later : FileTree) : Prop where
  here : later.here = tree.here
  find? : ∀ place entry, tree.find? place = some entry → later.find? place = some entry

theorem Keeps.refl (tree : FileTree) : tree.Keeps tree := ⟨rfl, fun _ _ h => h⟩

theorem Keeps.trans {last : FileTree} (h : tree.Keeps later) (hlast : later.Keeps last) :
    tree.Keeps last :=
  ⟨hlast.here.trans h.here, fun place entry hfind =>
    hlast.find? place entry (h.find? place entry hfind)⟩

theorem keeps_put (h : tree.find? place = none) (entry : Entry) :
    tree.Keeps (tree.put place entry) := by
  refine ⟨rfl, fun found kept hfound => ?_⟩
  have hne : found ≠ place := by
    rintro rfl
    rw [h] at hfound
    cases hfound
  rw [find?_put_of_ne hne, hfound]

/-- Along any way, directories are made only where nothing is. -/
theorem keeps_makeAlong (tree : FileTree) (place : Place) (parts : List String) :
    tree.Keeps (tree.makeAlong place parts).1 := by
  induction parts generalizing tree place with
  | nil => exact .refl tree
  | cons part rest ih =>
    unfold makeAlong
    split
    · -- Only a missing part is put, and nothing stood at its place before.
      exact .refl tree
    · split
      · exact ih tree _
      · exact .refl tree
      · next hnone =>
        split
        · exact (keeps_put hnone .directory).trans (ih _ _)
        · exact .refl tree

/-- Making directories keeps whatever is there. -/
theorem keeps_makeDirs (tree : FileTree) (path : String) : tree.Keeps (tree.makeDirs path).1 := by
  unfold makeDirs
  split
  · exact keeps_makeAlong tree _ _
  · exact .refl tree

theorem isDirectory_of_step? {next : Place} {part : String}
    (h : tree.step? place part = some next) : tree.find? place = some .directory := by
  by_cases hdir : tree.find? place = some .directory
  · exact hdir
  · rw [step?, if_pos hdir] at h
    cases h

/-- A way that leads somewhere leads there still. -/
theorem Keeps.foldlM_step? (h : tree.Keeps later) {parts : List String} {start : Place}
    (hleads : parts.foldlM tree.step? start = some place) :
    parts.foldlM later.step? start = some place := by
  induction parts generalizing start with
  | nil => exact hleads
  | cons part rest ih =>
    rw [List.foldlM_cons] at hleads ⊢
    obtain ⟨next, hnext, hrest⟩ := Option.bind_eq_some_iff.mp hleads
    have hdir := isDirectory_of_step? hnext
    have hsame : later.step? start part = tree.step? start part := by
      rw [step?, step?, hdir, h.find? start _ hdir]
    rw [hsame, hnext]
    exact ih hrest

theorem Keeps.locate? (h : tree.Keeps later) (hplace : tree.locate? path = some place) :
    later.locate? path = some place := by
  unfold FileTree.locate? at hplace ⊢
  rw [Option.ite_none_right_eq_some] at hplace ⊢
  have hstart : later.start path = tree.start path := by rw [start, start, h.here]
  rw [hstart]
  exact ⟨hplace.1, h.foldlM_step? hplace.2⟩

theorem read?_eq_some_iff : tree.read? path = some content ↔
    ∃ place, tree.locate? path = some place ∧ tree.find? place = some (.file content) := by
  unfold read?
  cases hplace : tree.locate? path with
  | none => simp
  | some place =>
    rw [Option.bind_some]
    split <;> simp_all

/-- A file that is kept is read as before. -/
theorem Keeps.read? (h : tree.Keeps later) (hread : tree.read? path = some content) :
    later.read? path = some content := by
  obtain ⟨place, hplace, hfile⟩ := read?_eq_some_iff.mp hread
  exact read?_eq_some_iff.mpr ⟨place, h.locate? hplace, h.find? place _ hfile⟩

/-- Writing one file leaves the files at other places alone. -/
theorem read?_of_write?_of_ne (hwrite : tree.write? path content = some written)
    (hne : tree.locate? other ≠ tree.locate? path) : written.read? other = tree.read? other := by
  obtain ⟨place, hplace, hfree, rfl⟩ := write?_eq_some_iff.mp hwrite
  rw [read?, read?, locate?_put content hfree]
  cases hother : tree.locate? other with
  | none => rfl
  | some found =>
    have hapart : found ≠ place := by
      rintro rfl
      exact hne (hother.trans hplace.symm)
    rw [Option.bind_some, Option.bind_some, find?_put_of_ne hapart]

end FileTree

end Backfill
