import Backfill.FileTree
import Mathlib.Data.String.Basic

/-!
# Paths of files in directories

The path of a file is put together from that of its directory and from its name, with a slash in
between if there is none.  The slashes cut it into the parts of the directory and the name again, so
it leads to wherever the name leads to from the directory; a slash that the directory has at its end
already only looks whether there is a directory, which the name does as well.

## Main definitions

* `FileTree.IsPlain` — a name that stands for something in a directory.

## Main results

* `Text.splitOn_slash` — a path is cut at its slashes.
* `FileTree.locate?_join` — **the path of a name in a directory leads from the directory to the
  name.**
* `FileTree.exists_home_of_locate?_join` — what it leads to has the name and lies in the directory.
-/

namespace Backfill

namespace Text

open String in
/-- From a place behind the last separator, the parts that are left are added. -/
theorem splitOnAux_slash (l m r : List Char) (acc : List String) :
    splitOnAux (ofList (l ++ m ++ r)) "/" ⟨utf8Len l⟩ ⟨utf8Len (l ++ m)⟩ 0 acc =
      acc.reverse ++ (List.splitOnPPrepend (· == '/') r m.reverse).map ofList := by
  induction r generalizing l m acc with
  | nil =>
    have hend : Pos.Raw.atEnd (ofList (l ++ m ++ [])) ⟨utf8Len (l ++ m)⟩ = true :=
      (atEnd_of_valid (l ++ m) []).mpr rfl
    have hextract := extract_of_valid l m []
    rw [← utf8Len_append] at hextract
    rw [splitOnAux, if_pos hend, hextract]
    simp
  | cons c r ih =>
    have hend : ¬Pos.Raw.atEnd (ofList (l ++ m ++ c :: r)) ⟨utf8Len (l ++ m)⟩ = true :=
      fun h => List.cons_ne_nil c r ((atEnd_of_valid (l ++ m) (c :: r)).mp h)
    have hget : Pos.Raw.get (ofList (l ++ m ++ c :: r)) ⟨utf8Len (l ++ m)⟩ = c :=
      get_of_valid (l ++ m) (c :: r)
    have hnext : Pos.Raw.next (ofList (l ++ m ++ c :: r)) ⟨utf8Len (l ++ m)⟩ =
        ⟨utf8Len (l ++ m ++ [c])⟩ := by
      rw [next_of_valid (l ++ m) c r, utf8Len_append (l ++ m), utf8Len_cons, utf8Len_nil,
        Nat.zero_add]
    have hextract := extract_of_valid l m (c :: r)
    rw [← utf8Len_append] at hextract
    have hregroup : l ++ m ++ c :: r = l ++ m ++ [c] ++ r := by simp
    have hslash : Pos.Raw.get "/" 0 = '/' := by decide
    rw [splitOnAux, if_neg hend, List.splitOnPPrepend_cons_eq_if, hget, hnext, hslash]
    by_cases hc : c = '/'
    · -- the part ends in front of the separator, and the next one starts behind it
      have hrest := ih (l ++ m ++ [c]) [] (ofList m :: acc)
      rw [List.append_nil, ← hregroup] at hrest
      subst hc
      have hback : Pos.Raw.unoffsetBy ⟨utf8Len (l ++ m ++ ['/'])⟩ (Pos.Raw.next "/" 0) =
          ⟨utf8Len (l ++ m)⟩ := by
        rw [utf8Len_append (l ++ m)]
        exact congrArg Pos.Raw.mk (Nat.add_sub_cancel _ 1)
      rw [if_pos (by decide), if_pos (by decide), hback, hextract, hrest, if_pos (by decide),
        List.reverse_reverse]
      simp
    · have hrest := ih l (m ++ [c]) acc
      rw [← List.append_assoc, ← hregroup] at hrest
      have hstay : Pos.Raw.unoffsetBy ⟨utf8Len (l ++ m)⟩ 0 = ⟨utf8Len (l ++ m)⟩ := rfl
      rw [if_neg (by simpa using hc), if_neg (by simpa using hc), hstay, hnext, hrest,
        List.reverse_append]
      rfl

/-- A path is cut at its slashes. -/
theorem splitOn_slash (path : String) :
    path.splitOn "/" = (path.toList.splitOn '/').map String.ofList := by
  have haux := splitOnAux_slash [] [] path.toList []
  simpa [String.splitOn, List.splitOn_eq_splitOnP] using haux

theorem startsWith_slash {path : String} :
    path.startsWith "/" = true ↔ path.toList.head? = some '/' := by
  rw [String.startsWith_string_iff, List.head?_eq_some_iff]
  exact ⟨fun ⟨rest, h⟩ => ⟨rest, h.symm⟩, fun ⟨rest, h⟩ => ⟨rest, h.symm⟩⟩

theorem endsWith_slash {path : String} :
    path.endsWith "/" = true ↔ path.toList.getLast? = some '/' := by
  rw [List.getLast?_eq_some_iff]
  change path.toSlice.endsWith "/" = true ↔ _
  rw [String.Slice.endsWith_string_iff, String.copy_toSlice]
  exact ⟨fun ⟨front, h⟩ => ⟨front, h.symm⟩, fun ⟨front, h⟩ => ⟨front, h.symm⟩⟩

end Text

namespace FileTree

variable {tree : FileTree} {dir name path : String}

/-- A name stands for something in a directory: there is no slash in it, and it is neither empty nor
made of one or two dots. -/
structure IsPlain (name : String) : Prop where
  not_mem : '/' ∉ name.toList
  ne_empty : name ≠ ""
  ne_here : name ≠ "."
  ne_above : name ≠ ".."

theorem IsPlain.not_startsWith (h : IsPlain name) : ¬name.startsWith "/" = true := fun hstart =>
  h.not_mem (List.mem_of_mem_head? (Text.startsWith_slash.mp hstart))

theorem IsPlain.step?_eq (h : IsPlain name) (place : Place) : tree.step? place name =
    if tree.find? place = some .directory ∧ isName name = true then some (place ++ [name])
    else none := by
  by_cases hdir : tree.find? place = some .directory <;>
    simp [step?, hdir, h.ne_empty, h.ne_here, h.ne_above]

theorem step?_empty_bind (place : Place) :
    (tree.step? place "").bind (tree.step? · name) = tree.step? place name := by
  by_cases hdir : tree.find? place = some .directory
  · simp [step?, hdir]
  · rw [step?, if_pos hdir, step?, if_pos hdir]
    rfl

theorem start_eq {other : String}
    (h : path.toList.head? = some '/' ↔ other.toList.head? = some '/') :
    tree.start path = tree.start other := by
  have hslash : path.startsWith "/" = other.startsWith "/" :=
    Bool.eq_iff_iff.mpr (by rw [Text.startsWith_slash, Text.startsWith_slash, h])
  rw [start, start, hslash]

theorem foldlM_step?_append (tree : FileTree) (parts : List (List Char)) (name : String)
    (start : Place) : ((parts ++ [name.toList]).map String.ofList).foldlM tree.step? start =
      ((parts.map String.ofList).foldlM tree.step? start).bind (tree.step? · name) := by
  rw [List.map_append, List.foldlM_append, List.map_singleton, String.ofList_toList]
  refine congrArg (Option.bind _) (funext fun place => ?_)
  rw [List.foldlM_cons]
  exact bind_pure _

/-- The parts of a path that is empty or ends with a slash, with a name behind it. -/
theorem exists_parts_append (hend : dir = "" ∨ dir.endsWith "/") (hname : '/' ∉ name.toList) :
    ∃ parts, dir.toList.splitOn '/' = parts ++ [[]] ∧
      (dir ++ name).toList.splitOn '/' = parts ++ [name.toList] := by
  have hsplit := List.splitOn_eq_singleton hname
  rcases hend with rfl | hend
  · refine ⟨[], rfl, ?_⟩
    rw [String.toList_append]
    exact hsplit
  · obtain ⟨front, hfront⟩ := List.getLast?_eq_some_iff.mp (Text.endsWith_slash.mp hend)
    refine ⟨front.splitOn '/', ?_, ?_⟩
    · rw [hfront, List.splitOn_append_cons_self, List.splitOn_nil]
    · rw [String.toList_append, hfront, List.append_assoc, List.singleton_append,
        List.splitOn_append_cons_self, hsplit]

/-- **The path of a name in a directory leads from the directory to the name.** -/
theorem locate?_join (h : IsPlain name) (hdir : isUsable dir = true)
    (hpath : isUsable (join dir name) = true) :
    tree.locate? (join dir name) = (tree.locate? dir).bind (tree.step? · name) := by
  have hrelative := h.not_startsWith
  -- The first character makes a path absolute, and the directory gives it unless it is empty.
  have hstart (between : String) (hbetween : dir = "" → between = "") :
      tree.start (dir ++ between ++ name) = tree.start dir := by
    refine start_eq ?_
    rw [String.toList_append, String.toList_append]
    cases hchars : dir.toList with
    | nil =>
      have hempty : dir = "" := String.toList_inj.mp hchars
      rw [hbetween hempty]
      exact iff_of_false (fun hhead => hrelative (Text.startsWith_slash.mpr hhead)) nofun
    | cons c rest => rfl
  unfold locate?
  rw [if_pos hpath, if_pos hdir, Text.splitOn_slash, Text.splitOn_slash]
  unfold join
  rw [if_neg hrelative]
  split
  · next hend =>
    obtain ⟨parts, hparts, hmore⟩ := exists_parts_append hend h.not_mem
    have hbegin := hstart "" fun _ => rfl
    rw [String.append_empty] at hbegin
    rw [hmore, hparts, foldlM_step?_append, hbegin]
    -- A directory that ends in a slash has an empty last part, which stays where it is.
    have hempty := foldlM_step?_append tree parts "" (tree.start dir)
    rw [String.toList_empty] at hempty
    rw [hempty, Option.bind_assoc]
    exact congrArg (Option.bind _) (funext fun place => (step?_empty_bind place).symm)
  · next hend =>
    have hbegin := hstart "/" fun hempty => absurd (.inl hempty) hend
    have hmore : (dir ++ "/" ++ name).toList.splitOn '/' =
        dir.toList.splitOn '/' ++ [name.toList] := by
      rw [String.toList_append, String.toList_append, List.append_assoc]
      refine (List.splitOn_append_cons_self dir.toList name.toList).trans ?_
      rw [List.splitOn_eq_singleton h.not_mem]
    rw [hmore, foldlM_step?_append, hbegin]

/-- The path of a name in a directory can be looked up only if that of the directory can. -/
theorem isUsable_of_join (h : IsPlain name) (hpath : isUsable (join dir name) = true) :
    isUsable dir = true := by
  obtain ⟨rest, hjoin⟩ : ∃ rest, join dir name = dir ++ rest := by
    unfold join
    rw [if_neg h.not_startsWith]
    split
    · exact ⟨name, rfl⟩
    · exact ⟨"/" ++ name, String.append_assoc⟩
  rw [hjoin] at hpath
  simp only [isUsable, String.utf8ByteSize_append, String.toList_append, List.contains_eq_mem,
    Bool.and_eq_true, decide_eq_true_eq, Bool.not_eq_true', decide_eq_false_iff_not,
    List.mem_append, not_or] at hpath ⊢
  obtain ⟨hsize, hzero, -⟩ := hpath
  exact ⟨by omega, hzero⟩

/-- What the path of a name in a directory leads to has this name and lies in that directory. -/
theorem exists_home_of_locate?_join {place : Place} (h : IsPlain name)
    (hplace : tree.locate? (join dir name) = some place) : ∃ home, place = home ++ [name] ∧
      tree.locate? dir = some home ∧ tree.find? home = some .directory ∧
        isUsable (join dir name) = true ∧ isName name = true := by
  have hpath : isUsable (join dir name) = true := by
    by_contra hlong
    rw [locate?, if_neg hlong] at hplace
    cases hplace
  rw [locate?_join h (isUsable_of_join h hpath) hpath, Option.bind_eq_some_iff] at hplace
  obtain ⟨home, hhome, hstep⟩ := hplace
  rw [h.step?_eq, Option.ite_none_right_eq_some] at hstep
  obtain ⟨⟨hdirectory, hnamed⟩, hlast⟩ := hstep
  exact ⟨home, (Option.some.inj hlast).symm, hhome, hdirectory, hpath, hnamed⟩

theorem locate?_join_ne {otherDir other : String} (h : IsPlain name) (hother : IsPlain other)
    (hne : name ≠ other) {place : Place} (hplace : tree.locate? (join dir name) = some place) :
    tree.locate? (join otherDir other) ≠ some place := by
  intro hsame
  obtain ⟨home, rfl, -⟩ := exists_home_of_locate?_join h hplace
  obtain ⟨otherHome, heq, -⟩ := exists_home_of_locate?_join hother hsame
  obtain ⟨-, hlast⟩ := List.append_inj' heq rfl
  exact hne (List.cons.inj hlast).1

end FileTree

end Backfill
