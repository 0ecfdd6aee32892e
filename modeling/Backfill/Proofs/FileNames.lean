import Backfill.Invocation
import Backfill.Proofs.CalendarTexts
import Backfill.Proofs.FileKeeping
import Backfill.Proofs.PathJoins

/-!
# Failure files of different runs

The name of a failure file is put together from the range and the start of its run, with underscores
in between.  None of the parts has an underscore in it, so the underscores cut the name into its parts
again: the digits of the two slots, the date and the time of day.  Each of them can be told from
any other, and so different runs never have the same name for their files.

A failure file could be lost only by a file of the same name, since the path of a file ends with its
name, and directories are made only where nothing is.

## Main results

* `FailureFile.splitOn_name` — the underscores cut a name into its parts.
* `FailureFile.name_eq_iff` — **the name is the same exactly if range and start are.**
* `FailureFile.isPlain_name` — the names of failure files are plain.
* `FailureFile.runs_never_share_files` — **the failure files of different runs do not collide.**
-/

namespace Backfill

namespace FailureFile

open Calendar (Moment)

variable {run other : RunMeta}

/-! ### Names -/

theorem toList_name (run : RunMeta) :
    (name run).toList = "failed".toList ++ '_' :: ("slots".toList ++
      '_' :: (Nat.toDigits 10 run.range.first ++ '_' :: (Nat.toDigits 10 run.range.last ++
        '_' :: ((Moment.ofSeconds run.startedAt).date.text.toList ++
          '_' :: ((Moment.ofSeconds run.startedAt).clockText.toList ++ ".txt".toList))))) := by
  have hlead : "failed_slots_".toList = "failed".toList ++ '_' :: ("slots".toList ++ ['_']) := by
    decide
  have hbetween : "_".toList = ['_'] := by decide
  unfold name
  simp only [toString, Moment.compact_eq, String.toList_append, Nat.toList_repr, hlead, hbetween,
    List.append_assoc, List.cons_append, List.nil_append]

/-- The underscores cut a name into its parts. -/
theorem splitOn_name (run : RunMeta) :
    (name run).toList.splitOn '_' = ["failed".toList, "slots".toList,
      Nat.toDigits 10 run.range.first, Nat.toDigits 10 run.range.last,
      (Moment.ofSeconds run.startedAt).date.text.toList,
      (Moment.ofSeconds run.startedAt).clockText.toList ++ ".txt".toList] := by
  -- No part of a name holds an underscore, so those of the name are the five between its parts.
  have hdate := Calendar.Date.not_mem_text (c := '_') (by decide) (by decide) (by decide)
    (Moment.ofSeconds run.startedAt).date
  have hend : '_' ∉ (Moment.ofSeconds run.startedAt).clockText.toList ++ ".txt".toList := by
    rw [List.mem_append, not_or]
    exact ⟨Moment.not_mem_clockText (by decide) _, by decide⟩
  rw [toList_name, List.splitOn_append_cons_self_of_not_mem (by decide),
    List.splitOn_append_cons_self_of_not_mem (by decide),
    List.splitOn_append_cons_self_of_not_mem (Text.not_mem_toDigits (by decide) _),
    List.splitOn_append_cons_self_of_not_mem (Text.not_mem_toDigits (by decide) _),
    List.splitOn_append_cons_self_of_not_mem hdate, List.splitOn_eq_singleton hend]

/-- **Two runs have the same name for their files exactly if their ranges and their starts are the
same.** -/
theorem name_eq_iff : name run = name other ↔ run.range.first = other.range.first ∧
    run.range.last = other.range.last ∧ run.startedAt = other.startedAt := by
  constructor
  · -- The name is split back into its parts, and each of them determines what it was written from.
    intro h
    have hparts := congrArg (fun text : String => text.toList.splitOn '_') h
    simp only [splitOn_name, List.cons.injEq, true_and, and_true] at hparts
    obtain ⟨hfirst, hlast, hdate, hend⟩ := hparts
    have hclock := String.toList_inj.mp (List.append_cancel_right hend)
    have hmoment := Moment.eq_of_texts_eq (Moment.isNarrow_ofSeconds _) (Moment.isNarrow_ofSeconds _)
      (String.toList_inj.mp hdate) hclock
    exact ⟨Text.toDigits_injective hfirst, Text.toDigits_injective hlast,
      Moment.ofSeconds_injective hmoment⟩
  · rintro ⟨hfirst, hlast, hstart⟩
    unfold name
    rw [hfirst, hlast, hstart]

/-- **The names of failure files are plain.** -/
theorem isPlain_name (run : RunMeta) : FileTree.IsPlain (name run) := by
  have hother {text : String} (hhead : text.toList.head? ≠ some 'f') : name run ≠ text := by
    rintro rfl
    rw [toList_name] at hhead
    exact hhead rfl
  refine ⟨?_, hother (by decide), hother (by decide), hother (by decide)⟩
  simp only [toList_name, List.mem_append, List.mem_cons, not_or]
  exact ⟨by decide, by decide, by decide, by decide, Text.not_mem_toDigits (by decide) _, by decide,
    Text.not_mem_toDigits (by decide) _, by decide,
    Calendar.Date.not_mem_text (by decide) (by decide) (by decide) _, by decide,
    Moment.not_mem_clockText (by decide) _, by decide⟩

/-! ### Files -/

/-- Writing the file of another run leaves a failure file alone. -/
theorem read?_of_store {disk : FileTree} {dir : String} {content : List Glyph}
    (hne : name run ≠ name other) (hread : disk.read? (FileTree.join dir (name run)) = some content)
    (otherDir : String) (ledger : Ledger) (now : String) :
    (store disk otherDir ledger other now).1.read? (FileTree.join dir (name run)) =
      some content := by
  -- Making the directory keeps every file; the write that follows goes to a place of another name.
  have hkept := (FileTree.keeps_makeDirs disk otherDir).read? hread
  unfold store
  split
  · next made hmade =>
    rwa [hmade] at hkept
  · next made hmade =>
    rw [hmade] at hkept
    dsimp only
    split
    · exact hkept
    · next written hwritten =>
      obtain ⟨place, hplace, -⟩ := FileTree.read?_eq_some_iff.mp hkept
      have hapart : made.locate? (FileTree.join otherDir (name other)) ≠ some place :=
        FileTree.locate?_join_ne (isPlain_name run) (isPlain_name other) hne hplace
      rw [FileTree.read?_of_write?_of_ne hwritten (by rw [hplace]; exact hapart.symm)]
      exact hkept

/-- **Failure files of different runs do not collide.**  If two runs differ in the first or the last
slot of their ranges, or in the second that they were started in, then the names of their files are
different, whatever the slots and the years are.  A failure file is not touched when the file of the
other run is written, whether to the same directory or to another one, and whether that works or
not. -/
theorem runs_never_share_files (hdiffer : run.range.first ≠ other.range.first ∨
      run.range.last ≠ other.range.last ∨ run.startedAt ≠ other.startedAt) :
    name run ≠ name other ∧ ∀ disk dir content,
      disk.read? (FileTree.join dir (name run)) = some content → ∀ otherDir ledger now,
        (store disk otherDir ledger other now).1.read? (FileTree.join dir (name run)) =
          some content := by
  have hne : name run ≠ name other := by
    intro hsame
    obtain ⟨hfirst, hlast, hstart⟩ := name_eq_iff.mp hsame
    obtain hno | hno | hno := hdiffer
    · exact hno hfirst
    · exact hno hlast
    · exact hno hstart
  exact ⟨hne, fun disk dir content hread => read?_of_store hne hread⟩

/-- Two runs over the same range, one of them twenty thousand years after the other one, at the same
time of the same day; only the signs of the years tell their files apart. -/
theorem runs_never_share_files_opposite_years :
    let run := RunMeta.mk .fetch ⟨1, 23⟩ 23 253402300800
    let other := RunMeta.mk .fetch ⟨1, 23⟩ 23 (-377736739200)
    let disk : FileTree := ⟨[], [(["failed_slots_1_23_+100000101_000000.txt"], .file [some '7'])]⟩
    let stored := (store disk "" ⟨[⟨5, 6, .cancelled⟩]⟩ other "").1
    run.startedAt ≠ other.startedAt ∧ name run = "failed_slots_1_23_+100000101_000000.txt" ∧
      name other = "failed_slots_1_23_-100000101_000000.txt" ∧ name run ≠ name other ∧
      disk.read? (FileTree.join "" (name run)) = some [some '7'] ∧
      stored.read? (FileTree.join "" (name run)) = some [some '7'] := by
  intro run other disk stored
  have hname : name run = "failed_slots_1_23_+100000101_000000.txt" := by decide
  have hother : name other = "failed_slots_1_23_-100000101_000000.txt" := by decide
  have hrelative := (isPlain_name run).not_startsWith
  -- In the current directory the path of a file is its name.
  have hpath : FileTree.join "" (name run) = name run := by
    rw [FileTree.join, if_neg hrelative, if_pos (.inl rfl), String.empty_append]
  have hread : disk.read? (FileTree.join "" (name run)) = some [some '7'] := by
    rw [hname] at hrelative hpath ⊢
    rw [hpath, FileTree.read?, FileTree.locate?, if_pos (by decide), FileTree.start,
      if_neg hrelative, Text.splitOn_slash]
    decide
  obtain ⟨hne, hkept⟩ := @runs_never_share_files run other (by decide)
  exact ⟨by decide, hname, hother, hne, hread, hkept disk "" [some '7'] hread "" _ _⟩

end FailureFile

end Backfill
