import Backfill.Proofs.CommandTargets
import Backfill.Proofs.FileNames
import Backfill.Proofs.FileRoundTrip
import Backfill.Proofs.RunUnreachable

/-!
# How invocations with a run end

When a run is over, its failed slots are written to a file, and then two functions settle the exit
code: one looks at the file and at the token, the other one takes a good end back if the provider
cannot be reached.  The attempt to write may fail for any reason that a disk may have, so the exit
code is looked at for every result of the attempt first, and for the attempt itself afterwards.

What is left to show is that no failed slot is lost quietly: a good end means that the token has not
fired, that the provider was there, and that whatever failed is in a file.

## Main definitions

* `FileTree.HasRoom`, `FileTree.Admits` — a file of this name can be written to a directory.
* `RunReport.IsAttempt` — what an attempt to write failed slots may come to.
* `RunReport.Exhausted` — every slot that was asked for has used up its attempts.
* `Invocation.Ends` — the exit code that an end has to have.

## Main results

* `FileTree.exists_write?_join` — a file can be written to a directory exactly if there is room for
  it.
* `FailureFile.keep_cases` — what the attempt comes to is a question of the directory only.
* `Invocation.ends_tellOutcome` — the exit code after any result of the attempt.
* `Run.unreachable_iff_exhausted` — when a run is told to have found no provider.
* `Invocation.ends_with_saved_slots` — **the failed slots of every run are in a file if the directory
  admits it, and the exit code says what became of the slots.**
-/

namespace Backfill

/-! ### Writing the file -/

namespace FileTree

variable {tree made : FileTree} {dir name path : String} {content : List Glyph}

/-- A file of this name can be written to a directory: there is a directory, the path of the file can
be looked up, the name is not too long, and no directory has it. -/
structure HasRoom (tree : FileTree) (dir name : String) (home : Place) : Prop where
  leads : tree.locate? dir = some home
  isDirectory : tree.find? home = some .directory
  usable : isUsable (join dir name) = true
  named : isName name = true
  free : tree.find? (home ++ [name]) ≠ some .directory

/-- A directory admits a file of this name: with all that is missing on the way to it, the directory is
there or can be made, and then it has room for the file. -/
def Admits (tree : FileTree) (dir name : String) : Prop :=
  ∃ made home, tree.makeDirs dir = (made, true) ∧ made.HasRoom dir name home

theorem exists_write?_iff : (∃ written, tree.write? path content = some written) ↔
    ∃ place, tree.locate? path = some place ∧ tree.find? place ≠ some .directory := by
  constructor
  · rintro ⟨written, hwritten⟩
    obtain ⟨place, hplace, hfree, -⟩ := write?_eq_some_iff.mp hwritten
    exact ⟨place, hplace, hfree⟩
  · rintro ⟨place, hplace, hfree⟩
    exact ⟨_, write?_eq_some_iff.mpr ⟨place, hplace, hfree, rfl⟩⟩

/-- **A file can be written to a directory exactly if there is room for it.** -/
theorem exists_write?_join (hplain : IsPlain name) (hdir : isUsable dir = true) :
    (∃ written, tree.write? (join dir name) content = some written) ↔
      ∃ home, tree.HasRoom dir name home := by
  rw [exists_write?_iff]
  constructor
  · rintro ⟨place, hplace, hfree⟩
    obtain ⟨home, rfl, hhome, hdirectory, hpath, hnamed⟩ := exists_home_of_locate?_join hplain hplace
    exact ⟨home, hhome, hdirectory, hpath, hnamed, hfree⟩
  · rintro ⟨home, hroom⟩
    refine ⟨home ++ [name], ?_, hroom.free⟩
    rw [locate?_join hplain hdir hroom.usable, hroom.leads, Option.bind_some, hplain.step?_eq,
      if_pos ⟨hroom.isDirectory, hroom.named⟩]

theorem isUsable_of_makeDirs (h : tree.makeDirs dir = (made, true)) : isUsable dir = true := by
  by_contra hlong
  rw [makeDirs_of_not_isUsable (by simpa using hlong)] at h
  cases h

end FileTree

/-- Where nothing has failed there are no failed slots, and the other way round. -/
theorem Ledger.Ordered.isEmpty_iff {ledger : Ledger} (h : ledger.Ordered) :
    ledger.isEmpty = true ↔ ledger.slots = [] := by
  rw [isEmpty, List.isEmpty_iff, slots, List.flatMap_eq_nil_iff]
  constructor
  · intro hspans
    simp [hspans]
  · intro hnone
    rw [List.eq_nil_iff_forall_not_mem]
    intro span hspan
    have hfirst : span.first ∈ span.range.slots :=
      SlotRange.mem_slots.mpr ⟨Nat.le_refl _, h.nonempty span hspan⟩
    rw [hnone span hspan] at hfirst
    cases hfirst

/-- An attempt to write failed slots comes to nothing exactly if there are none; else there is the
path of a file or an error. -/
def RunReport.IsAttempt (report : RunReport) (kept : Except FileError (Option String)) : Prop :=
  kept = .ok none ↔ report.ledger.slots = []

namespace FailureFile

variable {disk : FileTree} {dir now : String} {ledger : Ledger} {run : RunMeta}
  {report : RunReport}

/-- Where the directory admits it, the file is written. -/
theorem store_of_admits (h : disk.Admits dir (name run)) (ledger : Ledger) (now : String) :
    (store disk dir ledger run now).2 = .ok (FileTree.join dir (name run)) ∧
      (store disk dir ledger run now).1.read? (FileTree.join dir (name run)) =
        some (Glyph.ofString (text ledger run now)) := by
  obtain ⟨made, home, hmade, hroom⟩ := h
  obtain ⟨written, hwritten⟩ : ∃ written, made.write? (FileTree.join dir (name run))
      (Glyph.ofString (text ledger run now)) = some written :=
    (FileTree.exists_write?_join (isPlain_name run) (FileTree.isUsable_of_makeDirs hmade)).mpr
      ⟨home, hroom⟩
  unfold store
  rw [hmade]
  simp only [hwritten, true_and]
  exact FileTree.read?_of_write? hwritten

/-- Where the directory does not admit it, there is an error. -/
theorem store_of_not_admits (h : ¬disk.Admits dir (name run)) (ledger : Ledger) (now : String) :
    ∃ error, (store disk dir ledger run now).2 = .error error := by
  unfold store
  split
  · exact ⟨_, rfl⟩
  · next made hmade =>
    dsimp only
    split
    · exact ⟨_, rfl⟩
    · next written hwritten =>
      obtain ⟨home, hroom⟩ := (FileTree.exists_write?_join (isPlain_name run)
        (FileTree.isUsable_of_makeDirs hmade)).mp ⟨written, hwritten⟩
      exact absurd ⟨made, home, hmade, hroom⟩ h

/-- **What the attempt comes to is a question of the directory only**: nothing happens if nothing has
failed, there is a file that tells the ledger if the directory admits it, and else an error. -/
theorem keep_cases (hordered : report.ledger.Ordered)
    (hwords : ∀ slot ∈ report.ledger.slots, slot ≤ Word.max)
    (hlength : report.ledger.slots.length ≤ Word.max) (hnow : Text.IsUnbroken now)
    (disk : FileTree) (dir : String) :
    report.IsAttempt (keep disk dir now report).2 ∧
      ((∃ error, (keep disk dir now report).2 = .error error) ↔
        report.ledger.slots ≠ [] ∧ ¬disk.Admits dir (name report.run)) ∧
      (report.ledger.slots = [] → (keep disk dir now report).1 = disk) ∧
      (report.ledger.slots ≠ [] → disk.Admits dir (name report.run) →
        ∃ content, (keep disk dir now report).1.read? (FileTree.join dir (name report.run)) =
          some content ∧ Tells report.ledger content) := by
  -- An empty ledger writes no file, so the directory is not even looked at.
  by_cases hnone : report.ledger.slots = []
  · have hkeep : keep disk dir now report = (disk, .ok none) :=
      if_pos (hordered.isEmpty_iff.mpr hnone)
    simp [hkeep, hnone, RunReport.IsAttempt]
  · have hfailed : ¬report.ledger.isEmpty = true := fun h => hnone (hordered.isEmpty_iff.mp h)
    let stored := store disk dir report.ledger report.run now
    have hkeep : keep disk dir now report = (stored.1, stored.2.map some) := if_neg hfailed
    rw [hkeep]
    by_cases hadmits : disk.Admits dir (name report.run)
    · obtain ⟨hpath, hread⟩ := store_of_admits hadmits report.ledger now
      have htells := tells_text hordered hwords hlength report.run hnow
      refine ⟨?_, ?_, fun h => absurd h hnone, fun _ _ => ⟨_, hread, htells⟩⟩
      · simp [RunReport.IsAttempt, stored, hpath, Except.map, hnone]
      · simp [stored, hpath, Except.map, hadmits]
    · obtain ⟨error, herror⟩ := store_of_not_admits hadmits report.ledger now
      refine ⟨?_, ?_, fun h => absurd h hnone, fun _ h => absurd h hadmits⟩
      · simp [RunReport.IsAttempt, stored, herror, Except.map, hnone]
      · simp [stored, herror, Except.map, hadmits, hnone]

end FailureFile

/-! ### The exit code -/

/-- Every slot that was asked for has used up the attempts of its batch. -/
def RunReport.Exhausted (asked : List Nat) (report : RunReport) : Prop :=
  ∀ slot ∈ asked, ∃ attempts lastError,
    report.ledger.reasonOf? slot = some (.exhaustedRetries attempts lastError)

namespace Invocation

/-- The exit code that an end has to have: one if failed slots are lost, or if every slot used up its
attempts and nobody stopped the run; else the code of a cancelled run if it was stopped; else
zero. -/
structure Ends (lost exhausted stopped : Prop) (number : Nat) : Prop where
  failure : lost ∨ exhausted ∧ ¬stopped → number = 1
  cancelled : ¬(lost ∨ exhausted ∧ ¬stopped) → stopped → number = 130
  ok : ¬(lost ∨ exhausted ∧ ¬stopped) → ¬stopped → number = 0

variable {lost exhausted stopped : Prop} {number : Nat} {outcome : RunOutcome}

/-- A good end means that nothing is lost, that nobody stopped the run, and that not all slots used up
their attempts. -/
theorem Ends.of_zero (h : Ends lost exhausted stopped number) (hzero : number = 0) :
    ¬lost ∧ ¬exhausted ∧ ¬stopped := by
  have hfailure : ¬(lost ∨ exhausted ∧ ¬stopped) := fun hbad => by
    have := h.failure hbad
    omega
  have hstopped : ¬stopped := fun hbad => by
    have := h.cancelled hfailure hbad
    omega
  exact ⟨fun hlost => hfailure (.inl hlost), fun hall => hfailure (.inr ⟨hall, hstopped⟩), hstopped⟩

/-- Unless the attempt has failed, a run that was cancelled ends as such, and any other one ends badly
only if the provider cannot be reached. -/
theorem number_tellOutcome_ok (outcome : RunOutcome) (path? : Option String) :
    (tellOutcome outcome (.ok path?)).exit.number =
      if outcome.report.cancelled then 130
      else match outcome with
        | .complete _ => 0
        | .unreachable _ => 1 := by
  -- Whether a file was written only adds a line to the output.
  have hexit (report : RunReport) :
      (tellReport report (.ok path?)).exit = if report.cancelled then .cancelled else .ok := by
    cases path? <;> rfl
  cases outcome with
  | complete report =>
    rw [tellOutcome, RunOutcome.report, hexit]
    cases report.cancelled <;> rfl
  | unreachable report =>
    simp only [tellOutcome, RunOutcome.report, hexit]
    by_cases hcancelled : report.cancelled = true <;> simp [hcancelled, ExitCode.number]

/-- **The exit code after any result of the attempt.** -/
theorem ends_tellOutcome (hkind : (∃ report, outcome = .unreachable report) ↔
      outcome.report.cancelled = false ∧ exhausted) (kept : Except FileError (Option String)) :
    Ends (∃ error, kept = .error error) exhausted (outcome.report.cancelled = true)
      (tellOutcome outcome kept).exit.number := by
  rcases kept with error | path?
  · -- the code of a lost file is no good end, so it is not taken back
    have hfailure : (tellOutcome outcome (.error error)).exit.number = 1 := by cases outcome <;> rfl
    exact ⟨fun _ => hfailure, fun h => absurd (.inl ⟨error, rfl⟩) h,
      fun h => absurd (.inl ⟨error, rfl⟩) h⟩
  · have hnumber := number_tellOutcome_ok outcome path?
    have hkept : ¬∃ error, (.ok path? : Except FileError (Option String)) = .error error := nofun
    cases hstopped : outcome.report.cancelled with
    | true =>
      rw [hstopped, if_pos rfl] at hnumber
      refine ⟨fun hbad => ?_, fun _ _ => hnumber, fun _ h => absurd rfl h⟩
      rcases hbad with hlost | ⟨-, hnot⟩
      · exact absurd hlost hkept
      · exact absurd rfl hnot
    | false =>
      rw [hstopped, if_neg Bool.false_ne_true] at hnumber
      rw [hstopped, eq_self, true_and] at hkind
      cases outcome with
      | complete report =>
        have hfine : ¬exhausted := fun hall => by
          obtain ⟨other, hother⟩ := hkind.mpr hall
          cases hother
        refine ⟨fun hbad => ?_, nofun, fun _ _ => hnumber⟩
        rcases hbad with hlost | ⟨hall, -⟩
        · exact absurd hlost hkept
        · exact absurd hall hfine
      | unreachable report =>
        have hall := hkind.mp ⟨report, rfl⟩
        exact ⟨fun _ => hnumber, nofun, fun h => absurd (.inr ⟨hall, nofun⟩) h⟩

end Invocation

/-! ### The report of a run -/

namespace Run

variable {setup : RunSetup} {asked : List Nat} {telemetry : Telemetry} {events : List Event}
  {run : Run} {elapsed : Elapsed} {outcome : RunOutcome}

/-- **A run is told to have found no provider exactly if the token had not fired and every slot that was
asked for used up its attempts.** -/
theorem unreachable_iff_exhausted (hasks : setup.Asks asked) (hne : asked ≠ [])
    (h : (start setup telemetry).execute events = some run)
    (houtcome : run.outcome? elapsed = some outcome) :
    (∃ report, outcome = .unreachable report) ↔
      outcome.report.cancelled = false ∧ outcome.report.Exhausted asked := by
  obtain ⟨report, hreport, rfl⟩ := Option.map_eq_some_iff.mp houtcome
  have hshows := showsUnreachable_iff_ledger hasks h hreport
  split
  · next hyes =>
    obtain ⟨hcancelled, -, hall⟩ := hshows.mp hyes
    exact iff_of_true ⟨report, rfl⟩ ⟨hcancelled, hall⟩
  · next hno =>
    refine iff_of_false nofun fun ⟨hcancelled, hall⟩ => hno (hshows.mpr ⟨hcancelled, hne, hall⟩)

/-- The ledger of a report is in order, and holds only slots that were asked for, no more than a word
can count. -/
theorem ledger_of_outcome? (hasks : setup.Asks asked)
    (h : (start setup telemetry).execute events = some run)
    (houtcome : run.outcome? elapsed = some outcome) :
    outcome.report.ledger.Ordered ∧ outcome.report.ledger.slots ⊆ asked ∧
      outcome.report.ledger.slots.length ≤ Word.max := by
  obtain ⟨-, -, -, -, -, hledger⟩ := outcome?_eq_some houtcome
  have haccounted := accounted_of_execute hasks.sound h
  have hpartitioned := haccounted.partitioned (setup_of_execute h ▸ hasks)
  -- The ledger holds no more slots than were asked for, and their number is a word.
  have htotal := hpartitioned.total_le
  have hword := hpartitioned.asked_le
  rw [hledger]
  refine ⟨haccounted.ordered, fun slot hslot => ?_, ?_⟩
  · rw [← hpartitioned.mem_iff]
    simp [hslot]
  · rw [← hpartitioned.failed]
    omega

end Run

/-! ### Invocations -/

namespace Invocation

/-- **The failed slots of every run are in a file if the directory admits it, and the exit code says
what became of the slots.**  Whatever the arguments, the environment, the files, the provider, the
token and the order of events are: if the errand is a run and the run leads to an outcome, then the
exit code is right for every result that the attempt to write may have, and the attempt itself writes
the file wherever that is possible, and no file if nothing has failed.  A good end means that nobody
stopped the run, that the provider was there, and that no failed slot is lost.  No list in memory has
more slots than a word counts. -/
theorem ends_with_saved_slots {arguments : List String} {command : Command} {env : Environment}
    {files : FileTree} {settings : Settings} {target : Target} {dir : String} {startedAt : Int}
    {telemetry : Telemetry} {events : List Run.Event} {run : Run} {elapsed : Elapsed}
    {outcome : RunOutcome} (hparse : CommandLine.parse arguments = .ok command)
    (herrand : Errand.ofCommand command env files = .run settings target dir)
    (hlisted : ∀ listed, target = .slots listed → listed.length ≤ Word.max)
    (hrun : (Run.start (target.setup settings startedAt) telemetry).execute events = some run)
    (houtcome : run.outcome? elapsed = some outcome) :
    let report := outcome.report
    let failed := report.ledger.slots
    let exhausted := report.Exhausted target.asked
    let stopped := report.cancelled = true
    (∀ kept, report.IsAttempt kept →
      let number := (tellOutcome outcome kept).exit.number
      let lost := ∃ error, kept = .error error
      Ends lost exhausted stopped number ∧
        (number = 0 → ¬stopped ∧ (∀ other, outcome ≠ .unreachable other) ∧
          (failed ≠ [] → ∃ path, kept = .ok (some path)))) ∧
    ∀ disk writtenAt,
      let now := (Calendar.Moment.ofSeconds writtenAt).readable
      let admits := disk.Admits dir (FailureFile.name report.run)
      let path := FileTree.join dir (FailureFile.name report.run)
      let closed := closeRun disk dir now outcome
      let number := closed.2.exit.number
      let saved := ∃ content, closed.1.read? path = some content ∧
        FailureFile.Tells report.ledger content
      (failed ≠ [] → admits → saved) ∧ (failed = [] → closed.1 = disk) ∧
        Ends (failed ≠ [] ∧ ¬admits) exhausted stopped number ∧
        (number = 0 → ¬stopped ∧ (∀ other, outcome ≠ .unreachable other) ∧
          (failed ≠ [] → saved)) := by
  intro report failed exhausted stopped
  have haccepted := Errand.accepted_of_run hparse herrand
  have hasks := haccepted.asks hlisted settings startedAt
  have hkind := Run.unreachable_iff_exhausted hasks haccepted.asked_ne_nil hrun houtcome
  obtain ⟨hordered, hasked, hlength⟩ := Run.ledger_of_outcome? hasks hrun houtcome
  have hwords : ∀ slot ∈ failed, slot ≤ Word.max := fun slot hslot =>
    haccepted.words slot (hasked hslot)
  have hreached : ¬exhausted → ∀ other, outcome ≠ .unreachable other := fun hnot other heq =>
    hnot (hkind.mp ⟨other, heq⟩).2
  refine ⟨fun kept hattempt => ?_, fun disk writtenAt => ?_⟩
  · have hends := ends_tellOutcome hkind kept
    refine ⟨hends, fun hzero => ?_⟩
    obtain ⟨hlost, hleft, hstopped⟩ := hends.of_zero hzero
    refine ⟨hstopped, hreached hleft, fun hfailed => ?_⟩
    -- With exit code 0 nothing was lost, and a ledger with slots is not left without a file.
    rcases kept with error | _ | path
    · exact absurd ⟨error, rfl⟩ hlost
    · exact absurd (hattempt.mp rfl) hfailed
    · exact ⟨path, rfl⟩
  · intro now admits path closed number saved
    -- On the file tree the attempt is the one `keep` makes, so its cases settle what was lost.
    obtain ⟨-, hlost, huntouched, hsaved⟩ := FailureFile.keep_cases hordered hwords hlength
      (Calendar.isUnbroken_readable (.ofSeconds writtenAt)) disk dir
    have hends := ends_tellOutcome hkind (FailureFile.keep disk dir now report).2
    have hfiles : closed.1 = (FailureFile.keep disk dir now report).1 := rfl
    rw [hlost] at hends
    rw [← hfiles] at huntouched hsaved
    refine ⟨hsaved, huntouched, hends, fun hzero => ?_⟩
    obtain ⟨hkept, hleft, hstopped⟩ := hends.of_zero hzero
    refine ⟨hstopped, hreached hleft, fun hfailed => hsaved hfailed ?_⟩
    by_contra hnot
    exact hkept ⟨hfailed, hnot⟩

/-- Two slots time out twice, and the directory for their file is not there yet. -/
theorem ends_with_saved_slots_unreachable :
    let arguments := ["fetch", "--start", "5", "--end", "6", "--rpc-url", "http://node",
      "--workers", "1", "--retry-attempts", "1", "--failure-dir", "out"]
    let late : List Run.Event := [.pool (.attempt 0 .start),
      .pool (.attempt 0 (.finish (.error (.withoutStatus .timeout "late"))))]
    let events : List Run.Event :=
      [.openCycle, .pool .enqueue, .pool (.take 0)] ++ late ++ [.pool (.attempt 0 .resume)] ++ late ++
        [.pool (.report 0), .intake, .pool (.leave 0), .closeCycle, .conclude]
    let target : Target := .range ⟨5, 6⟩
    ∃ command settings run outcome, CommandLine.parse arguments = .ok command ∧
      Errand.ofCommand command [] ⟨[], []⟩ = .run settings target "out" ∧
      (Run.start (target.setup settings 0) .zero).execute events = some run ∧
      run.outcome? ⟨0⟩ = some outcome ∧
      let closed := closeRun ⟨[], []⟩ "out" (Calendar.Moment.ofSeconds 0).readable outcome
      closed.2.exit.number = 1 ∧
        ∃ content, closed.1.read? "out/failed_slots_5_6_19700101_000000.txt" = some content ∧
          FailureFile.slotLines content = [5, 6] := by
  intro arguments late events target
  let options : RunOptions := { (default : RunOptions) with
    url := some "http://node", workers := some 1, retryAttempts := some 1, failureDir := "out" }
  let settings : Settings :=
    { Settings.standard "http://node" with workers := 1, retryAttempts := 1 }
  have hparse : CommandLine.parse arguments = .ok (.fetch 5 6 options) := by rfl
  have henv : Errand.environment? [] ⟨[], []⟩ = some [] := by decide
  have hvalid : (Command.fetch 5 6 options).validate = .ok () := by decide
  have hresolve : options.resolve (Environment.get? []) = .ok settings := by decide
  have herrand : Errand.ofCommand (.fetch 5 6 options) [] ⟨[], []⟩ =
      .run settings target "out" := by
    simp only [Errand.ofCommand, henv, hvalid, Errand.ofValid, Errand.ofOptions, hresolve]
    rfl
  have hlisted (listed : List Nat) (heq : target = .slots listed) : listed.length ≤ Word.max := by
    simp [target] at heq
  -- Both attempts of the only batch time out, so both slots end as exhausted retries.
  obtain ⟨run, hrun⟩ : ∃ run,
      (Run.start (target.setup settings 0) .zero).execute events = some run :=
    Option.isSome_iff_exists.mp (by decide)
  have hend : ((Run.start (target.setup settings 0) .zero).execute events).bind (fun run =>
      (run.outcome? ⟨0⟩).map fun outcome =>
        (outcome.report.run, outcome.report.ledger, outcome.report.cancelled)) =
        some (⟨.fetch, ⟨5, 6⟩, 2, 0⟩, ⟨[⟨5, 6, .exhaustedRetries 2 "late"⟩]⟩, false) := by decide
  rw [hrun, Option.bind_some, Option.map_eq_some_iff] at hend
  obtain ⟨outcome, houtcome, htold⟩ := hend
  obtain ⟨hmeta, hledger, hcancelled⟩ : outcome.report.run = ⟨.fetch, ⟨5, 6⟩, 2, 0⟩ ∧
      outcome.report.ledger = ⟨[⟨5, 6, .exhaustedRetries 2 "late"⟩]⟩ ∧
      outcome.report.cancelled = false := by simpa using htold
  have hslots : outcome.report.ledger.slots = [5, 6] := by
    rw [hledger]
    decide
  have hexhausted : outcome.report.Exhausted [5, 6] := by
    intro slot hslot
    refine ⟨2, "late", ?_⟩
    rw [hledger]
    rcases List.mem_pair.mp hslot with rfl | rfl <;> decide
  have hname : FailureFile.name outcome.report.run = "failed_slots_5_6_19700101_000000.txt" := by
    rw [hmeta]
    decide
  have hpath : FileTree.join "out" "failed_slots_5_6_19700101_000000.txt" =
      "out/failed_slots_5_6_19700101_000000.txt" := by
    rw [FileTree.join, if_neg (by rw [Text.startsWith_slash]; decide),
      if_neg (by rw [Text.endsWith_slash]; decide)]
    rfl
  -- The directory does not exist yet; it is made below the current one.
  have hstart (tree : FileTree) : tree.start "out" = tree.here :=
    if_neg (by rw [Text.startsWith_slash]; decide)
  have hadmits : FileTree.Admits ⟨[], []⟩ "out" "failed_slots_5_6_19700101_000000.txt" := by
    refine ⟨⟨[], [(["out"], .directory)]⟩, ["out"], ?_, ?_, by decide, ?_, by decide, by decide⟩
    · rw [FileTree.makeDirs, if_pos (by decide), Text.splitOn_slash, hstart]
      decide
    · rw [FileTree.locate?, if_pos (by decide), Text.splitOn_slash, hstart]
      decide
    · rw [hpath]
      decide
  obtain ⟨-, hclosed⟩ := ends_with_saved_slots hparse herrand hlisted hrun houtcome
  obtain ⟨hsaved, -, hends, -⟩ := hclosed ⟨[], []⟩ 0
  rw [hname, hpath, hslots] at hsaved
  obtain ⟨content, hread, htells⟩ := hsaved (by simp) hadmits
  refine ⟨_, settings, run, outcome, hparse, herrand, hrun, houtcome, ?_, content, hread, ?_⟩
  · exact hends.failure (.inr ⟨hexhausted, by simp [hcancelled]⟩)
  · rw [htells.slotLines, hslots]

end Invocation

end Backfill
