import Backfill.CommandLine
import Backfill.Engine
import Backfill.Environment
import Backfill.FileTree
import Backfill.Report
import Backfill.Status

/-!
# Invocations

An invocation of the program looks at its command, at the environment and at files first, and
finds out what there is to do: nothing, a run, or a look at one block.  When that is done, it
tells what came of it, writes the failed slots to a file, and ends with an exit code.

The summary of a run is printed first and the file is written after it.  Output and errors are
taken to be writable: on an output that is closed or full the printing itself breaks the program
down, with the exit code of `ExitCode.broken`, and the failed slots are written nowhere.  That
course is left out here.

## Main definitions

* `ExitCode` — how an invocation ends.
* `ErrorChain.report` — an error with its causes, the outermost first.
* `Transcript` — the exit code of an invocation and what it tells.
* `Target` — the slots that a run is asked for; `Target.setup` is the run.
* `Errand` — what there is to do; `Errand.ofCommand` finds out.
* `FailureFile.store`, `FailureFile.keep` — write the failed slots of a run.
* `Invocation.tellOutcome` — what is told about a run.
* `Invocation.closeRun` — the end of an invocation with a run.
* `Invocation.closeBlock` — the end of an invocation with a block.
-/

namespace Backfill

/-- How an invocation ends. -/
inductive ExitCode
  | ok
  | failure
  | usage
  /-- The program broke down. -/
  | broken
  | cancelled
deriving DecidableEq, Repr

/-- The number of an exit code. -/
def ExitCode.number : ExitCode → Nat
  | .ok => 0
  | .failure => 1
  | .usage => 2
  | .broken => 101
  | .cancelled => 130

namespace ErrorChain

/-- The causes of an error, numbered from `depth` on. -/
def causes (depth : Nat) : List String → List String
  | [] => []
  | message :: rest => s!"caused by ({depth}): {message}" :: causes (depth + 1) rest

/-- An error with its causes, the outermost first. -/
def lines : List String → List String
  | [] => []
  | message :: rest => ("error: " ++ message) :: causes 1 rest

/-- An error with its causes as one text. -/
def report (messages : List String) : String := "\n".intercalate (lines messages)

end ErrorChain

/-- The exit code of an invocation, and what it prints as output and as errors, each text on
lines of its own. -/
structure Transcript where
  exit : ExitCode
  out : List String
  errors : List String
deriving DecidableEq, Repr

namespace Transcript

/-- Ends with an error. -/
def failed (exit : ExitCode) (message : String) : Transcript := ⟨exit, [], [message]⟩

/-- Ends with an error that is told with its causes. -/
def failedWith (message : String) (chain : List String) : Transcript :=
  ⟨.failure, [], (message ++ ": " ++ chain.head?.getD "") :: ErrorChain.lines chain⟩

end Transcript

/-- The slots that a run is asked for. -/
inductive Target
  | range (range : SlotRange)
  | slots (slots : List Nat)
deriving DecidableEq, Repr

/-- The run over these slots; blocks are handed on if there are parsers. -/
def Target.setup (settings : Settings) (startedAt : Int) : Target → RunSetup
  | .range bounds => .ofRange settings settings.dispatch.isSome bounds startedAt
  | .slots listed => .ofSlots settings settings.dispatch.isSome listed startedAt

/-- What there is to do. -/
inductive Errand
  /-- Nothing more. -/
  | done (transcript : Transcript)
  /-- A run, after which failed slots are written to a directory. -/
  | run (settings : Settings) (target : Target) (failureDir : String)
  | block (settings : Settings) (slot : Nat) (summary : Bool)

namespace Errand

/-- The environment with the variables of the file that belongs to the working directory, unless
one of them cannot be set. -/
def environment? (env : Environment) (files : FileTree) : Option Environment :=
  match files.nearest? ".env" with
  | some content => env.extend? content
  | none => some env

/-- A run over slots, with the settings that options and environment ask for. -/
def ofOptions (options : RunOptions) (env : Environment) (target : Target) : Errand :=
  match options.resolve env.get? with
  | .ok settings => .run settings target options.failureDir
  | .error error => .done (.failed .usage error.message)

/-- The slots of a failure file. -/
def load (files : FileTree) (path : String) : Except FileError (List Nat) :=
  match files.read? path with
  | some content => FailureFile.load path content
  | none => .error (.io path FileTree.fault)

/-- What a run over the slots of a failure file has to do. -/
def ofFile (path : String) (options : RunOptions) (env : Environment) (files : FileTree) :
    Errand :=
  match load files path with
  | .error error => .done (.failed .usage ("cannot read replay file: " ++ error.message))
  | .ok [] => .done ⟨.ok, [path ++ ": no slots to replay"], []⟩
  | .ok slots => ofOptions options env (.slots slots)

/-- What a command that makes sense has to do. -/
def ofValid (env : Environment) (files : FileTree) : Command → Errand
  | .fetch start last options => ofOptions options env (.range ⟨start, last⟩)
  | .replay file options => ofFile file options env files
  | .block slot summary url logLevel =>
    match { RunOptions.bare logLevel with url := url }.resolve env.get? with
    | .ok settings => .block settings slot summary
    | .error error => .done (.failed .usage error.message)

/-- What a command has to do.  The environment comes first, since the program breaks down when a
variable cannot be set. -/
def ofCommand (command : Command) (env : Environment) (files : FileTree) : Errand :=
  match environment? env files, command.validate with
  | none, _ => .done (.failed .broken Environment.fault)
  | some _, .error error => .done (.failed .usage error.message)
  | some env, .ok () => ofValid env files command

end Errand

namespace FailureFile

/-- Writes the failed slots of a run into a directory, which need not exist; the answer has the
path of the file. -/
def store (files : FileTree) (dir : String) (ledger : Ledger) (run : RunMeta) (now : String) :
    FileTree × Except FileError String :=
  match files.makeDirs dir with
  | (files, false) => (files, .error (.io dir FileTree.fault))
  | (files, true) =>
    let path := FileTree.join dir (name run)
    match files.write? path (Glyph.ofString (text ledger run now)) with
    | none => (files, .error (.io path FileTree.fault))
    | some files => (files, .ok path)

/-- Writes the failed slots of a run, if there are any, and tells where. -/
def keep (files : FileTree) (dir now : String) (report : RunReport) :
    FileTree × Except FileError (Option String) :=
  if report.ledger.isEmpty then (files, .ok none)
  else
    let (files, kept) := store files dir report.ledger report.run now
    (files, kept.map some)

end FailureFile

namespace Invocation

/-- Tells what came of a run, given where its failed slots were written, if there are any. -/
def tellReport (report : RunReport) (kept : Except FileError (Option String)) : Transcript :=
  let exit := if report.cancelled then ExitCode.cancelled else .ok
  match kept with
  | .ok none => ⟨exit, report.summaryLines, []⟩
  | .ok (some path) => ⟨exit, report.summaryLines ++ ["  failed slots: " ++ path], []⟩
  | .error error =>
    let told := Transcript.failedWith "failed to write failed slot list" [error.message]
    { told with out := report.summaryLines }

/-- Told when the provider cannot be reached. -/
def unreachable : String := "RPC provider unreachable: every batch exhausted its retries"

/-- Tells what a run led to, given where its failed slots were written, if there are any. -/
def tellOutcome (outcome : RunOutcome) (kept : Except FileError (Option String)) : Transcript :=
  let told := tellReport outcome.report kept
  match outcome with
  | .complete _ => told
  | .unreachable _ =>
    ⟨if told.exit = .ok then .failure else told.exit, told.out, unreachable :: told.errors⟩

/-- The end of an invocation with a run: the summary is printed, and then the failed slots are
written to a file.  An output that takes the summary is taken for granted; without one the program
breaks down before it writes any file. -/
def closeRun (files : FileTree) (dir now : String) (outcome : RunOutcome) :
    FileTree × Transcript :=
  let (files, kept) := FailureFile.keep files dir now outcome.report
  (files, tellOutcome outcome kept)

/-- The end of an invocation with a block. -/
def closeBlock (slot : Nat) (summary : Bool) :
    Except BlockError (Option Json) → Transcript
  | .ok (some found) =>
    let shown := if summary then Block.summary slot found else found
    ⟨.ok, shown.renderIndented.splitOn "\n", []⟩
  | .ok none => .failed .failure s!"no block available for slot {slot}"
  | .error (.provider code message) =>
    .failed .failure (s!"slot {slot}: " ++ (BlockError.provider code message).message)
  | .error (.transport error) => .failedWith "getBlock request failed" [error.message]

end Invocation

end Backfill
