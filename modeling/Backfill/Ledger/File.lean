import Backfill.Ledger
import Backfill.Calendar
import Backfill.Text.Basic
import Backfill.Text.Utf8

/-!
# Failure files

The failed slots of a run are written to a file from which they can be asked for again: a
header of comment lines, then one slot a line.  A file is read line by line; blank lines and
comments are skipped.

## Main definitions

* `RunLabel`, `RunMeta` — what the header says about the run.
* `FailureFile.name` — the name of the file.
* `FailureFile.text` — its contents.
* `FailureFile.lines` — the lines of a file.
* `FailureFile.lineOf` — what one line says.
* `FailureFile.load` — the slots of a file.
* `FileError` — why a file could not be read or written.

## Main results

* `FailureFile.loadLines_slot`, `FailureFile.loadLines_skipped` — a file is read line by line.
-/

namespace Backfill

/-- What kind of run it is. -/
inductive RunLabel
  | fetch
  | replay
deriving DecidableEq, Repr, Inhabited

/-- The word for the kind of run. -/
def RunLabel.text : RunLabel → String
  | .fetch => "fetch"
  | .replay => "replay"

/-- What identifies a run. -/
structure RunMeta where
  label : RunLabel
  /-- The range asked for, or the smallest that covers the slots asked for. -/
  range : SlotRange
  requested : Nat
  /-- Start of the run, in seconds from the start of 1970. -/
  startedAt : Int
deriving DecidableEq, Repr, Inhabited

/-- Why a failure file could not be read or written. -/
inductive FileError
  /-- The system reports a fault with a file or directory. -/
  | io (path cause : String)
  /-- A line, counted from one, holds neither a comment nor a slot. -/
  | parse (path : String) (line : Nat) (content : String)
deriving DecidableEq, Repr, Inhabited

/-- The error as it is told to the user. -/
def FileError.message : FileError → String
  | .io path cause => s!"failure ledger io error at {path}: {cause}"
  | .parse path line content => s!"{path}:{line}: expected a slot number, got `{content}`"

namespace FailureFile

/-! ### Writing -/

/-- The name of the file of a run: its range and its start. -/
def name (run : RunMeta) : String :=
  s!"failed_slots_{run.range.first}_{run.range.last}_" ++
    (Calendar.Moment.ofSeconds run.startedAt).compact ++ ".txt"

/-- The line between the header and the slots. -/
def separator : String := "# =========================================="

/-- The lines of the header of a file written at the moment `now`. -/
def header (ledger : Ledger) (run : RunMeta) (now : String) : List String :=
  ["# failed slots (" ++ run.label.text ++ ")",
    "# generated_at: " ++ now,
    "# run_started_at: " ++ (Calendar.Moment.ofSeconds run.startedAt).readable,
    s!"# range: {run.range.first} - {run.range.last}",
    s!"# requested: {run.requested}",
    s!"# total_failures: {ledger.size}",
    "# reasons: " ++ ledger.reasonCounts.render " ",
    separator]

/-- The lines of a file written at the moment `now`. -/
def fileLines (ledger : Ledger) (run : RunMeta) (now : String) : List String :=
  header ledger run now ++ ledger.slots.map Text.writeInteger

/-- The contents of a file written at the moment `now`. -/
def text (ledger : Ledger) (run : RunMeta) (now : String) : String :=
  String.join ((fileLines ledger run now).map (· ++ "\n"))

/-! ### Reading -/

/-- The line without a carriage return at its end. -/
def dropReturn (line : List Glyph) : List Glyph :=
  if line.getLast? = some (some '\r') then line.dropLast else line

/-- The lines of a file.  A line ends with a line feed, which may have a carriage return in
front of it; the last line may have no end.  `line` is what the first line holds already, in
reverse. -/
def linesFrom (line : List Glyph) : List Glyph → List (List Glyph)
  | [] => if line.isEmpty then [] else [line.reverse]
  | glyph :: rest =>
    if glyph = some '\n' then dropReturn line.reverse :: linesFrom [] rest
    else linesFrom (glyph :: line) rest

/-- The lines of a file. -/
def lines (content : List Glyph) : List (List Glyph) := linesFrom [] content

/-- What one line of a file says. -/
inductive Line
  /-- A comment or nothing. -/
  | skipped
  | slot (slot : Nat)
  /-- Some other text. -/
  | odd (content : String)
  /-- Not even text. -/
  | broken
deriving DecidableEq, Repr

/-- What a line of characters says. -/
def lineOfChars (chars : List Char) : Line :=
  let trimmed := Text.trimChars chars
  if trimmed.isEmpty ∨ trimmed.head? = some '#' then .skipped
  else match Text.readIntegerChars Word.max trimmed with
    | .ok slot => .slot slot
    | .error _ => .odd (String.ofList trimmed)

/-- What a line says. -/
def lineOf (line : List Glyph) : Line :=
  match Glyph.chars? line with
  | some chars => lineOfChars chars
  | none => .broken

/-- Told of a line that is not text. -/
def brokenLine : String := "stream did not contain valid UTF-8"

/-- The slots of the lines from number `number` on. -/
def loadLines (path : String) (number : Nat) : List (List Glyph) → Except FileError (List Nat)
  | [] => .ok []
  | line :: rest =>
    match lineOf line with
    | .broken => .error (.io path brokenLine)
    | .odd content => .error (.parse path number content)
    | .skipped => loadLines path (number + 1) rest
    | .slot slot => (loadLines path (number + 1) rest).map (slot :: ·)

/-- The slots of a file, in file order. -/
def load (path : String) (content : List Glyph) : Except FileError (List Nat) :=
  loadLines path 1 (lines content)

/-- A line with a slot puts that slot in front of those of the following lines. -/
theorem loadLines_slot {path : String} {number slot : Nat} {line : List Glyph}
    (h : lineOf line = .slot slot) (rest : List (List Glyph)) :
    loadLines path number (line :: rest) =
      (loadLines path (number + 1) rest).map (slot :: ·) := by
  simp [loadLines, h]

/-- A line that is skipped changes only the numbers of the following lines. -/
theorem loadLines_skipped {path : String} {number : Nat} {line : List Glyph}
    (h : lineOf line = .skipped) (rest : List (List Glyph)) :
    loadLines path number (line :: rest) = loadLines path (number + 1) rest := by
  simp [loadLines, h]

end FailureFile

end Backfill
