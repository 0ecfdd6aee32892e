import Backfill.Plan
import Backfill.Text.Basic

/-!
# Words in settings

Some settings are chosen by a word.  Blanks around a word and the case of its letters do not
matter.

## Main definitions

* `Profile`, `LogFormat` — what can be chosen; `ScanOrder` is the third.
* `Profile.ofWord`, `ScanOrder.ofWord`, `LogFormat.ofWord` — what a word stands for.
* `WordError` — the word stands for nothing.
-/

namespace Backfill

/-- A set of values that fit together. -/
inductive Profile
  | standard
  | highPerformance
  | conservative
deriving DecidableEq, Repr, Inhabited

/-- How log lines are written. -/
inductive LogFormat
  | json
  | text
deriving DecidableEq, Repr, Inhabited

/-- A word that stands for nothing. -/
inductive WordError
  | profile (word : String)
  | scanOrder (word : String)
deriving DecidableEq, Repr

/-- The error as it is told to the user. -/
def WordError.message : WordError → String
  | .profile word =>
    s!"unknown profile `{word}` (expected default|high-performance|conservative)"
  | .scanOrder word => s!"unknown scan order `{word}` (expected ascending|descending)"

namespace Text

/-- A word without the blanks around it, in lower case. -/
def plain (word : String) : String := lower (trim word)

/-- A word with hyphens in place of underscores. -/
def hyphenated (word : String) : String :=
  String.ofList (word.toList.map fun c => if c = '_' then '-' else c)

end Text

namespace Profile

/-- The profile that a word stands for; underscores count as hyphens. -/
def ofWord (text : String) : Except WordError Profile :=
  let plain := Text.hyphenated (Text.plain text)
  if plain = "default" then .ok .standard
  else if plain = "high-performance" ∨ plain = "fast" then .ok .highPerformance
  else if plain = "conservative" ∨ plain = "safe" then .ok .conservative
  else .error (.profile plain)

end Profile

namespace ScanOrder

/-- The direction that a word stands for. -/
def ofWord (text : String) : Except WordError ScanOrder :=
  let plain := Text.plain text
  if plain = "asc" ∨ plain = "ascending" then .ok .ascending
  else if plain = "desc" ∨ plain = "descending" then .ok .descending
  else .error (.scanOrder plain)

end ScanOrder

namespace LogFormat

/-- The format that a word stands for; any other word stands for the usual one. -/
def ofWord (text : String) : LogFormat :=
  let plain := Text.plain text
  if plain = "text" ∨ plain = "pretty" then .text else .json

end LogFormat

end Backfill
