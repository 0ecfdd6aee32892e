import Backfill.Ledger.File
import Backfill.Text.Alphanumeric

/-!
# Variables of the environment

Variables have a name and a text.  More of them may be given in a file, one a line; a
variable that is set already wins over the file.  A line has a name, an equals sign and a
value, and the blanks at its ends do not matter; single quotes keep a value as it is, in double
quotes and outside of quotes a backslash takes away the meaning of the next character and a
dollar sign stands in front of the name of another variable.  Reading ends at the first line
that is not understood.  The character with the code zero ends a text in the environment, so no
variable can be set to a text that holds it.

## Main definitions

* `Environment` — variables with their texts; `Environment.set?` sets one.
* `EnvironmentFile.Value` — how far a value has been read; `EnvironmentFile.value?` reads one.
* `EnvironmentFile.assignment?` — what one line says.
* `EnvironmentFile.names` — the names that a file may mention.
* `Environment.extend?` — the variables with those of a file.
-/

namespace Backfill

/-- Variables with their texts. -/
abbrev Environment := List (String × String)

namespace Environment

/-- The text of a variable. -/
def get? (environment : Environment) (name : String) : Option String := environment.lookup name

/-- The text that is found for a name.  A variable is kept as its name, an equals sign and its
text, so a name that holds an equals sign reaches into a text. -/
def find? (environment : Environment) (name : String) : Option String :=
  match name.toList.dropWhile (· != '=') with
  | [] => environment.get? name
  | _ :: rest =>
    let front := String.ofList (name.toList.takeWhile (· != '='))
    (environment.get? front).bind fun text =>
      if (rest ++ ['=']).isPrefixOf text.toList then
        some (String.ofList (text.toList.drop (rest.length + 1)))
      else none

/-- Sets a variable, unless it is set already; with a text that holds the code zero this does
not work. -/
def set? (environment : Environment) (name text : String) : Option Environment :=
  if (environment.get? name).isSome then some environment
  else if text.toList.contains '\x00' then none
  else some ((name, text) :: environment)

/-- Told when a variable cannot be set. -/
def fault : String := "failed to set an environment variable: nul byte found in provided data"

end Environment

namespace EnvironmentFile

/-- Where the reader of a value is. -/
inductive Mode
  | plain
  /-- Within single quotes. -/
  | single
  /-- Within double quotes. -/
  | double
  /-- Behind a backslash, in double quotes or not. -/
  | escaped (quoted : Bool)
  /-- In the name of a variable, which is gathered in reverse, in double quotes or not. -/
  | name (letters : List Char) (quoted : Bool)
  /-- The same, with braces around the name. -/
  | braced (letters : List Char) (quoted : Bool)
  /-- Behind the value, where only a comment may follow. -/
  | ended
  /-- In a comment. -/
  | comment
deriving DecidableEq, Repr

/-- How far a value has been read; its characters are gathered in reverse. -/
structure Value where
  mode : Mode
  chars : List Char
deriving DecidableEq, Repr

/-- The mode in double quotes or outside of quotes. -/
def unquoted (quoted : Bool) : Mode := if quoted then .double else .plain

/-- The characters of the text of a variable, in reverse; none if it has no text. -/
def substitute (lookup : String → Option String) (letters : List Char) : List Char :=
  ((lookup (String.ofList letters.reverse)).getD "").toList.reverse

/-- Reads a character outside of quotes. -/
def plainStep (value : Value) (c : Char) : Value :=
  if c = '$' then { value with mode := .name [] false }
  else if c = '\'' then { value with mode := .single }
  else if c = '"' then { value with mode := .double }
  else if c = '\\' then { value with mode := .escaped false }
  else if c = ' ' ∨ c = '\t' then { value with mode := .ended }
  else { value with chars := c :: value.chars }

/-- Reads a character in double quotes. -/
def doubleStep (value : Value) (c : Char) : Value :=
  if c = '$' then { value with mode := .name [] true }
  else if c = '"' then { value with mode := .plain }
  else if c = '\\' then { value with mode := .escaped true }
  else { value with chars := c :: value.chars }

/-- Reads a character in the name of a variable.  The character that ends the name belongs to
the value, unless it starts another name. -/
def nameStep (lookup : String → Option String) (letters : List Char) (quoted : Bool) (value : Value)
    (c : Char) : Value :=
  if Text.isAlphanumeric c then { value with mode := .name (c :: letters) quoted }
  else if c = '\x7b' ∧ letters.isEmpty then { value with mode := .braced [] quoted }
  else
    let chars := substitute lookup letters ++ value.chars
    if c = '$' then ⟨.name [] quoted, chars⟩ else ⟨unquoted quoted, c :: chars⟩

/-- Reads one character of a value, if it can be understood. -/
def step? (lookup : String → Option String) (value : Value) (c : Char) : Option Value :=
  match value.mode with
  | .plain => some (plainStep value c)
  | .double => some (doubleStep value c)
  | .single =>
    some (if c = '\'' then { value with mode := .plain } else { value with chars := c :: value.chars })
  | .escaped quoted =>
    if ['\\', '\'', '"', '$', ' '].contains c then some ⟨unquoted quoted, c :: value.chars⟩
    else if c = 'n' then some ⟨unquoted quoted, '\n' :: value.chars⟩
    else none
  | .name letters quoted => some (nameStep lookup letters quoted value c)
  | .braced letters quoted =>
    some (if c = '\x7d' then ⟨unquoted quoted, substitute lookup letters ++ value.chars⟩
      else { value with mode := .braced (c :: letters) quoted })
  | .ended =>
    if c = ' ' ∨ c = '\t' then some value
    else if c = '#' then some { value with mode := .comment }
    else none
  | .comment => some value

/-- The value that has been read, if it is complete. -/
def finish? (lookup : String → Option String) (value : Value) : Option String :=
  match value.mode with
  | .single | .double | .escaped true | .braced _ _ | .name _ true => none
  | .name letters false => some (String.ofList (substitute lookup letters ++ value.chars).reverse)
  | _ => some (String.ofList value.chars.reverse)

/-- The value that a text denotes. -/
def value? (lookup : String → Option String) (text : List Char) : Option String :=
  (text.foldlM (step? lookup) ⟨.plain, []⟩).bind (finish? lookup)

/-- Reads the name of a variable: it starts with an ASCII letter or an underscore, and digits
and points may follow. -/
def key? (text : List Char) : Option (String × List Char) :=
  match text with
  | c :: _ =>
    if c.isAlpha || c == '_' then
      let within := fun c : Char => c.isAlphanum || c == '_' || c == '.'
      some (String.ofList (text.takeWhile within), text.dropWhile within)
    else none
  | [] => none

/-- The text without the blanks in front. -/
def skip (text : List Char) : List Char := text.dropWhile Text.isBlank

/-- Reads an equals sign. -/
def equals? : List Char → Option (List Char)
  | '=' :: rest => some rest
  | _ => none

/-- Reads the name of a variable and the equals sign; the word `export` may stand in front of
the name. -/
def target? (text : List Char) : Option (String × List Char) := do
  let (key, rest) ← key? text
  let rest := skip rest
  if key = "export" ∧ (equals? rest).isNone then
    let (key, rest) ← key? rest
    return (key, ← equals? (skip rest))
  else return (key, ← equals? rest)

/-- Whether nothing is left but a comment. -/
def isEmptyRest (text : List Char) : Bool := text.isEmpty || text.head? == some '#'

/-- What one line says: nothing, or that a variable has a text. -/
def assignment? (lookup : String → Option String) (line : List Char) :
    Option (Option (String × String)) :=
  let line := Text.trimChars line
  if isEmptyRest line then some none
  else do
    let (key, rest) ← target? line
    let rest := skip rest
    if isEmptyRest rest then return some (key, "") else return some (key, ← value? lookup rest)

/-- The variables with those of the lines of a file, up to the first line that is not
understood, unless one of them cannot be set.  `read` are the variables that the file has set
before. -/
def extendWith? (environment read : Environment) : List (List Glyph) → Option Environment
  | [] => some environment
  | line :: rest =>
    let lookup := fun name => (environment.find? name).or (read.get? name)
    match (Glyph.chars? line).bind (assignment? lookup) with
    | none => some environment
    | some none => extendWith? environment read rest
    | some (some (key, text)) =>
      (environment.set? key text).bind fun environment =>
        extendWith? environment ((key, text) :: read) rest

/-- The longest pieces of a text that consist of certain characters. -/
def pieces (isPart : Char → Bool) (text : List Char) : List String :=
  (text.splitBy fun a b => isPart a == isPart b).filterMap fun piece =>
    if piece.all isPart then some (String.ofList piece) else none

/-- The names of variables that the lines of a file may set or look up: they are words, or
words with underscores and points, or stand in braces. -/
def names (content : List Glyph) : List String :=
  [Text.isAlphanumeric, fun c => Text.isAlphanumeric c || c == '_' || c == '.',
    fun c => c != '\x7b' && c != '\x7d' && c != '='].flatMap fun isPart =>
      pieces isPart (content.filterMap id)

end EnvironmentFile

/-- The variables with those of a file, unless one of them cannot be set. -/
def Environment.extend? (environment : Environment) (content : List Glyph) :
    Option Environment :=
  EnvironmentFile.extendWith? environment [] (FailureFile.lines content)

end Backfill
