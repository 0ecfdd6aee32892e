import Backfill.Options

/-!
# The command line

The first argument names a command, the others are its flags.  A flag has two hyphens and a
name; it takes a value, which may be attached with an equals sign or follow as the next
argument, or it is a switch.  A value is only looked at when the next flag comes or the
arguments end, and a text that starts with a hyphen is no value.

## Main definitions

* `Command` — what the program is told to do.
* `CommandLineError` — why the arguments are not understood, or a request for help.
* `Argument` — what one argument looks like; `Argument.ofText` tells.
* `FlagKind`, `FlagValue` — what a flag takes and what it was given.
* `CommandLine.scan` — the flags of a command with their values.
* `CommandLine.parse` — the command in a list of arguments.
* `Command.validate` — whether a command makes sense.
-/

namespace Backfill

/-- What the program is told to do. -/
inductive Command
  /-- Fetch every slot from `start` to `last`. -/
  | fetch (start last : Nat) (options : RunOptions)
  /-- Fetch the slots of a failure file. -/
  | replay (file : String) (options : RunOptions)
  /-- Print one block, or its summary. -/
  | block (slot : Nat) (summary : Bool) (url : Option String) (logLevel : String)
deriving DecidableEq, Repr

/-- Why the arguments are not understood, or what is shown instead of doing anything. -/
inductive CommandLineError
  | help
  | version
  /-- Help, because there is no command. -/
  | noCommand
  | unknownCommand
  | unknownArgument
  /-- A switch has a value. -/
  | switchValue
  /-- A flag is given twice. -/
  | repeated
  /-- A flag has no value, or an empty one. -/
  | emptyValue
  | badValue
  /-- A flag that is needed is not given. -/
  | missing
deriving DecidableEq, Repr

/-- The exit code: showing what was asked for is no failure. -/
def CommandLineError.exitCode : CommandLineError → Nat
  | .help | .version => 0
  | _ => 2

/-! ### Arguments -/

/-- What one argument looks like. -/
inductive Argument
  /-- Two hyphens: no flags follow. -/
  | separator
  | long (name : String) (attached : Option String)
  /-- One hyphen and letters, the first of which is told. -/
  | short (letter : Char)
  | plain (text : String)
deriving DecidableEq, Repr

/-- The parts of a text in front of and behind the first equals sign. -/
def splitValue (chars : List Char) : List Char × Option (List Char) :=
  match chars.dropWhile (· != '=') with
  | [] => (chars, none)
  | _ :: value => (chars.takeWhile (· != '='), some value)

/-- What an argument looks like. -/
def Argument.ofText (text : String) : Argument :=
  match text.toList with
  | ['-', '-'] => .separator
  | '-' :: '-' :: rest =>
    .long (String.ofList (splitValue rest).1) ((splitValue rest).2.map String.ofList)
  | '-' :: letter :: _ => .short letter
  | _ => .plain text

/-! ### Flags -/

/-- What a flag takes. -/
inductive FlagKind
  | switch
  | text
  /-- A text that must not be empty. -/
  | path
  /-- A number up to the limit. -/
  | number (limit : Nat)
  /-- A number up to the limit, for which zero may have a minus sign. -/
  | small (limit : Nat)
deriving DecidableEq, Repr

/-- What a flag was given. -/
inductive FlagValue
  | on
  | text (text : String)
  | number (value : Nat)
deriving DecidableEq, Repr

/-- The number without the minus sign of a zero. -/
def unsignedZero (text : String) : String :=
  match text.toList with
  | '-' :: digits =>
    if !digits.isEmpty && digits.all (· == '0') then String.ofList digits else text
  | _ => text

/-- What a flag that takes values of this kind was given with a text. -/
def FlagKind.read (kind : FlagKind) (text : String) : Except CommandLineError FlagValue :=
  let number := fun limit text => match Text.readInteger limit text with
    | .ok value => Except.ok (FlagValue.number value)
    | .error _ => .error .badValue
  match kind with
  | .switch => .error .switchValue
  | .text => .ok (.text text)
  | .path => if text.isEmpty then .error .emptyValue else .ok (.text text)
  | .number limit => number limit text
  | .small limit => number limit (unsignedZero text)

/-- The flags of a command, without their hyphens. -/
abbrev Flags := List (String × FlagKind)

/-- Flags with what they were given. -/
abbrev Given := List (String × FlagValue)

namespace CommandLine

/-- A flag that waits for its value, or whose value has not been looked at yet. -/
structure Pending where
  name : String
  kind : FlagKind
  value : Option String
deriving DecidableEq, Repr

/-- Gives a flag its value; a flag can be given only once. -/
def assign (name : String) (value : Except CommandLineError FlagValue) (given : Given) :
    Except CommandLineError Given :=
  if (given.lookup name).isSome then .error .repeated
  else value.map fun value => (name, value) :: given

/-- Looks at the flag that is pending. -/
def settle (pending : Option Pending) (given : Given) : Except CommandLineError Given :=
  match pending with
  | none => .ok given
  | some ⟨_, _, none⟩ => .error .emptyValue
  | some ⟨name, kind, some text⟩ => assign name (kind.read text) given

/-- A flag with a name is met: what is given, and what is pending from now on. -/
def meet (flags : Flags) (name : String) (attached : Option String) (pending : Option Pending)
    (given : Given) : Except CommandLineError (Option Pending × Given) :=
  match (("help", FlagKind.switch) :: flags).lookup name, attached with
  | none, _ => .error .unknownArgument
  | some .switch, some _ => .error .switchValue
  | some .switch, none => do
    let given ← settle pending given
    if name = "help" then .error .help
    else return (none, ← assign name (.ok .on) given)
  | some kind, some text => do
    let given ← settle pending given
    return (none, ← assign name (kind.read text) given)
  | some kind, none => do return (some ⟨name, kind, none⟩, ← settle pending given)

/-- The flags of a command with what they were given. -/
def scan (flags : Flags) (pending : Option Pending) (given : Given) :
    List String → Except CommandLineError Given
  | [] => settle pending given
  | text :: rest =>
    match Argument.ofText text with
    | .separator => if rest.isEmpty then settle pending given else .error .unknownArgument
    | .short letter =>
      if letter = 'h' then (settle pending given).bind fun _ => .error .help
      else .error .unknownArgument
    | .long name attached =>
      match meet flags name attached pending given with
      | .error error => .error error
      | .ok (pending, given) => scan flags pending given rest
    | .plain text =>
      match pending with
      | some ⟨name, kind, none⟩ => scan flags (some ⟨name, kind, some text⟩) given rest
      | _ => .error .unknownArgument

/-! ### Commands -/

/-- The flags of runs. -/
def runFlags : Flags :=
  [("rpc-url", .text), ("profile", .text),
    ("batch-size", .number Word.max), ("batches-per-cycle", .number Word.max),
    ("workers", .number Word.max), ("queue-capacity", .number Word.max),
    ("max-rps", .small Word.max32), ("burst", .small Word.max32),
    ("retry-attempts", .small Word.max32), ("retry-delay-ms", .number Word.max),
    ("scan-order", .text), ("require-account", .text), ("no-rewards", .switch),
    ("dispatch-port-start", .small Word.max16), ("dispatch-port-count", .small Word.max16),
    ("dispatch-host", .text), ("failure-dir", .path), ("log-level", .text),
    ("metrics-bind", .text)]

/-- The text that a flag was given. -/
def text? (given : Given) (name : String) : Option String :=
  match given.lookup name with
  | some (.text text) => some text
  | _ => none

/-- The number that a flag was given. -/
def number? (given : Given) (name : String) : Option Nat :=
  match given.lookup name with
  | some (.number value) => some value
  | _ => none

/-- Whether a switch was given. -/
def isOn (given : Given) (name : String) : Bool := (given.lookup name).isSome

/-- The value of a flag that must be given. -/
def required {α : Type} : Option α → Except CommandLineError α
  | some value => .ok value
  | none => .error .missing

/-- The options of a run. -/
def runOptions (given : Given) : RunOptions where
  url := text? given "rpc-url"
  profile := text? given "profile"
  batchSize := number? given "batch-size"
  batchesPerCycle := number? given "batches-per-cycle"
  workers := number? given "workers"
  queueCapacity := number? given "queue-capacity"
  maxRate := number? given "max-rps"
  burst := number? given "burst"
  retryAttempts := number? given "retry-attempts"
  retryDelay := number? given "retry-delay-ms"
  scanOrder := text? given "scan-order"
  requiredAccount := text? given "require-account"
  noRewards := isOn given "no-rewards"
  portStart := number? given "dispatch-port-start"
  portCount := number? given "dispatch-port-count"
  host := text? given "dispatch-host"
  failureDir := (text? given "failure-dir").getD (default : RunOptions).failureDir
  logLevel := (text? given "log-level").getD (default : RunOptions).logLevel
  metricsBind := text? given "metrics-bind"

/-- The command that fetches a range. -/
def parseFetch (arguments : List String) : Except CommandLineError Command := do
  let given ← scan (("start", .number Word.max) :: ("end", .number Word.max) :: runFlags) none []
    arguments
  return .fetch (← required (number? given "start")) (← required (number? given "end"))
    (runOptions given)

/-- The command that fetches what a failure file lists. -/
def parseReplay (arguments : List String) : Except CommandLineError Command := do
  let given ← scan (("file", .path) :: runFlags) none [] arguments
  return .replay (← required (text? given "file")) (runOptions given)

/-- The command that prints a block. -/
def parseBlock (arguments : List String) : Except CommandLineError Command := do
  let given ← scan
    [("slot", .number Word.max), ("summary", .switch), ("rpc-url", .text), ("log-level", .text)]
    none [] arguments
  return .block (← required (number? given "slot")) (isOn given "summary")
    (text? given "rpc-url") ((text? given "log-level").getD "warn")

/-- Whether a text names a command. -/
def isCommand (text : String) : Bool :=
  text == "fetch" || text == "replay" || text == "block" || text == "help"

/-- What is shown about a command, if it is one. -/
def parseHelp : List String → CommandLineError
  | [] => .help
  | [name] => if isCommand name then .help else .unknownCommand
  | _ => .unknownCommand

/-- What arguments in front of which there is no command lead to. -/
def parseNoCommand (text : String) (rest : List String) : CommandLineError :=
  match Argument.ofText text with
  | .separator =>
    match rest with
    | [] => .noCommand
    | next :: _ => if isCommand next then .unknownArgument else .unknownCommand
  | .long name attached =>
    if name = "help" ∨ name = "version" then
      if attached.isSome then .switchValue else if name = "help" then .help else .version
    else .unknownArgument
  | .short letter =>
    if letter = 'h' then .help else if letter = 'V' then .version else .unknownArgument
  | .plain _ => .unknownCommand

/-- The command in a list of arguments. -/
def parse : List String → Except CommandLineError Command
  | [] => .error .noCommand
  | text :: rest =>
    if text = "fetch" then parseFetch rest
    else if text = "replay" then parseReplay rest
    else if text = "block" then parseBlock rest
    else if text = "help" then .error (parseHelp rest)
    else .error (parseNoCommand text rest)

end CommandLine

/-- Whether a command makes sense.  Of a fetch, the range is looked at first. -/
def Command.validate : Command → Except UsageError Unit
  | .fetch start last options => do
    match SlotRange.ofBounds start last with
    | .error error => throw (.range error)
    | .ok _ => options.validate
  | .replay _ options => options.validate
  | .block .. => .ok ()

end Backfill
