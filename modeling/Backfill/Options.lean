import Backfill.Settings.Lookup
import Backfill.SocketAddress

/-!
# Options of a run

A run is described by options of the command line.  They are checked one by one first.
Then those that correspond to a setting take the place of the variable of the environment
with the same meaning.

## Main definitions

* `RunOptions` — the options that runs have in common.
* `UsageError` — an option that makes no sense.
* `RunOptions.validate` — checks the options.
* `RunOptions.override?` — the text of a setting that an option gives.
* `RunOptions.resolve` — the settings that options and environment ask for together.
-/

namespace Backfill

/-- The options that runs have in common; an option that is not given is `none`. -/
structure RunOptions where
  url : Option String
  profile : Option String
  batchSize : Option Nat
  batchesPerCycle : Option Nat
  workers : Option Nat
  queueCapacity : Option Nat
  maxRate : Option Nat
  burst : Option Nat
  retryAttempts : Option Nat
  retryDelay : Option Nat
  scanOrder : Option String
  requiredAccount : Option String
  noRewards : Bool
  portStart : Option Nat
  portCount : Option Nat
  host : Option String
  failureDir : String
  logLevel : String
  metricsBind : Option String
deriving DecidableEq, Repr

/-- An option that makes no sense. -/
inductive UsageError
  /-- The flag must not be zero. -/
  | zero (flag : String)
  | word (error : WordError)
  | emptyAccount
  /-- Something about ports is said, but not the first port. -/
  | noPortStart
  /-- Not an address to listen at. -/
  | bind (address : String)
  | range (error : RangeError)
deriving DecidableEq, Repr

/-- The error as it is told to the user. -/
def UsageError.message : UsageError → String
  | .zero flag => flag ++ " must be > 0"
  | .word error => error.message
  | .emptyAccount => "--require-account must not be empty"
  | .noPortStart => "--dispatch-port-count/--dispatch-host require --dispatch-port-start"
  | .bind address =>
    s!"invalid --metrics-bind address `{address}`: invalid socket address syntax"
  | .range error => "--start/--end: " ++ error.message

namespace RunOptions

/-- Nothing is given: failure files go to the working directory. -/
def bare (logLevel : String) : RunOptions where
  url := none
  profile := none
  batchSize := none
  batchesPerCycle := none
  workers := none
  queueCapacity := none
  maxRate := none
  burst := none
  retryAttempts := none
  retryDelay := none
  scanOrder := none
  requiredAccount := none
  noRewards := false
  portStart := none
  portCount := none
  host := none
  failureDir := "."
  logLevel := logLevel
  metricsBind := none

instance : Inhabited RunOptions := ⟨bare "info"⟩

/-! ### Checking -/

/-- The flags that must not be zero, in the order in which they are looked at. -/
def sizes (options : RunOptions) : List (String × Option Nat) :=
  [("--batch-size", options.batchSize),
    ("--batches-per-cycle", options.batchesPerCycle),
    ("--workers", options.workers),
    ("--queue-capacity", options.queueCapacity),
    ("--max-rps", options.maxRate),
    ("--burst", options.burst),
    ("--dispatch-port-count", options.portCount)]

/-- No size may be zero. -/
def checkSizes (options : RunOptions) : Except UsageError Unit :=
  match options.sizes.find? (·.2 == some 0) with
  | some size => .error (.zero size.1)
  | none => .ok ()

/-- A word that is given must stand for something. -/
def checkWord {α : Type} (ofWord : String → Except WordError α) :
    Option String → Except UsageError Unit
  | none => .ok ()
  | some text => match ofWord text with
    | .ok _ => .ok ()
    | .error error => .error (.word error)

/-- An account that is given must not be blank. -/
def checkAccount (options : RunOptions) : Except UsageError Unit :=
  if options.requiredAccount.any Text.isBlankText then .error .emptyAccount else .ok ()

/-- Without a first port, nothing about ports may be given. -/
def checkPorts (options : RunOptions) : Except UsageError Unit :=
  if options.portStart.isNone ∧ (options.portCount.isSome ∨ options.host.isSome) then
    .error .noPortStart
  else .ok ()

/-- The address to listen at must be one. -/
def checkBind (options : RunOptions) : Except UsageError Unit :=
  match options.metricsBind with
  | none => .ok ()
  | some text => if (SocketAddress.ofText? text).isSome then .ok () else .error (.bind text)

/-- Checks the options one after the other. -/
def validate (options : RunOptions) : Except UsageError Unit := do
  options.checkSizes
  checkWord Profile.ofWord options.profile
  checkWord ScanOrder.ofWord options.scanOrder
  options.checkAccount
  options.checkPorts
  options.checkBind

/-! ### Settings -/

/-- The text of a setting that an option gives. -/
def override? (options : RunOptions) : SettingKey → Option String
  | .url => options.url
  | .profile => options.profile
  | .batchSize => options.batchSize.map Text.writeInteger
  | .batchesPerCycle => options.batchesPerCycle.map Text.writeInteger
  | .workers => options.workers.map Text.writeInteger
  | .queueCapacity => options.queueCapacity.map Text.writeInteger
  | .maxRate => options.maxRate.map Text.writeInteger
  | .burst => options.burst.map Text.writeInteger
  | .retryAttempts => options.retryAttempts.map Text.writeInteger
  | .retryDelay => options.retryDelay.map Text.writeInteger
  | .scanOrder => options.scanOrder
  | .requiredAccount => options.requiredAccount
  | .includeRewards => if options.noRewards then some "false" else none
  | .portStart => options.portStart.map Text.writeInteger
  | .portCount => options.portCount.map Text.writeInteger
  | .host => options.host
  | .poolSize | .batchTimeout | .requestTimeout => none

/-- The text of a setting: that of an option, or else that of the environment. -/
def lookup (options : RunOptions) (environment : String → Option String) (key : SettingKey) :
    Option String :=
  (options.override? key).or (environment key.name)

/-- The settings that options and environment ask for together. -/
def resolve (options : RunOptions) (environment : String → Option String) :
    Except SettingsError Settings :=
  Settings.resolve (options.lookup environment)

end RunOptions

end Backfill
