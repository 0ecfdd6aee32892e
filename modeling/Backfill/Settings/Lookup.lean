import Backfill.Settings

/-!
# Reading settings

Settings are read by key from texts: flags of the command line, variables of the
environment.  A blank text counts as none.  Keys are read in a fixed order, and the first
text that cannot be read is reported.  A text that was read changes the value that the
profile gives.

## Main definitions

* `SettingKey` — what can be set; `SettingKey.name` is its name in the environment.
* `SettingsError` — why there are no settings.
* `Overrides` — the values read; `Overrides.read` reads them.
* `Settings.ofOverrides` — the settings that follow from them.
* `Settings.read` — both together.
* `Settings.validate` — whether settings make sense together.
-/

namespace Backfill

/-- What can be set. -/
inductive SettingKey
  | profile
  | url
  | batchSize
  | batchesPerCycle
  | burst
  | retryAttempts
  | poolSize
  | includeRewards
  | retryDelay
  | batchTimeout
  | requestTimeout
  | maxRate
  | workers
  | queueCapacity
  | scanOrder
  | requiredAccount
  | portStart
  | portCount
  | host
deriving DecidableEq, Repr

/-- The name of a key in the environment. -/
def SettingKey.name : SettingKey → String
  | .profile => "FETCH_PROFILE"
  | .url => "SOLANA_RPC_URL"
  | .batchSize => "FETCH_MAX_BATCH_SIZE"
  | .batchesPerCycle => "FETCH_BATCHES_PER_CYCLE"
  | .burst => "FETCH_BURST"
  | .retryAttempts => "FETCH_RETRY_ATTEMPTS"
  | .poolSize => "FETCH_HTTP_POOL_SIZE"
  | .includeRewards => "FETCH_INCLUDE_REWARDS"
  | .retryDelay => "FETCH_RETRY_DELAY_MS"
  | .batchTimeout => "FETCH_BATCH_TIMEOUT_MS"
  | .requestTimeout => "FETCH_REQUEST_TIMEOUT_MS"
  | .maxRate => "FETCH_MAX_RPS"
  | .workers => "FETCH_WORKERS"
  | .queueCapacity => "FETCH_QUEUE_CAPACITY"
  | .scanOrder => "FETCH_SCAN_ORDER"
  | .requiredAccount => "FETCH_REQUIRE_ACCOUNT"
  | .portStart => "DISPATCH_PORT_START"
  | .portCount => "DISPATCH_PORT_COUNT"
  | .host => "DISPATCH_HOST"

/-- Why a text is no value for its key. -/
inductive ValueError
  | integer (error : IntegerError)
  | boolean (error : BooleanError)
  | word (error : WordError)
  | url
deriving DecidableEq, Repr

/-- The error as it is told to the user. -/
def ValueError.message : ValueError → String
  | .integer error => error.message
  | .boolean error => error.message
  | .word error => error.message
  | .url => "expected an http(s) URL"

/-- Why settings make no sense together. -/
inductive SettingsFault
  /-- A size of this name is zero. -/
  | zero (name : String)
  /-- A request gets no time at all. -/
  | timeout
  /-- There is no port to hand blocks on to. -/
  | noPorts
  /-- The ports reach beyond the last one. -/
  | ports (start count : Nat)
deriving DecidableEq, Repr

/-- The fault as it is told to the user. -/
def SettingsFault.message : SettingsFault → String
  | .zero name => s!"{name} must be > 0"
  | .timeout => "timeouts must be > 0"
  | .noPorts => "dispatch port count must be > 0"
  | .ports start count => s!"dispatch port range {start}+{count} exceeds {Word.max16}"

/-- Why there are no settings. -/
inductive SettingsError
  | missing (key : SettingKey)
  | invalidValue (key : SettingKey) (value : String) (reason : ValueError)
  | invalid (fault : SettingsFault)
deriving DecidableEq, Repr

/-- The error as it is told to the user. -/
def SettingsError.message : SettingsError → String
  | .missing key => key.name ++ " is required (env var or CLI flag)"
  | .invalidValue key value reason =>
    s!"invalid value `{value}` for " ++ key.name ++ ": " ++ reason.message
  | .invalid fault => "invalid configuration: " ++ fault.message

/-! ### Reading -/

/-- The values that were given; a value that was not given is `none`. -/
structure Overrides where
  profile : Option Profile
  url : Option String
  batchSize : Option Nat
  batchesPerCycle : Option Nat
  burst : Option Nat
  retryAttempts : Option Nat
  poolSize : Option Nat
  includeRewards : Option Bool
  retryDelay : Option Nat
  batchTimeout : Option Nat
  requestTimeout : Option Nat
  maxRate : Option Nat
  workers : Option Nat
  queueCapacity : Option Nat
  scanOrder : Option ScanOrder
  requiredAccount : Option String
  portStart : Option Nat
  portCount : Option Nat
  host : Option String
deriving DecidableEq, Repr

namespace Overrides

/-- A text for a key, unless it is blank. -/
def given (lookup : SettingKey → Option String) (key : SettingKey) : Option String :=
  (lookup key).filter fun text => !Text.isBlankText text

/-- The value of a key, read with `parse` from its text without the blanks around it. -/
def readKey {α : Type} (lookup : SettingKey → Option String) (parse : String → Except ValueError α)
    (key : SettingKey) : Except SettingsError (Option α) :=
  match given lookup key with
  | none => .ok none
  | some text =>
    match parse (Text.trim text) with
    | .ok value => .ok (some value)
    | .error reason => .error (.invalidValue key text reason)

/-- Reads a number up to a limit. -/
def number (limit : Nat) (text : String) : Except ValueError Nat :=
  (Text.readInteger limit text).mapError .integer

/-- Reads a truth value. -/
def truth (text : String) : Except ValueError Bool := (Text.readBoolean text).mapError .boolean

/-- Reads a profile. -/
def profileWord (text : String) : Except ValueError Profile := (Profile.ofWord text).mapError .word

/-- Reads a direction. -/
def orderWord (text : String) : Except ValueError ScanOrder := (ScanOrder.ofWord text).mapError .word

/-- Reads every key in turn.  The number of ports is looked at only if there is a first
port. -/
def read (lookup : SettingKey → Option String) : Except SettingsError Overrides := do
  let size := readKey lookup (number Word.max)
  let count := readKey lookup (number Word.max32)
  let port := readKey lookup (number Word.max16)
  let profile ← readKey lookup profileWord .profile
  let batchSize ← size .batchSize
  let batchesPerCycle ← size .batchesPerCycle
  let burst ← count .burst
  let retryAttempts ← count .retryAttempts
  let poolSize ← size .poolSize
  let includeRewards ← readKey lookup truth .includeRewards
  let retryDelay ← size .retryDelay
  let batchTimeout ← size .batchTimeout
  let requestTimeout ← size .requestTimeout
  let maxRate ← count .maxRate
  let workers ← size .workers
  let queueCapacity ← size .queueCapacity
  let scanOrder ← readKey lookup orderWord .scanOrder
  let portStart ← port .portStart
  let portCount ← if portStart.isSome then port .portCount else .ok none
  return {
    profile := profile
    url := given lookup .url
    batchSize := batchSize
    batchesPerCycle := batchesPerCycle
    burst := burst
    retryAttempts := retryAttempts
    poolSize := poolSize
    includeRewards := includeRewards
    retryDelay := retryDelay
    batchTimeout := batchTimeout
    requestTimeout := requestTimeout
    maxRate := maxRate
    workers := workers
    queueCapacity := queueCapacity
    scanOrder := scanOrder
    requiredAccount := (given lookup .requiredAccount).map Text.trim
    portStart := portStart
    portCount := portCount
    host := given lookup .host }

/-- Where blocks are handed on: nowhere, unless there is a first port. -/
def dispatch (values : Overrides) : Option DispatchSettings :=
  values.portStart.map fun portStart =>
    { (default : DispatchSettings) with
      portStart := portStart
      portCount := values.portCount.getD (default : DispatchSettings).portCount
      host := values.host.getD (default : DispatchSettings).host }

end Overrides

namespace Settings

/-- The settings that follow from the values given.  A rate brings its workers and its queue
with it, unless they are given too. -/
def ofOverrides (values : Overrides) : Settings :=
  let base := preset (values.profile.getD .standard) (values.url.getD "")
  let rated := match values.maxRate with
    | some rate => base.atRate rate
    | none => base
  { rated with
    batchSize := values.batchSize.getD base.batchSize
    batchesPerCycle := values.batchesPerCycle.getD base.batchesPerCycle
    workers := values.workers.getD rated.workers
    queueCapacity := values.queueCapacity.getD rated.queueCapacity
    burst := values.burst.getD base.burst
    retryAttempts := values.retryAttempts.getD base.retryAttempts
    retryDelay := values.retryDelay.getD base.retryDelay
    batchTimeout := values.batchTimeout.getD base.batchTimeout
    requestTimeout := values.requestTimeout.getD base.requestTimeout
    poolSize := values.poolSize.getD base.poolSize
    includeRewards := values.includeRewards.getD base.includeRewards
    scanOrder := values.scanOrder.getD base.scanOrder
    requiredAccount := values.requiredAccount
    dispatch := values.dispatch }

/-- The settings that the texts of the keys ask for. -/
def read (lookup : SettingKey → Option String) : Except SettingsError Settings :=
  (Overrides.read lookup).map ofOverrides

/-! ### Sense -/

/-- Whether a text starts like the address of a web server. -/
def isWebAddress (url : String) : Bool :=
  "http://".toList.isPrefixOf url.toList || "https://".toList.isPrefixOf url.toList

/-- The sizes that must not be zero, in the order in which they are looked at. -/
def sizes (settings : Settings) : List (String × Nat) :=
  [("max batch size", settings.batchSize),
    ("batches per cycle", settings.batchesPerCycle),
    ("worker count", settings.workers),
    ("queue capacity", settings.queueCapacity),
    ("http pool size", settings.poolSize),
    ("max requests per second", settings.maxRate),
    ("burst capacity", settings.burst)]

/-- Whether there are ports to hand blocks on to, none of them beyond the last one. -/
def checkPorts (dispatch : DispatchSettings) : Except SettingsError Unit :=
  if dispatch.portCount = 0 then .error (.invalid .noPorts)
  else if Word.max16 < dispatch.portStart + dispatch.portCount - 1 then
    .error (.invalid (.ports dispatch.portStart dispatch.portCount))
  else .ok ()

/-- Whether the settings make sense together. -/
def validate (settings : Settings) : Except SettingsError Unit :=
  if Text.isBlankText settings.url then .error (.missing .url)
  else if isWebAddress settings.url = false then .error (.invalidValue .url settings.url .url)
  else
    match settings.sizes.find? (·.2 == 0) with
    | some size => .error (.invalid (.zero size.1))
    | none =>
      if settings.batchTimeout = 0 ∨ settings.requestTimeout = 0 then .error (.invalid .timeout)
      else match settings.dispatch with
        | some dispatch => checkPorts dispatch
        | none => .ok ()

/-- The settings that the texts of the keys ask for, if they make sense. -/
def resolve (lookup : SettingKey → Option String) : Except SettingsError Settings := do
  let settings ← read lookup
  settings.validate
  return settings

end Settings

end Backfill
