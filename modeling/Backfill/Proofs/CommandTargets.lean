import Backfill.Invocation
import Backfill.Proofs.EnginePlans
import Backfill.Proofs.ReaderResults
import Backfill.Proofs.TextShapes

/-!
# What a run is asked for

Slots come from the command line or from a file.  In both places a number is refused if it does not
fit in a word, a range is refused if it is empty or cannot be counted, and there is no run over an
empty list.  So whatever the arguments, the environment and the files are, an errand that is a run
is one that an engine can make.

## Main definitions

* `FlagKind.IsWord`, `CommandLine.InWords` — numbers that fit in words.
* `Target.asked` — the slots that are asked for.
* `Target.Accepted` — what a run can be about.

## Main results

* `CommandLine.scan_inWords` — every number that is given fits in a word.
* `Errand.accepted_of_run` — **an errand that is a run asks for words, and for at least one.**
* `Target.Accepted.asks` — an engine makes such a run.
-/

namespace Backfill

/-! ### Numbers on the command line -/

/-- What a flag of this kind is given fits in a word. -/
def FlagKind.IsWord : FlagKind → Prop
  | .number limit | .small limit => limit ≤ Word.max
  | _ => True

instance (kind : FlagKind) : Decidable kind.IsWord := by
  unfold FlagKind.IsWord
  split <;> infer_instance

namespace CommandLine

/-- Every number that was given fits in a word. -/
def InWords (given : Given) : Prop := ∀ name value, (name, .number value) ∈ given → value ≤ Word.max

variable {flags : Flags} {given next : Given} {pending after : Option Pending}
  {attached : Option String} {name text : String} {kind : FlagKind} {value : Nat}

/-- A number that is read fits in a word, if its flag says so. -/
theorem le_of_read (hkind : kind.IsWord) (h : kind.read text = .ok (.number value)) :
    value ≤ Word.max := by
  have hbound {limit found : Nat} {text : String} (hlimit : limit ≤ Word.max)
      (hfound : Text.readInteger limit text = .ok found) : found ≤ Word.max :=
    Nat.le_trans (Text.readIntegerChars_eq_ok.mp hfound).2 hlimit
  -- only flags that stand for a number are read as one, and their limits are words
  cases kind with
  | switch => cases h
  | text => cases h
  | path =>
    simp only [FlagKind.read] at h
    split at h <;> cases h
  | number limit | small limit =>
    simp only [FlagKind.read] at h
    split at h
    · next hfound =>
      obtain rfl := FlagValue.number.inj (Except.ok.inj h)
      exact hbound hkind hfound
    · cases h

/-- A flag that gets a value keeps the numbers words. -/
theorem InWords.assign {result : Except CommandLineError FlagValue} (h : InWords given)
    (hvalue : ∀ value, result = .ok (.number value) → value ≤ Word.max)
    (hassign : assign name result given = .ok next) : InWords next := by
  unfold CommandLine.assign at hassign
  split at hassign
  · cases hassign
  cases result with
  | error => cases hassign
  | ok found =>
    obtain rfl := Except.ok.inj hassign
    intro other value hmem
    -- the value that was read just now, or one from before
    rcases List.mem_cons.mp hmem with heq | hmem
    · obtain ⟨-, rfl⟩ := Prod.mk.inj heq
      exact hvalue value rfl
    · exact h other value hmem

theorem InWords.settle (h : InWords given) (hpending : ∀ flag ∈ pending, flag.kind.IsWord)
    (hsettle : settle pending given = .ok next) : InWords next := by
  unfold CommandLine.settle at hsettle
  split at hsettle
  · obtain rfl := Except.ok.inj hsettle
    exact h
  · cases hsettle
  · exact h.assign (fun _ => le_of_read (hpending _ rfl)) hsettle

/-- What waits for its value after a flag is a flag of the command. -/
theorem InWords.meet (hflags : ∀ flag ∈ flags, flag.2.IsWord) (h : InWords given)
    (hpending : ∀ flag ∈ pending, flag.kind.IsWord)
    (hmeet : meet flags name attached pending given = .ok (after, next)) :
    InWords next ∧ ∀ flag ∈ after, flag.kind.IsWord := by
  -- the flag that is met is one of those that are known
  have hknown {kind : FlagKind} (hlookup : (("help", .switch) :: flags).lookup name = some kind) :
      kind.IsWord := by
    obtain ⟨before, rest, hsplit, -⟩ := List.lookup_eq_some_iff.mp hlookup
    have hmem : (name, kind) ∈ ("help", FlagKind.switch) :: flags := by simp [hsplit]
    rcases List.mem_cons.mp hmem with heq | hmem
    · obtain ⟨-, rfl⟩ := Prod.mk.inj heq
      trivial
    · exact hflags _ hmem
  -- a flag with its text attached is assigned at once; one without stays pending
  unfold CommandLine.meet at hmeet
  split at hmeet
  · cases hmeet
  · cases hmeet
  · obtain ⟨settled, hsettled, hmeet⟩ := exists_of_bind_eq_ok hmeet
    split at hmeet
    · cases hmeet
    · obtain ⟨assigned, hassign, hmeet⟩ := exists_of_bind_eq_ok hmeet
      obtain ⟨rfl, rfl⟩ := Prod.mk.inj (Except.ok.inj hmeet)
      exact ⟨(h.settle hpending hsettled).assign (fun _ hon => by cases hon) hassign, nofun⟩
  · next kind text _ hlookup =>
    obtain ⟨settled, hsettled, hmeet⟩ := exists_of_bind_eq_ok hmeet
    obtain ⟨assigned, hassign, hmeet⟩ := exists_of_bind_eq_ok hmeet
    obtain ⟨rfl, rfl⟩ := Prod.mk.inj (Except.ok.inj hmeet)
    exact ⟨(h.settle hpending hsettled).assign (fun _ => le_of_read (hknown hlookup)) hassign, nofun⟩
  · next kind _ hlookup =>
    obtain ⟨settled, hsettled, hmeet⟩ := exists_of_bind_eq_ok hmeet
    obtain ⟨rfl, rfl⟩ := Prod.mk.inj (Except.ok.inj hmeet)
    refine ⟨h.settle hpending hsettled, fun flag hflag => ?_⟩
    obtain rfl := Option.some.inj hflag
    exact hknown hlookup

/-- **Every number that is given fits in a word**, if the limits of the flags say so. -/
theorem scan_inWords (hflags : ∀ flag ∈ flags, flag.2.IsWord) (h : InWords given)
    (hpending : ∀ flag ∈ pending, flag.kind.IsWord) {arguments : List String}
    (hscan : scan flags pending given arguments = .ok next) : InWords next := by
  -- argument by argument, with the flag that waits for its text
  induction arguments generalizing pending given with
  | nil => exact h.settle hpending hscan
  | cons text rest ih =>
    rw [scan] at hscan
    split at hscan
    · split at hscan
      · exact h.settle hpending hscan
      · cases hscan
    · split at hscan
      · obtain ⟨settled, -, herror⟩ := exists_of_bind_eq_ok hscan
        cases herror
      · cases hscan
    · split at hscan
      · cases hscan
      · next hmeet =>
        obtain ⟨hwords, hafter⟩ := h.meet hflags hpending hmeet
        exact ih hwords hafter hscan
    · split at hscan
      · next waiting kind =>
        refine ih h (fun flag hflag => ?_) hscan
        obtain rfl := Option.some.inj hflag
        exact hpending ⟨waiting, kind, none⟩ rfl
      · cases hscan

theorem InWords.le_of_number? (h : InWords given) (hnumber : number? given name = some value) :
    value ≤ Word.max := by
  unfold number? at hnumber
  split at hnumber
  · next found hlookup =>
    obtain rfl := Option.some.inj hnumber
    obtain ⟨before, rest, hsplit, -⟩ := List.lookup_eq_some_iff.mp hlookup
    exact h name found (by simp [hsplit])
  · cases hnumber

theorem isWord_runFlags : ∀ flag ∈ runFlags, flag.2.IsWord := by decide

/-- Both ends of a range on the command line fit in a word. -/
theorem words_of_parse {arguments : List String} {start last : Nat} {options : RunOptions}
    (h : parse arguments = .ok (.fetch start last options)) :
    start ≤ Word.max ∧ last ≤ Word.max := by
  have hflags : ∀ flag ∈ ("start", .number Word.max) :: ("end", .number Word.max) :: runFlags,
      FlagKind.IsWord flag.2 :=
    List.forall_mem_cons.mpr ⟨Nat.le_refl _, List.forall_mem_cons.mpr
      ⟨Nat.le_refl _, isWord_runFlags⟩⟩
  have hrequired {number : Option Nat} {value : Nat} (h : required number = .ok value) :
      number = some value := by
    cases number with
    | none => cases h
    | some found => rw [Except.ok.inj h]
  -- both numbers of a fetch are read against the limit of a word
  have hfetch {rest : List String} (h : parseFetch rest = .ok (.fetch start last options)) :
      start ≤ Word.max ∧ last ≤ Word.max := by
    obtain ⟨given, hscan, h⟩ := exists_of_bind_eq_ok h
    obtain ⟨first, hfirst, h⟩ := exists_of_bind_eq_ok h
    obtain ⟨final, hfinal, h⟩ := exists_of_bind_eq_ok h
    have hwords := scan_inWords hflags (fun _ _ hmem => by cases hmem) (fun _ hmem => by cases hmem)
      hscan
    cases h
    exact ⟨hwords.le_of_number? (hrequired hfirst), hwords.le_of_number? (hrequired hfinal)⟩
  -- no other command is a fetch
  unfold parse at h
  split at h
  · cases h
  split at h
  · exact hfetch h
  split at h
  · obtain ⟨given, -, h⟩ := exists_of_bind_eq_ok h
    obtain ⟨file, -, h⟩ := exists_of_bind_eq_ok h
    cases h
  split at h
  · obtain ⟨given, -, h⟩ := exists_of_bind_eq_ok h
    obtain ⟨slot, -, h⟩ := exists_of_bind_eq_ok h
    cases h
  split at h
  · cases h
  · cases h

end CommandLine

/-! ### Slots in a file -/

namespace FailureFile

variable {path : String} {number : Nat} {lines : List (List Glyph)} {slots : List Nat}

/-- A number on a line fits in a word. -/
theorem le_of_lineOf {line : List Glyph} {slot : Nat} (h : lineOf line = .slot slot) :
    slot ≤ Word.max := by
  unfold lineOf lineOfChars at h
  split at h
  · dsimp only at h
    split at h
    · cases h
    split at h
    · next hread =>
      obtain rfl := Line.slot.inj h
      exact (Text.readIntegerChars_eq_ok.mp hread).2
    · cases h
  · cases h

/-- All slots of a file fit in a word. -/
theorem words_of_loadLines (h : loadLines path number lines = .ok slots) :
    ∀ slot ∈ slots, slot ≤ Word.max := by
  -- line by line; a comment or an empty line adds no slot
  induction lines generalizing number slots with
  | nil =>
    obtain rfl := Except.ok.inj h
    exact nofun
  | cons line rest ih =>
    rw [loadLines] at h
    split at h
    · cases h
    · cases h
    · exact ih h
    · next slot hline =>
      obtain ⟨more, hmore, rfl⟩ := exists_of_map_eq_ok h
      exact List.forall_mem_cons.mpr ⟨le_of_lineOf hline, ih hmore⟩

end FailureFile

/-! ### Errands -/

theorem SlotRange.eq_of_ofBounds {first last : Nat} {bounds : SlotRange}
    (h : ofBounds first last = .ok bounds) : bounds = ⟨first, last⟩ := by
  unfold ofBounds at h
  split at h
  · cases h
  split at h
  · cases h
  · exact (Except.ok.inj h).symm

/-- The slots that are asked for. -/
def Target.asked : Target → List Nat
  | .range bounds => bounds.slots
  | .slots listed => listed

/-- What a run can be about: a range between two words that is accepted, or words, and at least
one. -/
inductive Target.Accepted : Target → Prop
  | range {first last : Nat} {bounds : SlotRange} (hlast : last ≤ Word.max)
    (hbounds : SlotRange.ofBounds first last = .ok bounds) : Accepted (.range bounds)
  | slots {listed : List Nat} (hne : listed ≠ []) (hwords : ∀ slot ∈ listed, slot ≤ Word.max) :
    Accepted (.slots listed)

namespace Target.Accepted

variable {target : Target}

theorem asked_ne_nil (h : target.Accepted) : target.asked ≠ [] := by
  cases h with
  | slots hne => exact hne
  | range hlast hbounds =>
    obtain ⟨hle, -⟩ := RunSetup.bounds_of_ofBounds hlast hbounds
    exact List.ne_nil_of_mem (SlotRange.mem_slots.mpr ⟨Nat.le_refl _, hle⟩)

/-- Only words are asked for. -/
theorem words (h : target.Accepted) : ∀ slot ∈ target.asked, slot ≤ Word.max := by
  cases h with
  | slots _ hwords => exact hwords
  | @range first last bounds hlast hbounds =>
    intro slot hslot
    obtain rfl := SlotRange.eq_of_ofBounds hbounds
    exact Nat.le_trans (SlotRange.mem_slots.mp hslot).2 hlast

/-- **An engine makes such a run**, if the list that it is about can be counted. -/
theorem asks (h : target.Accepted)
    (hlisted : ∀ listed, target = .slots listed → listed.length ≤ Word.max) (settings : Settings)
    (startedAt : Int) : (target.setup settings startedAt).Asks target.asked := by
  cases h with
  | range hlast hbounds => exact .overRange settings _ startedAt hlast hbounds
  | slots => exact .overSlots settings _ startedAt (hlisted _ rfl)

end Target.Accepted

namespace Errand

variable {arguments : List String} {command : Command} {env : Environment} {files : FileTree}
  {settings : Settings} {target : Target} {dir : String}

theorem target_of_ofOptions {options : RunOptions} {other : Target}
    (h : ofOptions options env other = .run settings target dir) : target = other := by
  unfold ofOptions at h
  split at h <;> cases h
  rfl

/-- **An errand that is a run asks for words, and for at least one.** -/
theorem accepted_of_run (hparse : CommandLine.parse arguments = .ok command)
    (herrand : ofCommand command env files = .run settings target dir) : target.Accepted := by
  unfold ofCommand at herrand
  split at herrand
  · cases herrand
  · cases herrand
  next env _ hvalid =>
  -- for a fetch the validation has seen the bounds; for a replay the reader has seen every slot
  cases command with
  | fetch start last options =>
    obtain rfl := target_of_ofOptions herrand
    obtain ⟨-, hlast⟩ := CommandLine.words_of_parse hparse
    simp only [Command.validate] at hvalid
    cases hbounds : SlotRange.ofBounds start last with
    | error error =>
      rw [hbounds] at hvalid
      cases hvalid
    | ok bounds =>
      rw [← SlotRange.eq_of_ofBounds hbounds]
      exact .range hlast hbounds
  | replay file options =>
    change ofFile file options env files = _ at herrand
    unfold ofFile at herrand
    split at herrand
    · cases herrand
    · cases herrand
    · next slots hne hload =>
      obtain rfl := target_of_ofOptions herrand
      refine .slots hne ?_
      unfold load at hload
      split at hload
      · exact FailureFile.words_of_loadLines hload
      · cases hload
  | block slot summary url logLevel =>
    simp only [ofValid] at herrand
    split at herrand <;> cases herrand

end Errand

end Backfill
