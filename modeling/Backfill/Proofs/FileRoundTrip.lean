import Backfill.Ledger.File
import Backfill.Proofs.CalendarTexts
import Backfill.Proofs.EnginePlans
import Backfill.Proofs.LedgerTotals
import Backfill.Proofs.Utf8RoundTrip

/-!
# What is written to a failure file is read back

The writer of a failure file puts a header of eight lines in front of the failed slots; the reader
knows nothing of this header, and takes any line for a comment that starts with its mark.  What
they agree about is said here line by line: no line that is written holds a line break, so the
reader finds the same lines; it skips those of the header; and the digits of a slot are read as
that slot.  The numbers in the header are worked out from the spans, and are those of the lines
below it.

## Main definitions

* `Text.IsUnbroken` — a text without a line break.
* `FailureFile.slotLines` — the slots that the lines of a file say.
* `FailureFile.ListsReasons` — a file lists how many slots have failed for which reason.
* `FailureFile.Tells` — a file holds the slots of a ledger, and its header is right about them.
* `RunSetup.Replays` — a run is about the slots of a ledger and no others.

## Main results

* `FailureFile.lines_ofString` — the lines of a text are the lines that it was made of.
* `FailureFile.tells_text` — the header is skipped, and every other line says a slot.
* `FailureFile.written_file_replays` — **a file that was written is read as the failed slots of its
  ledger, and a run over them is about exactly these slots.**
-/

namespace Backfill

namespace Text

/-! ### Text without line breaks -/

/-- A text without a line break. -/
def IsUnbroken (text : String) : Prop := ∀ c ∈ text.toList, c ≠ '\n' ∧ c ≠ '\r'

instance (text : String) : Decidable (IsUnbroken text) :=
  List.decidableBAll (fun c => c ≠ '\n' ∧ c ≠ '\r') text.toList

@[simp] theorem isUnbroken_append {left right : String} :
    IsUnbroken (left ++ right) ↔ IsUnbroken left ∧ IsUnbroken right := by
  simp only [IsUnbroken, String.toList_append, List.forall_mem_append]

theorem ne_break_of_isDigit {c : Char} (h : c.isDigit) : c ≠ '\n' ∧ c ≠ '\r' := by
  constructor <;> (rintro rfl; simp [Char.isDigit] at h)

@[simp] theorem isUnbroken_repr (n : Nat) : IsUnbroken n.repr := by
  intro c hc
  rw [Nat.toList_repr] at hc
  exact ne_break_of_isDigit (isDigit_of_mem_toDigits hc)

@[simp] theorem isUnbroken_writeInteger (n : Nat) : IsUnbroken (writeInteger n) := by
  intro c hc
  rw [writeInteger, String.toList_ofList] at hc
  exact ne_break_of_isDigit (isDigit_of_mem_toDigits hc)

@[simp] theorem isUnbroken_writePadded (width n : Nat) : IsUnbroken (writePadded width n) := by
  intro c hc
  exact ne_break_of_isDigit (isDigit_of_mem_writePadded hc)

/-- Unbroken texts are unbroken one after the other, with an unbroken separator. -/
theorem isUnbroken_intercalate {separator : String} {texts : List String}
    (hseparator : IsUnbroken separator) (htexts : ∀ text ∈ texts, IsUnbroken text) :
    IsUnbroken (separator.intercalate texts) := by
  induction texts with
  | nil => simp [IsUnbroken]
  | cons text rest ih =>
    obtain ⟨htext, hrest⟩ := List.forall_mem_cons.mp htexts
    cases rest with
    | nil => rwa [String.intercalate_singleton]
    | cons next rest =>
      rw [String.intercalate_cons_cons, isUnbroken_append, isUnbroken_append]
      exact ⟨⟨htext, hseparator⟩, ih hrest⟩

end Text

@[simp] theorem Calendar.isUnbroken_yearText (year : Int) :
    Text.IsUnbroken (yearText year) := by
  intro c hc
  constructor <;> rintro rfl
  · exact not_mem_yearText (by decide) (by decide) (by decide) year hc
  · exact not_mem_yearText (by decide) (by decide) (by decide) year hc

@[simp] theorem Calendar.isUnbroken_readable (moment : Moment) :
    Text.IsUnbroken moment.readable := by
  simp only [Moment.readable, Text.isUnbroken_append, isUnbroken_yearText,
    Text.isUnbroken_writePadded, true_and, and_true]
  decide

@[simp] theorem Ledger.isUnbroken_reasonCounts (ledger : Ledger) :
    Text.IsUnbroken (ledger.reasonCounts.render " ") := by
  refine Text.isUnbroken_intercalate (by decide) fun text htext => ?_
  obtain ⟨count, hcount, rfl⟩ := List.mem_map.mp htext
  obtain ⟨reason, hreason⟩ := exists_label_of_mem hcount
  have hlabel : Text.IsUnbroken reason.label := by
    cases reason <;> simp only [FailureReason.label] <;> decide
  have hequals : Text.IsUnbroken "=" := by decide
  simpa [toString, hreason, hlabel] using hequals

namespace FailureFile

open Text

/-! ### Lines -/

theorem linesFrom_append {glyphs : List Glyph} (h : some '\n' ∉ glyphs)
    (line rest : List Glyph) :
    linesFrom line (glyphs ++ rest) = linesFrom (glyphs.reverse ++ line) rest := by
  induction glyphs generalizing line with
  | nil => rfl
  | cons glyph glyphs ih =>
    rw [List.mem_cons, not_or] at h
    rw [List.cons_append, linesFrom, if_neg (Ne.symm h.1), ih h.2, List.reverse_cons,
      List.append_assoc]
    rfl

theorem dropReturn_ofString {text : String} (h : IsUnbroken text) :
    dropReturn (Glyph.ofString text) = Glyph.ofString text := by
  refine if_neg fun hlast => ?_
  obtain ⟨c, hc, heq⟩ := List.mem_map.mp (List.mem_of_getLast? hlast)
  exact (h c hc).2 (Option.some.inj heq)

/-- **The lines of a text are the lines that it was made of**, if none of them is broken. -/
theorem lines_ofString {texts : List String} (h : ∀ text ∈ texts, IsUnbroken text) :
    lines (Glyph.ofString (String.join (texts.map (· ++ "\n")))) = texts.map Glyph.ofString := by
  -- One line at a time: a text without line feeds is read up to the feed that was put behind it.
  induction texts with
  | nil => rfl
  | cons text rest ih =>
    obtain ⟨htext, hrest⟩ := List.forall_mem_cons.mp h
    have hfeed : some '\n' ∉ Glyph.ofString text := fun hmem => by
      obtain ⟨c, hc, heq⟩ := List.mem_map.mp hmem
      exact (htext c hc).1 (Option.some.inj heq)
    have hglyphs : Glyph.ofString (String.join ((text :: rest).map (· ++ "\n"))) =
        Glyph.ofString text ++
          some '\n' :: Glyph.ofString (String.join (rest.map (· ++ "\n"))) := by
      simp [Glyph.ofString]
    rw [hglyphs, lines, linesFrom_append hfeed, linesFrom, if_pos rfl,
      List.append_nil, List.reverse_reverse, List.map_cons, ← ih hrest]
    congr 1
    exact dropReturn_ofString htext

/-! ### What the lines say -/

theorem lineOf_comment {text : String} (h : text.toList.head? = some '#') :
    lineOf (Glyph.ofString text) = .skipped := by
  obtain ⟨rest, hrest⟩ := List.head?_eq_some_iff.mp h
  obtain ⟨kept, hkept⟩ := exists_trimChars_eq_cons (c := '#') rfl rest
  simp [lineOf, lineOfChars, hrest, hkept]

theorem lineOf_writeInteger {slot : Nat} (h : slot ≤ Word.max) :
    lineOf (Glyph.ofString (writeInteger slot)) = .slot slot := by
  have hhead : ¬((Nat.toDigits 10 slot).isEmpty ∨
      (Nat.toDigits 10 slot).head? = some '#') := by
    rintro (hempty | hmark)
    · exact Nat.toDigits_ne_nil (List.isEmpty_iff.mp hempty)
    · exact absurd (isDigit_of_mem_toDigits (List.mem_of_mem_head? hmark)) (by decide)
  simp only [lineOf, Glyph.chars?_ofString, writeInteger, String.toList_ofList, lineOfChars,
    trimChars_toDigits, if_neg hhead, readIntegerChars_toDigits h]

theorem lineOf_header (ledger : Ledger) (run : RunMeta) (now : String) :
    ∀ text ∈ header ledger run now, lineOf (Glyph.ofString text) = .skipped := by
  intro text htext
  refine lineOf_comment ?_
  simp only [header, separator, List.mem_cons, List.not_mem_nil, or_false] at htext
  rcases htext with rfl | rfl | rfl | rfl | rfl | rfl | rfl | rfl <;> simp [toString]

/-- No line of a file is broken. -/
theorem isUnbroken_fileLines (ledger : Ledger) (run : RunMeta) {now : String}
    (hnow : IsUnbroken now) : ∀ text ∈ fileLines ledger run now, IsUnbroken text := by
  have hlabel : IsUnbroken run.label.text := by cases run.label <;> decide
  have hheader : ∀ text ∈ header ledger run now, IsUnbroken text := by
    simp only [header, separator, List.forall_mem_cons, toString, isUnbroken_append,
      isUnbroken_repr, Calendar.isUnbroken_readable, Ledger.isUnbroken_reasonCounts, hlabel, hnow,
      and_true]
    decide
  intro text htext
  rcases List.mem_append.mp htext with hline | hline
  · exact hheader text hline
  · obtain ⟨slot, -, rfl⟩ := List.mem_map.mp hline
    exact isUnbroken_writeInteger slot

/-! ### A file that was written -/

/-- The slot that a line says. -/
def Line.slot? : Line → Option Nat
  | .slot found => some found
  | _ => none

/-- The slots that the lines of a file say, in file order. -/
def slotLines (content : List Glyph) : List Nat :=
  (lines content).filterMap fun line => (lineOf line).slot?

/-- Lines that are skipped say nothing, and the others say their slots. -/
theorem loadLines_eq {path : String} {skipped slots : List (List Glyph)} {said : List Nat}
    (hskipped : ∀ line ∈ skipped, lineOf line = .skipped)
    (hslots : slots.map lineOf = said.map .slot) (number : Nat) :
    loadLines path number (skipped ++ slots) = .ok said := by
  -- The header is passed over first, and then there are only slots.
  induction skipped generalizing number with
  | nil =>
    induction said generalizing slots number with
    | nil =>
      obtain rfl := List.map_eq_nil_iff.mp hslots
      rfl
    | cons slot said ih =>
      obtain ⟨line, rest, rfl, hline, hrest⟩ := List.map_eq_cons_iff.mp hslots
      have hread := ih hrest (number + 1)
      rw [List.nil_append] at hread ⊢
      rw [loadLines_slot hline, hread]
      rfl
  | cons line rest ih =>
    obtain ⟨hline, hrest⟩ := List.forall_mem_cons.mp hskipped
    rw [List.cons_append, loadLines_skipped hline]
    exact ih hrest (number + 1)

/-- The line about the reasons holds these entries, and they are right about the slots below it. -/
structure ListsReasons (ledger : Ledger) (content : List Glyph) (entries : List (String × Nat)) :
    Prop where
  /-- The entries stand between blanks: a label, an equals sign and the digits of a number. -/
  line : (lines content)[6]? = some (Glyph.ofString ("# reasons: " ++
    " ".intercalate (entries.map fun entry => entry.1 ++ "=" ++ toString entry.2)))
  /-- The numbers sum to the number of lines that say a slot. -/
  sum : (entries.map Prod.snd).sum = (slotLines content).length
  /-- The labels are in order, each listed once. -/
  ascending : entries.Pairwise fun first second => first.1 < second.1
  /-- Every number is that of the slots that have failed for a reason with the label. -/
  number : ∀ entry ∈ entries, 0 < entry.2 ∧
    entry.2 = ledger.entries.countP fun failed => failed.2.label = entry.1

/-- A file holds the slots of a ledger, in ascending order and each once, and its header is right
about them. -/
structure Tells (ledger : Ledger) (content : List Glyph) : Prop where
  /-- The eight lines of the header are skipped, and every other line says a slot. -/
  lines : (lines content).map lineOf = List.replicate 8 .skipped ++ ledger.slots.map .slot
  /-- Wherever the file is, it is read as the slots of the ledger. -/
  load : ∀ path, load path content = .ok ledger.slots
  ascending : ledger.slots.Pairwise (· < ·)
  slotLines : slotLines content = ledger.slots
  total : (FailureFile.lines content)[5]? =
    some (Glyph.ofString s!"# total_failures: {(FailureFile.slotLines content).length}")
  reasons : ListsReasons ledger content ledger.reasonCounts

theorem lines_text (ledger : Ledger) (run : RunMeta) {now : String} (hnow : IsUnbroken now) :
    lines (Glyph.ofString (text ledger run now)) =
      (header ledger run now).map Glyph.ofString ++
        (ledger.slots.map writeInteger).map Glyph.ofString := by
  rw [text, lines_ofString (isUnbroken_fileLines ledger run hnow), fileLines, List.map_append]

theorem lineOf_of_mem_header {ledger : Ledger} {run : RunMeta} {now : String} {line : List Glyph}
    (hline : line ∈ (header ledger run now).map Glyph.ofString) : lineOf line = .skipped := by
  obtain ⟨written, hwritten, rfl⟩ := List.mem_map.mp hline
  exact lineOf_header ledger run now written hwritten

theorem map_lineOf_slots {slots : List Nat} (h : ∀ slot ∈ slots, slot ≤ Word.max) :
    ((slots.map writeInteger).map Glyph.ofString).map lineOf = slots.map .slot := by
  rw [List.map_map, List.map_map]
  exact List.map_congr_left fun slot hslot => lineOf_writeInteger (h slot hslot)

/-- What the lines say decides which slots they say. -/
theorem slotLines_eq {content : List Glyph} {skipped : Nat} {slots : List Nat}
    (h : (lines content).map lineOf = List.replicate skipped .skipped ++ slots.map .slot) :
    slotLines content = slots := by
  have hcomp : slotLines content = ((lines content).map lineOf).filterMap Line.slot? := by
    rw [List.filterMap_map]
    rfl
  have hnone : (List.replicate skipped Line.skipped).filterMap Line.slot? = [] :=
    List.filterMap_eq_nil_iff.mpr fun line hline => by rw [List.eq_of_mem_replicate hline]; rfl
  have hsome : (slots.map Line.slot).filterMap Line.slot? = slots := by
    rw [List.filterMap_map]
    exact List.filterMap_some
  rw [hcomp, h, List.filterMap_append, hnone, hsome, List.nil_append]

/-- **A file that was written tells the slots of its ledger.** -/
theorem tells_text {ledger : Ledger} (hordered : ledger.Ordered)
    (hwords : ∀ slot ∈ ledger.slots, slot ≤ Word.max) (hlength : ledger.slots.length ≤ Word.max)
    (run : RunMeta) {now : String} (hnow : IsUnbroken now) :
    Tells ledger (Glyph.ofString (text ledger run now)) := by
  have hlines := lines_text ledger run hnow
  have hslots := map_lineOf_slots hwords
  have hskipped : ∀ line ∈ (header ledger run now).map Glyph.ofString, lineOf line = .skipped :=
    fun _ => lineOf_of_mem_header
  -- The eight lines of the header are comments and a blank one; the lines after them are the slots.
  have hheader : ((header ledger run now).map Glyph.ofString).map lineOf =
      List.replicate 8 .skipped :=
    List.eq_replicate_iff.mpr ⟨by simp [header], by simpa using hskipped⟩
  have hall : (lines (Glyph.ofString (text ledger run now))).map lineOf =
      List.replicate 8 .skipped ++ ledger.slots.map .slot := by
    rw [hlines, List.map_append, hheader, hslots]
  have hsaid := slotLines_eq hall
  obtain ⟨-, hpositive, hsorted⟩ := hordered.reasonCounts?_eq hlength
  refine ⟨hall, fun path => ?_, hordered.pairwise_slots, hsaid, ?_, ?_, ?_, hsorted, ?_⟩
  · rw [load, hlines]
    exact loadLines_eq hskipped hslots 1
  · rw [hlines, hsaid, ← hordered.size_eq hlength]
    rfl
  · rw [hlines]
    rfl
  · rw [hsaid, ← hordered.total_reasonCounts hlength, LabelCounts.total_eq_sum]
  · intro entry hentry
    obtain ⟨hpos, hnumber⟩ := (hsorted.mem_iff hpositive).mp hentry
    exact ⟨hpos, hnumber.trans (hordered.get_reasonCounts hlength entry.1)⟩

end FailureFile

/-! ### A run over the slots of a file -/

/-- The smallest range over a list begins and ends with slots of the list. -/
theorem SlotRange.mem_of_bounding {slots : List Nat} {range : SlotRange}
    (h : bounding slots = some range) :
    range.first ∈ slots ∧ range.last ∈ slots ∧ ∀ slot ∈ slots, range.contains slot := by
  cases slots with
  | nil => simp [bounding] at h
  | cons slot rest =>
    obtain rfl := Option.some.inj h
    have hmin : (slot :: rest).min? = some (rest.foldl min slot) := List.min?_cons'
    have hmax : (slot :: rest).max? = some (rest.foldl max slot) := List.max?_cons'
    obtain ⟨hfirst, hle⟩ := List.min?_eq_some_iff.mp hmin
    obtain ⟨hlast, hge⟩ := List.max?_eq_some_iff.mp hmax
    exact ⟨hfirst, hlast, fun other hother => contains_iff.mpr ⟨hle other hother, hge other hother⟩⟩

/-- A run is about the slots of a ledger and no others: it plans them, announces their number, and
its range is the smallest that covers them. -/
structure RunSetup.Replays (ledger : Ledger) (setup : RunSetup) : Prop where
  planned : (setup.plan.cycles.flatMap (·.batches)).flatMap (·.slots) = ledger.slots
  requested : setup.run.requested = ledger.size
  first : setup.run.range.first ∈ ledger.slots
  last : setup.run.range.last ∈ ledger.slots
  covers : ∀ slot ∈ ledger.slots, setup.run.range.contains slot

/-- **A run over the slots of a ledger replays it**, if there are any. -/
theorem Ledger.Ordered.replays {ledger : Ledger} (h : ledger.Ordered)
    (hlength : ledger.slots.length ≤ Word.max) (hempty : ledger.isEmpty = false)
    (settings : Settings) (hasSink : Bool) (startedAt : Int) :
    (RunSetup.ofSlots settings hasSink ledger.slots startedAt).Replays ledger := by
  have hsound := (RunSetup.Asks.overSlots settings hasSink startedAt hlength).sound
  have hsorted := RunSetup.sorted_eq h.pairwise_slots fun _ => Iff.rfl
  -- A ledger that is not empty has a slot, so there is a range around its slots.
  obtain ⟨slot, hslot⟩ : ∃ slot, slot ∈ ledger.slots := by
    obtain ⟨span, hspan⟩ := List.exists_mem_of_ne_nil ledger.spans
      (by simpa [isEmpty] using hempty)
    refine ⟨span.first, List.mem_flatMap.mpr ⟨span, hspan, ?_⟩⟩
    exact SlotRange.mem_slots.mpr ⟨Nat.le_refl _, h.nonempty span hspan⟩
  obtain ⟨range, hrange⟩ : ∃ range, SlotRange.bounding ledger.slots = some range := by
    cases hslots : ledger.slots with
    | nil => simp [hslots] at hslot
    | cons => exact ⟨_, rfl⟩
  have hbounds := SlotRange.mem_of_bounding hrange
  have hsetup : (RunSetup.ofSlots settings hasSink ledger.slots startedAt).run.range = range := by
    simp [RunSetup.ofSlots, RunSetup.ofPlan, hsorted, hrange]
  refine ⟨?_, ?_, hsetup ▸ hbounds.1, hsetup ▸ hbounds.2.1, hsetup ▸ hbounds.2.2⟩
  · refine hsound.partitions.cycles_slots.trans ?_
    simp [RunSetup.ofSlots, RunSetup.ofPlan, Plan.ofSource, SlotSource.slots, hsorted]
  · rw [h.size_eq hlength]
    simp [RunSetup.ofSlots, RunSetup.ofPlan, hsorted]

namespace FailureFile

/-- **A file that was written is read as the failed slots of its ledger**, each once, in ascending
order and nothing else, and the numbers in its header are those of its lines.  A run over these
slots plans exactly them, announces their number, and has the smallest range that covers them. -/
theorem written_file_replays {calls : List Ledger.Call} (hproper : ∀ call ∈ calls, call.IsProper)
    (hlength : (Ledger.ofCalls calls).slots.length ≤ Word.max) (run : RunMeta) (writtenAt : Int) :
    let ledger := Ledger.ofCalls calls
    let written := text ledger run (Calendar.Moment.ofSeconds writtenAt).readable
    Tells ledger (Glyph.ofBytes written.toUTF8.data.toList) ∧
      (∀ slot, slot ∈ ledger.slots ↔
        ∃ call ∈ calls, call.range.first ≤ slot ∧ slot ≤ call.range.last) ∧
      (ledger.isEmpty = false → ∀ settings hasSink startedAt,
        (RunSetup.ofSlots settings hasSink ledger.slots startedAt).Replays ledger) := by
  intro ledger written
  have hholds := Ledger.holds_ofCalls hproper
  have hcovered : ∀ slot, slot ∈ ledger.slots ↔
      ∃ call ∈ calls, call.range.first ≤ slot ∧ slot ≤ call.range.last := fun slot => by
    rw [hholds.mem_slots, Ledger.isSome_lastReason?]
  -- Every slot comes from a proper call, whose bounds fit into a word.
  have hwords : ∀ slot ∈ ledger.slots, slot ≤ Word.max := fun slot hslot => by
    obtain ⟨call, hcall, -, hle⟩ := (hcovered slot).mp hslot
    exact Nat.le_trans hle (hproper call hcall).2
  refine ⟨?_, hcovered, hholds.ordered.replays hlength⟩
  rw [Glyph.ofBytes_toUTF8]
  exact tells_text hholds.ordered hwords hlength run (Calendar.isUnbroken_readable _)

/-- A range whose middle fails again for another reason, and the largest slot. -/
theorem written_file_replays_largest :
    let calls : List Ledger.Call := [.recordRange ⟨3, 5⟩ .cancelled, .record 4 .notFound,
      .record Word.max (.providerError (-32007) "skipped\n12")]
    let ledger := Ledger.ofCalls calls
    let written := text ledger (RunMeta.mk .fetch ⟨3, Word.max⟩ 7 (-1))
      (Calendar.Moment.ofSeconds 0).readable
    ledger.slots = [3, 4, 5, Word.max] ∧ Tells ledger (Glyph.ofBytes written.toUTF8.data.toList) ∧
      (RunSetup.ofSlots default true ledger.slots 0).Replays ledger := by
  intro calls ledger written
  have hreplays := @written_file_replays calls (by decide) (by decide)
    (RunMeta.mk .fetch ⟨3, Word.max⟩ 7 (-1)) 0
  exact ⟨by decide, hreplays.1, hreplays.2.2 (by decide) default true 0⟩

end FailureFile

end Backfill
