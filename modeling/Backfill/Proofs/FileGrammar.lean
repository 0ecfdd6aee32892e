import Backfill.Proofs.FileRoundTrip
import Backfill.Proofs.TextShapes
import Backfill.Proofs.Utf8Decoding
import Mathlib.Logic.Relation

/-!
# The grammar of failure files

Any bytes may stand where a failure file is looked for.  What they say is told here without the
reader: line feeds cut them into lines, every line is blank, a comment, a number, some other text or
no text at all, and the file says the numbers of its lines if all of them are of the first three
kinds.  The reader goes from line to line and gives up at the first other one, so two files whose
lines differ only in what is skipped, or in the blanks around a number, are read alike.

## Main definitions

* `FailureFile.byteLines` — the lines of a content, in bytes.
* `FailureFile.Says` — what the bytes of a line say.
* `FailureFile.Lists` — lines are blank, comments or numbers, and these are the numbers.
* `FailureFile.Fault`, `FailureFile.FirstFault` — the error that a line, or the first offending line
  of many, gives rise to.
* `FailureFile.Edit` — a change to a content that leaves its numbers as they are.

## Main results

* `FailureFile.lines_ofBytes` — the lines may be cut before the bytes are read as text.
* `FailureFile.says_iff` — what the bytes of a line say is what the reader makes of them.
* `FailureFile.lists_iff_of_edits` — edits keep the numbers.
* `FailureFile.load_follows_grammar` — **a file is read as its numbers if all its lines are blank,
  comments or numbers, and else refused because of the first other line.**
-/

namespace Backfill

namespace FailureFile

open Text

/-! ### Lines of bytes -/

/-- The byte that ends a line. -/
def feed : UInt8 := 0x0A

/-- The byte that may stand in front of it. -/
def carriage : UInt8 := 0x0D

/-- The line without a carriage return at its end. -/
def dropCarriage (line : List UInt8) : List UInt8 :=
  if line.getLast? = some carriage then line.dropLast else line

/-- The lines of a content: what the line feeds separate.  A line in front of a line feed loses a
carriage return at its end, and if nothing follows the last line feed, this is no line. -/
def byteLines (bytes : List UInt8) : List (List UInt8) :=
  let parts := bytes.splitOn feed
  let last := parts.getLastD []
  parts.dropLast.map dropCarriage ++ if last.isEmpty then [] else [last]

variable {bytes line rest before after : List UInt8}

theorem byteLines_of_not_mem (h : feed ∉ line) :
    byteLines line = if line.isEmpty then [] else [line] := by
  rw [byteLines, List.splitOn_eq_singleton h]
  rfl

theorem byteLines_append (h : feed ∉ line) (rest : List UInt8) :
    byteLines (line ++ feed :: rest) = dropCarriage line :: byteLines rest := by
  rw [byteLines, List.splitOn_append_cons_self_of_not_mem h, byteLines]
  obtain ⟨part, parts, hparts⟩ := List.exists_cons_of_ne_nil (List.splitOn_ne_nil feed rest)
  rw [hparts]
  rfl

/-- A content is a line without an end, or a line with its end and a content behind it. -/
@[elab_as_elim]
theorem byLines_induction {motive : List UInt8 → Prop}
    (last : ∀ line, feed ∉ line → motive line)
    (more : ∀ line rest, feed ∉ line → motive rest → motive (line ++ feed :: rest)) :
    ∀ bytes, motive bytes := by
  intro bytes
  induction hsize : bytes.length using Nat.strong_induction_on generalizing bytes with
  | _ size ih =>
    by_cases hfeed : feed ∈ bytes
    · obtain ⟨line, rest, rfl, hline⟩ := List.eq_append_cons_of_mem hfeed
      refine more line rest hline (ih rest.length ?_ rest rfl)
      rw [← hsize, List.length_append, List.length_cons]
      omega
    · exact last bytes hfeed

theorem not_mem_ofBytes (h : feed ∉ line) : some '\n' ∉ Glyph.ofBytes line := fun hmem =>
  h (Glyph.mem_of_mem_ofBytes hmem (List.mem_singleton.mpr rfl))

theorem ofBytes_feed (line rest : List UInt8) :
    Glyph.ofBytes (line ++ feed :: rest) =
      Glyph.ofBytes line ++ some '\n' :: Glyph.ofBytes rest := by
  rw [Glyph.ofBytes_append (by decide), Glyph.ofBytes_of_some (c := '\n') rfl]
  rfl

theorem ofBytes_carriage (line : List UInt8) :
    Glyph.ofBytes (line ++ [carriage]) = Glyph.ofBytes line ++ [some '\r'] := by
  rw [Glyph.ofBytes_append (by decide), Glyph.ofBytes_of_some (c := '\r') rfl, List.drop_nil,
    Glyph.ofBytes]

theorem dropReturn_ofBytes (line : List UInt8) :
    dropReturn (Glyph.ofBytes line) = Glyph.ofBytes (dropCarriage line) := by
  unfold dropReturn dropCarriage
  by_cases hlast : line.getLast? = some carriage
  · obtain ⟨front, rfl⟩ := List.getLast?_eq_some_iff.mp hlast
    rw [if_pos hlast, ofBytes_carriage, if_pos List.getLast?_concat, List.dropLast_concat,
      List.dropLast_concat]
  · rw [if_neg hlast, if_neg]
    intro hreturn
    obtain ⟨front, rfl⟩ := Glyph.exists_eq_append_of_getLast? hreturn
    exact hlast List.getLast?_concat

/-- **The lines may be cut before the bytes are read as text.** -/
theorem lines_ofBytes (bytes : List UInt8) :
    lines (Glyph.ofBytes bytes) = (byteLines bytes).map Glyph.ofBytes := by
  induction bytes using byLines_induction with
  | last line hline =>
    have hglyphs := linesFrom_append (not_mem_ofBytes hline) [] []
    rw [List.append_nil, List.append_nil] at hglyphs
    rw [lines, hglyphs, byteLines_of_not_mem hline, linesFrom, List.reverse_reverse]
    -- Text that ends in a line feed has no empty line after it; that is where they could differ.
    cases line with
    | nil => simp [Glyph.ofBytes]
    | cons byte line =>
      have hne : Glyph.ofBytes (byte :: line) ≠ [] := fun hnil => by
        cases Glyph.ofBytes_eq_nil hnil
      rw [if_neg (by simpa using hne)]
      rfl
  | more line rest hline ih =>
    rw [ofBytes_feed, lines, linesFrom_append (not_mem_ofBytes hline), linesFrom, if_pos rfl,
      List.append_nil, List.reverse_reverse, dropReturn_ofBytes, byteLines_append hline,
      List.map_cons, ← ih, lines]

/-! ### What a line says -/

/-- The bytes are these characters, in UTF-8. -/
def IsText (bytes : List UInt8) (chars : List Char) : Prop :=
  bytes = chars.flatMap String.utf8EncodeChar

/-- What the bytes of a line say. -/
inductive Says (line : List UInt8) : Line → Prop
  /-- There are only blanks. -/
  | blank {chars : List Char} (htext : IsText line chars) (htrim : Trims chars []) :
    Says line .skipped
  /-- The first character that is no blank is the mark of a comment. -/
  | comment {chars note : List Char} (htext : IsText line chars)
    (htrim : Trims chars ('#' :: note)) : Says line .skipped
  /-- There is a number that fits in a word, with blanks around it. -/
  | slot {chars content : List Char} {slot : Nat} (htext : IsText line chars)
    (htrim : Trims chars content) (hnumeral : Numeral content slot) (hle : slot ≤ Word.max) :
    Says line (.slot slot)
  /-- There is some other text. -/
  | odd {chars content : List Char} (htext : IsText line chars) (htrim : Trims chars content)
    (hne : content ≠ []) (hmark : content.head? ≠ some '#')
    (hnumber : ∀ slot ≤ Word.max, ¬Numeral content slot) : Says line (.odd (String.ofList content))
  /-- There is no text. -/
  | broken (h : ∀ chars, ¬IsText line chars) : Says line .broken

/-- What the reader makes of the bytes of a line. -/
def said (line : List UInt8) : Line := lineOf (Glyph.ofBytes line)

theorem said_of_isText {chars : List Char} (h : IsText line chars) :
    said line = lineOfChars chars := by
  rw [said, Glyph.ofBytes_eq_map_some.mpr h, lineOf, Glyph.chars?_map_some]

theorem not_skipped_of_numeral {content : List Char} {n : Nat} (h : Numeral content n) :
    ¬(content.isEmpty ∨ content.head? = some '#') := by
  rintro (hempty | hmark)
  · obtain rfl := List.isEmpty_iff.mp hempty
    cases h
    contradiction
  · obtain ⟨rest, rfl⟩ := List.head?_eq_some_iff.mp hmark
    cases h with
    | plain _ hdigits => exact absurd (hdigits '#' List.mem_cons_self) (by decide)

/-- What the bytes of a line say is what the reader makes of them. -/
theorem Says.said_eq {saying : Line} (h : Says line saying) : said line = saying := by
  cases h with
  | blank htext htrim =>
    rw [said_of_isText htext, lineOfChars, htrim.trimChars_eq]
    rfl
  | comment htext htrim =>
    rw [said_of_isText htext, lineOfChars, htrim.trimChars_eq]
    rfl
  | slot htext htrim hnumeral hle =>
    simp only [said_of_isText htext, lineOfChars, htrim.trimChars_eq,
      if_neg (not_skipped_of_numeral hnumeral), readIntegerChars_eq_ok.mpr ⟨hnumeral, hle⟩]
  | odd htext htrim hne hmark hnumber =>
    rename_i chars content
    simp only [said_of_isText htext, lineOfChars, htrim.trimChars_eq]
    rw [if_neg (not_or.mpr ⟨by simpa using hne, hmark⟩)]
    -- Reading the content as a number would make it a numeral, which an odd line excludes.
    split
    · next hread =>
      obtain ⟨hnumeral, hle⟩ := readIntegerChars_eq_ok.mp hread
      exact absurd hnumeral (hnumber _ hle)
    · rfl
  | broken hnot =>
    rw [said, lineOf]
    split
    · next chars hchars =>
      exact absurd (Glyph.ofBytes_eq_map_some.mp (Glyph.chars?_eq_some.mp hchars)) (hnot chars)
    · rfl

/-- Every line says something. -/
theorem says_said (line : List UInt8) : Says line (said line) := by
  -- The cases are the reader's own: no text, nothing or a comment when trimmed, a number, the rest.
  by_cases htext : ∃ chars, IsText line chars
  · obtain ⟨chars, htext⟩ := htext
    have htrim := trims_trimChars chars
    rw [said_of_isText htext, lineOfChars]
    split
    · next hskipped =>
      rcases hskipped with hempty | hmark
      · rw [List.isEmpty_iff.mp hempty] at htrim
        exact .blank htext htrim
      · obtain ⟨note, hnote⟩ := List.head?_eq_some_iff.mp hmark
        rw [hnote] at htrim
        exact .comment htext htrim
    · next hkept =>
      obtain ⟨hne, hmark⟩ := not_or.mp hkept
      split
      · next hread =>
        obtain ⟨hnumeral, hle⟩ := readIntegerChars_eq_ok.mp hread
        exact .slot htext htrim hnumeral hle
      · next hread =>
        refine .odd htext htrim (by simpa using hne) hmark fun slot hle hnumeral => ?_
        cases hread.symm.trans (readIntegerChars_eq_ok.mpr ⟨hnumeral, hle⟩)
  · have hbroken := Says.broken fun chars h => htext ⟨chars, h⟩
    rwa [hbroken.said_eq]

/-- **What the bytes of a line say is what the reader makes of them.** -/
theorem says_iff {saying : Line} : Says line saying ↔ said line = saying :=
  ⟨Says.said_eq, fun h => h ▸ says_said line⟩

/-! ### What the lines say -/

/-- Every line is blank, a comment or a number, and these are the numbers in the order of the
lines. -/
inductive Lists : List (List UInt8) → List Nat → Prop
  | nil : Lists [] []
  | skipped {line : List UInt8} {lines : List (List UInt8)} {slots : List Nat}
    (hline : Says line .skipped) (hrest : Lists lines slots) : Lists (line :: lines) slots
  | slot {line : List UInt8} {lines : List (List UInt8)} {slot : Nat} {slots : List Nat}
    (hline : Says line (.slot slot)) (hrest : Lists lines slots) :
    Lists (line :: lines) (slot :: slots)

/-- The error that the line with this number gives rise to. -/
inductive Fault (path : String) (number : Nat) (line : List UInt8) : FileError → Prop
  | broken (hline : Says line .broken) : Fault path number line (.io path brokenLine)
  | odd {content : String} (hline : Says line (.odd content)) :
    Fault path number line (.parse path number content)

/-- The error that the first offending line gives rise to: all lines before it are blank, comments or
numbers. -/
def FirstFault (path : String) (lines : List (List UInt8)) (error : FileError) : Prop :=
  ∃ before line after slots, lines = before ++ line :: after ∧ Lists before slots ∧
    Fault path (before.length + 1) line error

variable {path : String} {lines others : List (List UInt8)} {slots : List Nat} {error : FileError}

/-- The lines that are read first put their numbers in front. -/
theorem Lists.loadLines_append (h : Lists lines slots) (number : Nat)
    (rest : List (List UInt8)) :
    loadLines path number ((lines ++ rest).map Glyph.ofBytes) =
      (loadLines path (number + lines.length) (rest.map Glyph.ofBytes)).map (slots ++ ·) := by
  -- Every line read moves the number on, so the induction is over all numbers to start from.
  induction h generalizing number with
  | nil =>
    rw [List.nil_append, List.length_nil, Nat.add_zero]
    cases loadLines path number (rest.map Glyph.ofBytes) <;> rfl
  | skipped hline _ ih =>
    rw [List.cons_append, List.map_cons, loadLines_skipped hline.said_eq, ih, List.length_cons,
      Nat.add_assoc, Nat.add_comm 1]
  | slot hline _ ih =>
    rw [List.cons_append, List.map_cons, loadLines_slot hline.said_eq, ih, List.length_cons,
      Nat.add_assoc, Nat.add_comm 1]
    cases loadLines path _ (rest.map Glyph.ofBytes) <;> rfl

theorem FirstFault.loadLines_eq (h : FirstFault path lines error) :
    loadLines path 1 (lines.map Glyph.ofBytes) = .error error := by
  obtain ⟨before, line, after, slots, rfl, hbefore, hfault⟩ := h
  rw [hbefore.loadLines_append, List.map_cons, loadLines, Nat.add_comm 1]
  cases hfault with
  | broken hline => rw [show lineOf _ = _ from hline.said_eq]; rfl
  | odd hline => rw [show lineOf _ = _ from hline.said_eq]; rfl

theorem Lists.append {more : List Nat} (h : Lists lines slots) (hmore : Lists others more) :
    Lists (lines ++ others) (slots ++ more) := by
  induction h with
  | nil => exact hmore
  | skipped hline _ ih => exact .skipped hline ih
  | slot hline _ ih => exact .slot hline ih

/-- Either all lines are blank, comments or numbers, or there is a first offending one. -/
theorem exists_lists_or_firstFault (path : String) (lines : List (List UInt8)) :
    (∃ slots, Lists lines slots) ∨ ∃ error, FirstFault path lines error := by
  -- By induction from the end: a fault that was found stays the first one when a line follows.
  induction lines using List.reverseRecOn with
  | nil => exact .inl ⟨[], .nil⟩
  | append_singleton lines line ih =>
    rcases ih with ⟨slots, hslots⟩ | ⟨error, before, first, after, slots, rfl, hbefore, hfault⟩
    · have hfirst {error : FileError} (hfault : Fault path (lines.length + 1) line error) :
          FirstFault path (lines ++ [line]) error := ⟨lines, line, [], slots, rfl, hslots, hfault⟩
      cases hsaid : said line with
      | skipped => exact .inl ⟨_, hslots.append (.skipped (says_iff.mpr hsaid) .nil)⟩
      | slot slot => exact .inl ⟨_, hslots.append (.slot (says_iff.mpr hsaid) .nil)⟩
      | odd content => exact .inr ⟨_, hfirst (.odd (says_iff.mpr hsaid))⟩
      | broken => exact .inr ⟨_, hfirst (.broken (says_iff.mpr hsaid))⟩
    · refine .inr ⟨error, before, first, after ++ [line], slots, ?_, hbefore, hfault⟩
      rw [List.append_assoc, List.cons_append]

theorem Lists.loadLines_eq (h : Lists lines slots) :
    loadLines path 1 (lines.map Glyph.ofBytes) = .ok slots := by
  have hload : loadLines path 1 ((lines ++ []).map Glyph.ofBytes) = _ := h.loadLines_append 1 []
  rw [List.append_nil] at hload
  rw [hload]
  exact congrArg Except.ok (List.append_nil slots)

theorem load_eq_ok :
    load path (Glyph.ofBytes bytes) = .ok slots ↔ Lists (byteLines bytes) slots := by
  rw [load, lines_ofBytes]
  refine ⟨fun h => ?_, Lists.loadLines_eq⟩
  rcases exists_lists_or_firstFault path (byteLines bytes) with ⟨found, hfound⟩ | ⟨error, hfault⟩
  · rwa [Except.ok.inj (h.symm.trans hfound.loadLines_eq)]
  · cases h.symm.trans hfault.loadLines_eq

theorem load_eq_error :
    load path (Glyph.ofBytes bytes) = .error error ↔ FirstFault path (byteLines bytes) error := by
  rw [load, lines_ofBytes]
  refine ⟨fun h => ?_, FirstFault.loadLines_eq⟩
  rcases exists_lists_or_firstFault path (byteLines bytes) with ⟨found, hfound⟩ | ⟨other, hfault⟩
  · cases h.symm.trans hfound.loadLines_eq
  · rwa [Except.error.inj (h.symm.trans hfault.loadLines_eq)]

/-! ### Edits -/

/-- What the lines say that are not skipped. -/
def kept (lines : List (List UInt8)) : List Line := (lines.map said).filter (· ≠ .skipped)

/-- The numbers of the lines are all that they say. -/
theorem lists_iff_kept : Lists lines slots ↔ kept lines = slots.map .slot := by
  constructor
  · intro h
    induction h with
    | nil => rfl
    | skipped hline _ ih =>
      rw [kept, List.map_cons, hline.said_eq]
      exact ih
    | slot hline _ ih =>
      rw [kept, List.map_cons, hline.said_eq, List.filter_cons_of_pos (by simp), List.map_cons]
      exact congrArg _ ih
  · intro h
    -- A skipped line leaves the slots as they are; any other line that is kept is the next slot's.
    induction lines generalizing slots with
    | nil =>
      obtain rfl := List.map_eq_nil_iff.mp h.symm
      exact .nil
    | cons line lines ih =>
      rw [kept, List.map_cons] at h
      by_cases hsaid : said line = .skipped
      · rw [List.filter_cons_of_neg (by simp [hsaid])] at h
        exact .skipped (says_iff.mpr hsaid) (ih h)
      · rw [List.filter_cons_of_pos (by simp [hsaid])] at h
        obtain ⟨slot, more, rfl, hline, hmore⟩ := List.map_eq_cons_iff.mp h.symm
        exact .slot (says_iff.mpr hline.symm) (ih hmore.symm)

/-- A line starts behind these bytes. -/
def AtStart (before : List UInt8) : Prop := ∀ byte ∈ before.getLast?, byte = feed

/-- A line ends in front of these bytes. -/
def AtEnd (after : List UInt8) : Prop := ∀ byte ∈ after.head?, byte = feed

/-- A change to a content that leaves its numbers as they are. -/
inductive Edit : List UInt8 → List UInt8 → Prop
  /-- A blank line or a comment is put between two lines, in front of all lines or behind them. -/
  | insert {before line after : List UInt8} (hstart : AtStart before) (hfeed : feed ∉ line)
    (hline : Says line .skipped) : Edit (before ++ after) (before ++ (line ++ feed :: after))
  /-- The last line is ended. -/
  | finish {bytes : List UInt8} (hopen : ¬AtStart bytes) : Edit bytes (bytes ++ [feed])
  /-- The number of a line gets other blanks around it. -/
  | pad {before line padded after : List UInt8} {chars others content : List Char} {n : Nat}
    (hstart : AtStart before) (hend : AtEnd after) (hfeed : feed ∉ line) (hpadded : feed ∉ padded)
    (htext : IsText line chars) (hothers : IsText padded others) (htrim : Trims chars content)
    (htrims : Trims others content) (hnumeral : Numeral content n) :
    Edit (before ++ (line ++ after)) (before ++ (padded ++ after))

theorem atStart_append {more : List UInt8} (hne : more ≠ []) :
    AtStart (line ++ feed :: more) ↔ AtStart more := by
  rw [AtStart, List.getLast?_append, List.getLast?_cons_of_ne_nil hne,
    List.getLast?_eq_some_getLast hne, AtStart, List.getLast?_eq_some_getLast hne]
  rfl

/-- Contents are put together line by line where a line starts. -/
theorem byteLines_append_of_atStart (h : AtStart before) (rest : List UInt8) :
    byteLines (before ++ rest) = byteLines before ++ byteLines rest := by
  induction before using byLines_induction with
  | last line hline =>
    cases hlast : line.getLast? with
    | none =>
      rw [List.getLast?_eq_none_iff.mp hlast]
      rfl
    | some byte =>
      -- A text without a line feed is at the start of a line only if it is empty.
      obtain rfl := h byte hlast
      exact absurd (List.mem_of_getLast? hlast) hline
  | more line more hline ih =>
    have hmore : AtStart more := by
      by_cases hne : more = []
      · subst hne
        exact nofun
      · exact (atStart_append hne).mp h
    rw [List.append_assoc, List.cons_append, byteLines_append hline, byteLines_append hline,
      ih hmore, List.cons_append]

/-- A carriage return at the end of a line says nothing. -/
theorem said_dropCarriage (line : List UInt8) : said (dropCarriage line) = said line := by
  unfold dropCarriage
  split
  · next hlast =>
    obtain ⟨front, rfl⟩ := List.getLast?_eq_some_iff.mp hlast
    rw [List.dropLast_concat, said, said, ofBytes_carriage, lineOf, lineOf, Glyph.chars?,
      Glyph.chars?, List.mapM_append]
    cases hchars : (Glyph.ofBytes front).mapM id with
    | none => rfl
    | some chars =>
      change lineOfChars chars = lineOfChars (chars ++ ['\r'])
      rw [lineOfChars, lineOfChars, trimChars_append (List.forall_mem_singleton.mpr (by decide))]
  · rfl

theorem exists_map_said (h : AtEnd after) : ∃ more, ∀ line, feed ∉ line → line ≠ [] →
    (byteLines (line ++ after)).map said = said line :: more := by
  cases after with
  | nil =>
    refine ⟨[], fun line hline hne => ?_⟩
    rw [List.append_nil, byteLines_of_not_mem hline, if_neg (by simpa using hne)]
    rfl
  | cons byte rest =>
    obtain rfl := h byte rfl
    refine ⟨(byteLines rest).map said, fun line hline _ => ?_⟩
    rw [byteLines_append hline, List.map_cons, said_dropCarriage]

/-- A line that is ended says what it said. -/
theorem map_said_finish (h : ¬AtStart bytes) :
    (byteLines (bytes ++ [feed])).map said = (byteLines bytes).map said := by
  -- Only the last line is touched: a line feed ends it now, and the end of the text did before.
  induction bytes using byLines_induction with
  | last line hline =>
    have hne : line ≠ [] := by
      rintro rfl
      exact h nofun
    rw [byteLines_append hline, byteLines_of_not_mem hline, if_neg (by simpa using hne),
      List.map_cons, said_dropCarriage]
    rfl
  | more line rest hline ih =>
    have hne : rest ≠ [] := by
      rintro rfl
      exact h (by simp [AtStart])
    rw [List.append_assoc, List.cons_append, byteLines_append hline, byteLines_append hline,
      List.map_cons, List.map_cons, ih fun hrest => h ((atStart_append hne).mpr hrest)]

theorem ne_nil_of_numeral {chars content : List Char} {n : Nat} (htext : IsText line chars)
    (htrim : Trims chars content) (hnumeral : Numeral content n) : line ≠ [] := by
  rintro rfl
  have hchars : Glyph.ofBytes [] = chars.map some := Glyph.ofBytes_eq_map_some.mpr htext
  rw [Glyph.ofBytes] at hchars
  obtain rfl := List.map_eq_nil_iff.mp hchars.symm
  obtain rfl : [] = content := htrim.trimChars_eq
  cases hnumeral
  contradiction

/-- An edit adds nothing but lines that are skipped, and blanks around numbers. -/
theorem Edit.kept_eq (h : Edit bytes rest) : kept (byteLines bytes) = kept (byteLines rest) := by
  cases h with
  | insert hstart hfeed hline =>
    have hskip := (said_dropCarriage _).trans hline.said_eq
    simp [kept, byteLines_append_of_atStart hstart, byteLines_append hfeed, hskip]
  | finish hopen => rw [kept, kept, map_said_finish hopen]
  | pad hstart hend hfeed hpadded htext hothers htrim htrims hnumeral =>
    obtain ⟨more, hmore⟩ := exists_map_said hend
    have hsame : said _ = said _ := (said_of_isText htext).trans (.trans
      (by rw [lineOfChars, htrim.trimChars_eq, lineOfChars, htrims.trimChars_eq])
      (said_of_isText hothers).symm)
    rw [kept, kept, byteLines_append_of_atStart hstart, byteLines_append_of_atStart hstart,
      List.map_append, List.map_append, hmore _ hfeed (ne_nil_of_numeral htext htrim hnumeral),
      hmore _ hpadded (ne_nil_of_numeral hothers htrims hnumeral), hsame]

/-- Edits that are made or taken back keep the numbers. -/
theorem lists_iff_of_edits {other : List UInt8} (h : Relation.EqvGen Edit bytes other) :
    Lists (byteLines bytes) slots ↔ Lists (byteLines other) slots := by
  rw [lists_iff_kept, lists_iff_kept]
  have hkept : kept (byteLines bytes) = kept (byteLines other) := by
    induction h with
    | rel _ _ hedit => exact hedit.kept_eq
    | refl => rfl
    | symm _ _ _ ih => exact ih.symm
    | trans _ _ _ _ _ ih ih' => exact ih.trans ih'
  rw [hkept]

/-- **A file is read as its numbers if all its lines are blank, comments or numbers, and else refused
because of the first other line**, which is told with its place among all lines.  Nothing that is
skipped and no blank around a number matters to a file that is read. -/
theorem load_follows_grammar (path : String) (bytes : List UInt8) :
    (∀ slots, load path (Glyph.ofBytes bytes) = .ok slots ↔ Lists (byteLines bytes) slots) ∧
    (∀ error, load path (Glyph.ofBytes bytes) = .error error ↔
      FirstFault path (byteLines bytes) error) ∧
    ∀ other, Relation.EqvGen Edit bytes other → ∀ slots,
      load path (Glyph.ofBytes bytes) = .ok slots ↔ load path (Glyph.ofBytes other) = .ok slots :=
  ⟨fun _ => load_eq_ok, fun _ => load_eq_error, fun _ hedits _ =>
    load_eq_ok.trans ((lists_iff_of_edits hedits).trans load_eq_ok.symm)⟩

/-- A number gets a comment in front of it and blanks around it, and an offending line is counted
with the comment. -/
theorem load_follows_grammar_padded :
    let plain : List UInt8 := [0x37, feed]
    let padded : List UInt8 := [0x23, feed, 0x20, 0x37, carriage, feed]
    let offending : List UInt8 := [0x23, feed, 0x78, feed, 0xFF]
    load "list" (Glyph.ofBytes plain) = .ok [7] ∧ load "list" (Glyph.ofBytes padded) = .ok [7] ∧
      load "list" (Glyph.ofBytes offending) = .error (.parse "list" 2 "x") := by
  intro plain padded offending
  have hmark : IsText [0x23] ['#'] := rfl
  have hcomment : Says [0x23] .skipped :=
    .comment hmark (trims_iff.mpr (by decide) : Trims ['#'] ['#'])
  have hseven : Numeral ['7'] 7 := .plain (by simp) (List.forall_mem_singleton.mpr (by decide))
  have htext : IsText [0x37] ['7'] := rfl
  have htrim : Trims ['7'] ['7'] := trims_iff.mpr (by decide)
  have hothers : IsText [0x20, 0x37, carriage] [' ', '7', '\r'] := rfl
  have htrims : Trims [' ', '7', '\r'] ['7'] := trims_iff.mpr (by decide)
  have hnumbers : load "list" (Glyph.ofBytes plain) = .ok [7] :=
    ((load_follows_grammar "list" plain).1 [7]).mpr
      (.slot (.slot htext htrim hseven (by decide)) .nil)
  -- The padded list comes from the plain one by two edits: blanks, then a comment in front.
  have hpad : Edit ([] ++ ([0x37] ++ [feed])) ([] ++ ([0x20, 0x37, carriage] ++ [feed])) :=
    .pad nofun (by rintro byte ⟨⟩; rfl) (by decide) (by decide) htext hothers htrim htrims hseven
  have hinsert : Edit ([] ++ [0x20, 0x37, carriage, feed])
      ([] ++ ([0x23] ++ feed :: [0x20, 0x37, carriage, feed])) :=
    .insert nofun (by decide) hcomment
  have hedits : Relation.EqvGen Edit plain padded :=
    .trans _ _ _ (.rel _ _ hpad) (.rel _ _ hinsert)
  have hletter : IsText [0x78] ['x'] := rfl
  -- The third list has two offending lines, and the first of them is reported.
  have hodd : Says [0x78] (.odd "x") := by
    refine .odd hletter (trims_iff.mpr (by decide) : Trims ['x'] ['x']) (by simp) (by simp)
      fun slot _ hnumeral => ?_
    cases hnumeral with
    | plain _ hdigits => exact absurd (hdigits 'x' List.mem_cons_self) (by decide)
  exact ⟨hnumbers, ((load_follows_grammar "list" plain).2.2 padded hedits [7]).mp hnumbers,
    ((load_follows_grammar "list" offending).2.1 (.parse "list" 2 "x")).mpr
      ⟨[[0x23]], [0x78], [[0xFF]], [], rfl, .skipped hcomment .nil, .odd hodd⟩⟩

end FailureFile

end Backfill
