import Backfill.Json.Fault

/-!
# Reading a JSON string

A string is read from behind its opening quote, one glyph at a time.  Characters beyond the
first plane may be written as two escapes, a high surrogate and a low one; either alone is a
fault.  A broken glyph makes the string unreadable, which is noticed at its closing quote.
The four digits of an escape are taken together, so a bad one is noticed behind all four.

## Main definitions

* `Json.StringState` — where the reader stands inside an escape.
* `Json.stringChars` — the characters of a string and what follows it.
* `Json.skipString` — what follows a string whose contents do not matter.
-/

namespace Backfill

namespace Json

/-- Value of a hexadecimal digit. -/
def hexValue? (c : Char) : Option Nat :=
  if '0' ≤ c ∧ c ≤ '9' then some (c.toNat - 48)
  else if 'a' ≤ c ∧ c ≤ 'f' then some (c.toNat - 87)
  else if 'A' ≤ c ∧ c ≤ 'F' then some (c.toNat - 55)
  else none

/-- The character that a one-letter escape stands for. -/
def unescape? (c : Char) : Option Char :=
  match c with
  | '"' => some '"'
  | '\\' => some '\\'
  | '/' => some '/'
  | 'b' => some (Char.ofNat 8)
  | 'f' => some (Char.ofNat 12)
  | 'n' => some '\n'
  | 'r' => some '\r'
  | 't' => some '\t'
  | _ => none

/-- Whether the code is that of the first half of a pair. -/
def isHighSurrogate (code : Nat) : Bool := 0xD800 ≤ code && code ≤ 0xDBFF

/-- Whether the code is that of the second half of a pair. -/
def isLowSurrogate (code : Nat) : Bool := 0xDC00 ≤ code && code ≤ 0xDFFF

/-- The character that a pair of surrogates stands for. -/
def ofSurrogates (high low : Nat) : Char :=
  Char.ofNat ((high - 0xD800) * 1024 + (low - 0xDC00) + 0x10000)

/-- Where the reader stands. -/
inductive StringState
  | plain
  /-- Behind a backslash. -/
  | escape
  /-- Inside an escape by code, with the digits still due and the value of those read;
  `high` is the first half of a pair, if one has been read. -/
  | code (high : Option Nat) (due value : Nat)
  /-- Behind the first half of a pair: the backslash of the second is due. -/
  | pairBackslash (high : Nat)
  /-- Behind that backslash. -/
  | pairLetter (high : Nat)
deriving DecidableEq, Repr

/-- The state behind the `u` of an escape, unless fewer than four bytes are left. -/
def enterCode? (high : Option Nat) (text : List Glyph) : Option StringState :=
  if Glyph.size (text.take 4) < 4 then none else some (.code high 4 0)

/-- The state behind the last digit of an escape by code, and the character it yields; there
is none if one half of a pair stands alone. -/
def leaveCode? (high : Option Nat) (code : Nat) : Option (StringState × Option Char) :=
  match high with
  | none =>
    if isLowSurrogate code then none
    else if isHighSurrogate code then some (.pairBackslash code, none)
    else some (.plain, some (Char.ofNat code))
  | some high =>
    if isLowSurrogate code then some (.plain, some (ofSurrogates high code)) else none

/-- The fault of a glyph that cannot follow in this state. -/
def StringState.refuse (state : StringState) (text : List Glyph) : Fault :=
  match state with
  | .plain => .facing .controlCharacter text
  | .escape => .facing .badEscape text
  | .code _ due _ => .behind .badEscape due text
  | .pairBackslash _ | .pairLetter _ => .facing .brokenPair text

/-- Reads a string from behind its opening quote.  `read` holds the characters so far, the
last one first, and `broken` says whether a broken glyph has been met. -/
def stringFrom (state : StringState) (read : List Char) (broken : Bool) :
    List Glyph → Read (List Char)
  | [] => .error (.facing .endInString [])
  | glyph :: text =>
    match state, glyph with
    | .plain, none => stringFrom .plain read true text
    | .plain, some c =>
      if c = '"' then
        if broken then .error (.facing .badCharacter (glyph :: text)) else .ok (read.reverse, text)
      else if c = '\\' then stringFrom .escape read broken text
      else if c.toNat < 32 then .error (state.refuse (glyph :: text))
      else stringFrom .plain (c :: read) broken text
    | .escape, some c =>
      if c = 'u' then
        match enterCode? none text with
        | none => .error (.facing .endInString [])
        | some state => stringFrom state read broken text
      else match unescape? c with
        | some plain => stringFrom .plain (plain :: read) broken text
        | none => .error (state.refuse (glyph :: text))
    | .code high due value, some c =>
      match hexValue? c with
      | none => .error (state.refuse (glyph :: text))
      | some digit =>
        if due ≤ 1 then
          match leaveCode? high (value * 16 + digit) with
          | none => .error (.facing .loneSurrogate (glyph :: text))
          | some (state, none) => stringFrom state read broken text
          | some (state, some c) => stringFrom state (c :: read) broken text
        else stringFrom (.code high (due - 1) (value * 16 + digit)) read broken text
    | .pairBackslash high, some c =>
      if c = '\\' then stringFrom (.pairLetter high) read broken text
      else .error (state.refuse (glyph :: text))
    | .pairLetter high, some c =>
      if c = 'u' then
        match enterCode? (some high) text with
        | none => .error (.facing .endInString [])
        | some state => stringFrom state read broken text
      else .error (state.refuse (glyph :: text))
    | _, none => .error (state.refuse (glyph :: text))

/-- The characters of a string, read from behind its opening quote. -/
def stringChars (text : List Glyph) : Read (List Char) := stringFrom .plain [] false text

/-- A string, read from behind its opening quote. -/
def stringValue (text : List Glyph) : Read String :=
  (stringChars text).map fun (chars, rest) => (String.ofList chars, rest)

/-- Reads past a string from behind its opening quote.  Neither broken glyphs nor single
surrogates matter; `due` counts the digits still due of an escape by code. -/
def skipStringFrom (escape : Bool) (due : Nat) : List Glyph → Read Unit
  | [] => .error (.facing .endInString [])
  | glyph :: text =>
    if due ≠ 0 then
      match glyph.bind hexValue? with
      | some _ => skipStringFrom false (due - 1) text
      | none => .error (.behind .badEscape due (glyph :: text))
    else if escape then
      if glyph = some 'u' then
        if Glyph.size (text.take 4) < 4 then .error (.facing .endInString [])
        else skipStringFrom false 4 text
      else match glyph.bind unescape? with
        | some _ => skipStringFrom false 0 text
        | none => .error (.facing .badEscape (glyph :: text))
    else match glyph with
      | none => skipStringFrom false 0 text
      | some c =>
        if c = '"' then .ok ((), text)
        else if c = '\\' then skipStringFrom true 0 text
        else if c.toNat < 32 then .error (.behind .controlCharacter 0 (glyph :: text))
        else skipStringFrom false 0 text

/-- Reads past a string from behind its opening quote. -/
def skipString (text : List Glyph) : Read Unit := skipStringFrom false 0 text

end Json

end Backfill
