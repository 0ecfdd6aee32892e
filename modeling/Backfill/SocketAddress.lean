import Backfill.Word

/-!
# Socket addresses

An address is an IPv4 address or an IPv6 address in brackets, followed by a colon and a port.
Only digits are understood, no host names.  The numbers of an IPv4 address have no zeros in
front, ports may have any number of them; an IPv6 address may leave out one run of zero
groups, end in an IPv4 address and name a scope.

## Main definitions

* `SocketAddress` — an address with its port.
* `SocketAddress.ofText?` — the address that a text denotes.
-/

namespace Backfill

/-- An address with its port. -/
inductive SocketAddress
  /-- Four bytes. -/
  | v4 (bytes : List Nat) (port : Nat)
  /-- Eight groups of sixteen bits. -/
  | v6 (groups : List Nat) (scope port : Nat)
deriving DecidableEq, Repr

namespace SocketAddress

/-- The value of a digit, decimal or hexadecimal. -/
def digit? (base : Nat) (c : Char) : Option Nat :=
  let value :=
    if '0' ≤ c ∧ c ≤ '9' then c.toNat - '0'.toNat
    else if 'a' ≤ c ∧ c ≤ 'f' then c.toNat - 'a'.toNat + 10
    else if 'A' ≤ c ∧ c ≤ 'F' then c.toNat - 'A'.toNat + 10
    else base
  if value < base then some value else none

/-- The digits in front of a text, as values, and the rest of the text. -/
def digits (base : Nat) : List Char → List Nat × List Char
  | [] => ([], [])
  | c :: rest =>
    match digit? base c with
    | some d => (d :: (digits base rest).1, (digits base rest).2)
    | none => ([], c :: rest)

/-- Reads a number of at least one digit, up to a limit. -/
def number (base limit : Nat) (text : List Char) : Option (Nat × List Char) :=
  let found := digits base text
  let value := found.1.foldl (fun value d => value * base + d) 0
  if found.1.isEmpty ∨ limit < value then none else some (value, found.2)

/-- Reads a number of one to three decimal digits below 256, without zeros in front. -/
def byte (text : List Char) : Option (Nat × List Char) :=
  let found := digits 10 text
  if 3 < found.1.length ∨ (found.1.head? = some 0 ∧ 1 < found.1.length) then none
  else number 10 255 text

/-- Reads a number of one to four hexadecimal digits. -/
def group (text : List Char) : Option (Nat × List Char) :=
  if 4 < (digits 16 text).1.length then none else number 16 Word.max16 text

/-- Reads the given character. -/
def char (c : Char) : List Char → Option (List Char)
  | [] => none
  | d :: rest => if d = c then some rest else none

/-- Reads an IPv4 address. -/
def readV4 (text : List Char) : Option (List Nat × List Char) := do
  let (a, text) ← byte text
  let (b, text) ← byte (← char '.' text)
  let (c, text) ← byte (← char '.' text)
  let (d, text) ← byte (← char '.' text)
  return ([a, b, c, d], text)

/-- The two groups that an IPv4 address makes. -/
def pairs : List Nat → List Nat
  | [a, b, c, d] => [a * 256 + b, c * 256 + d]
  | _ => []

/-- The text behind the colon in front of a group; the first group has none. -/
def separated (first : Bool) (text : List Char) : Option (List Char) :=
  if first then some text else char ':' text

/-- An IPv4 address in place of two groups, if there is room for it. -/
def embedded? (first : Bool) (room : Nat) (text : List Char) : Option (List Nat × List Char) :=
  if room < 2 then none else (separated first text).bind readV4

/-- Reads up to `room` groups; the last two may be written as an IPv4 address, which is told
by the second result. -/
def readGroups (first : Bool) : Nat → List Char → List Nat × Bool × List Char
  | 0, text => ([], false, text)
  | room + 1, text =>
    match embedded? first (room + 1) text with
    | some (bytes, rest) => (pairs bytes, true, rest)
    | none =>
      match (separated first text).bind group with
      | none => ([], false, text)
      | some (value, rest) =>
        let (groups, isV4, rest) := readGroups false room rest
        (value :: groups, isV4, rest)

/-- Reads an IPv6 address. -/
def readV6 (text : List Char) : Option (List Nat × List Char) :=
  let (head, isV4, text) := readGroups true 8 text
  if head.length = 8 then some (head, text)
  else if isV4 then none
  else do
    let text ← char ':' text
    let text ← char ':' text
    let (tail, _, text) := readGroups true (7 - head.length) text
    return (head ++ List.replicate (8 - head.length - tail.length) 0 ++ tail, text)

/-- Reads a colon and a port. -/
def readPort (text : List Char) : Option (Nat × List Char) := do number 10 Word.max16 (← char ':' text)

/-- Reads the scope of an address, which may be left out. -/
def readScope (text : List Char) : Option (Nat × List Char) :=
  match (char '%' text).bind (number 10 Word.max32) with
  | some found => some found
  | none => some (0, text)

/-- Reads an IPv4 address and a port. -/
def readV4Port (text : List Char) : Option (SocketAddress × List Char) := do
  let (bytes, text) ← readV4 text
  let (port, text) ← readPort text
  return (.v4 bytes port, text)

/-- Reads an IPv6 address in brackets and a port. -/
def readV6Port (text : List Char) : Option (SocketAddress × List Char) := do
  let (groups, text) ← readV6 (← char '[' text)
  let (scope, text) ← readScope text
  let (port, text) ← readPort (← char ']' text)
  return (.v6 groups scope port, text)

/-- The address that a text denotes. -/
def ofText? (text : String) : Option SocketAddress :=
  let found := match readV4Port text.toList with
    | some found => some found
    | none => readV6Port text.toList
  match found with
  | some (address, []) => some address
  | _ => none

end SocketAddress

end Backfill
