/-
Host addresses, versions 4 and 6, and their text. The version 4 reader takes four decimal parts
without leading zeros. The version 6 reader takes eight groups of up to four hexadecimal digits,
of which one run may be left out as a double colon and the last two may be written as a version 4
address. The writer leaves out the longest run of at least two zero groups, the first of equals,
and writes an address that embeds a version 4 one with its dots.
-/
import Zonecast.Text.Letter
import Zonecast.Text.Pieces

namespace Zonecast

open Zonecast.Text

/-- A host address: four bytes, or eight groups of 16 bits. -/
inductive Address where
  | v4 (a b c d : UInt8)
  | v6 (groups : Vector UInt16 8)
  deriving DecidableEq, Repr

namespace Address

/-! ### Reading -/

/-- A number of at most so many digits below a limit, and the rest. A digit too many fails. -/
def takeNumber (digitOf : Char → Option Nat) (radix most limit : Nat) (zeroPrefix : Bool)
    (text : List Char) : Option (Nat × List Char) :=
  let digits := text.takeWhile fun c => (digitOf c).isSome
  let value := digits.foldl (fun value c => value * radix + (digitOf c).getD 0) 0
  if digits.isEmpty || most < digits.length || limit ≤ value ||
      (!zeroPrefix && digits.head? == some '0' && 1 < digits.length) then none
  else some (value, text.drop digits.length)

/-- The value of a decimal digit, if the character is one. -/
def decimalValue? (c : Char) : Option Nat :=
  if isDigit c then some (digitValue c) else none

/-- A given character, before all parts but the first. -/
def takeSeparator (separator : Char) (first : Bool) (text : List Char) : Option (List Char) :=
  if first then some text
  else
    match text with
    | c :: rest => if c = separator then some rest else none
    | [] => none

/-- One part of a version 4 address. -/
def takePart (first : Bool) (text : List Char) : Option (UInt8 × List Char) := do
  let text ← takeSeparator '.' first text
  let (value, rest) ← takeNumber decimalValue? 10 3 256 false text
  return (UInt8.ofNat value, rest)

/-- A version 4 address at the front of a text. -/
def takeV4 (text : List Char) : Option ((UInt8 × UInt8 × UInt8 × UInt8) × List Char) := do
  let (a, text) ← takePart true text
  let (b, text) ← takePart false text
  let (c, text) ← takePart false text
  let (d, text) ← takePart false text
  return ((a, b, c, d), text)

/-- The group of two bytes. -/
def group (high low : UInt8) : UInt16 :=
  UInt16.ofNat (high.toNat * 256 + low.toNat)

/-- Reads at most so many groups of a version 6 address, the last two possibly as a version 4
address. Answers the groups in order, whether they end in one, and the rest. -/
def takeGroups (first : Bool) : Nat → List Char → List UInt16 × Bool × List Char
  | 0, text => ([], false, text)
  | left + 1, text =>
    let embedded := if left = 0 then none else (takeSeparator ':' first text).bind takeV4
    match embedded with
    | some ((a, b, c, d), rest) => ([group a b, group c d], true, rest)
    | none =>
      match (takeSeparator ':' first text).bind (takeNumber hexValue? 16 4 65536 true) with
      | some (value, rest) =>
        let (groups, ended, rest) := takeGroups false left rest
        (UInt16.ofNat value :: groups, ended, rest)
      | none => ([], false, text)

/-- The address of eight groups. -/
def ofGroups? (groups : List UInt16) : Option Address :=
  if size : groups.length = 8 then some (.v6 ⟨groups.toArray, by simpa using size⟩) else none

/-- A version 6 address at the front of a text. -/
def takeV6 (text : List Char) : Option (Address × List Char) :=
  let (head, embedded, rest) := takeGroups true 8 text
  if head.length = 8 then (ofGroups? head).map (·, rest)
  else if embedded then none
  else
    match rest with
    | ':' :: ':' :: rest =>
      let (tail, _, rest) := takeGroups true (7 - head.length) rest
      let zeros := List.replicate (8 - head.length - tail.length) 0
      (ofGroups? (head ++ zeros ++ tail)).map (·, rest)
    | _ => none

/-- The address that a text denotes. -/
def read? (text : String) : Option Address :=
  let characters := text.toList
  let found :=
    match takeV4 characters with
    | some ((a, b, c, d), rest) => some (Address.v4 a b c d, rest)
    | none => takeV6 characters
  match found with
  | some (address, []) => some address
  | _ => none

/-! ### Writing -/

/-- Four decimal parts with dots between them. -/
def v4Text (a b c d : Nat) : String :=
  toString a ++ "." ++ toString b ++ "." ++ toString c ++ "." ++ toString d

/-- A group in the fewest small hexadecimal digits. -/
def groupText (group : UInt16) : String :=
  String.ofList (Nat.toDigits 16 group.toNat)

/-- The start and length of the longest run of zero groups; of equal runs, the first. -/
def longestZeroRun (groups : List UInt16) : Nat × Nat :=
  let step (state : Nat × (Nat × Nat) × (Nat × Nat)) (group : UInt16) :=
    let (index, current, longest) := state
    if group = 0 then
      let current := (if current.2 = 0 then index else current.1, current.2 + 1)
      (index + 1, current, if longest.2 < current.2 then current else longest)
    else (index + 1, (0, 0), longest)
  (groups.foldl step (0, (0, 0), (0, 0))).2.2

/-- Groups with colons between them. -/
def groupsText (groups : List UInt16) : String :=
  join ':' (groups.map groupText)

/-- The text of eight groups. -/
def v6Text (groups : List UInt16) : String :=
  match groups with
  | [0, 0, 0, 0, 0, 0xffff, high, low] =>
    "::ffff:" ++ v4Text (high.toNat / 256) (high.toNat % 256) (low.toNat / 256) (low.toNat % 256)
  | groups =>
    let (start, length) := longestZeroRun groups
    if 1 < length then
      groupsText (groups.take start) ++ "::" ++ groupsText (groups.drop (start + length))
    else groupsText groups

/-- The text of an address. -/
def text : Address → String
  | .v4 a b c d => v4Text a.toNat b.toNat c.toNat d.toNat
  | .v6 groups => v6Text groups.toList

end Address

end Zonecast
