/-
Password records: a hash with everything it was computed with, as one text between dollar signs:
the algorithm, its version, its parameters, the salt and the hash, of which all but the first may
be missing. A text that is no record is told apart from a record that a password does not fit.
-/
import Zonecast.Password.Argon2
import Zonecast.Text.Base64
import Zonecast.Text.Pieces
import Zonecast.Text.Utf8

namespace Zonecast.Password

open Zonecast.Text

/-! ### Records -/

/-- A password record. -/
structure Record where
  algorithm : String
  version : Option Nat
  parameters : List (String × String)
  salt : Option (List Char)
  hash : Option (List UInt8)
  deriving DecidableEq, Repr

namespace Record

/-- Whether a text names an algorithm or a parameter. -/
def isIdentifier (text : List Char) : Bool :=
  1 ≤ text.length && text.length ≤ 32 &&
    text.all fun c => ('a' ≤ c && c ≤ 'z') || isDigit c || c == '-'

/-- A character of a parameter's value or of a salt. -/
def isValueChar (c : Char) : Bool :=
  isLetter c || isDigit c || c == '/' || c == '+' || c == '.' || c == '-'

/-- Whether a text is the value of a parameter. -/
def isValue (text : List Char) : Bool :=
  text.length ≤ 64 && text.all isValueChar

/-- A count of 32 bits, without superfluous zeros in front. -/
def count? (text : List Char) : Option Nat :=
  let value := text.foldl (fun value c => value * 10 + digitValue c) 0
  if text.isEmpty || !text.all isDigit || (text.head? == some '0' && 1 < text.length) ||
      UInt32.size ≤ value then none
  else some value

/-- The version that a field gives. -/
def version? (field : List Char) : Option Nat :=
  if isValue field then count? field else none

/-- The parameters that a field gives. -/
def parameters? (field : List Char) : Option (List (String × String)) :=
  if 127 < field.length then none
  else
    (pieces ',' field).mapM fun pair =>
      match pieces '=' pair with
      | [name, value] =>
        if isIdentifier name && isValue value then
          some (String.ofList name, String.ofList value)
        else none
      | _ => none

/-- The salt that a field gives. -/
def salt? (field : List Char) : Option (List Char) :=
  if 4 ≤ field.length && field.length ≤ 64 && field.all isValueChar then some field else none

/-- The hash that a field gives. -/
def hash? (field : List Char) : Option (List UInt8) :=
  (Base64.decode? field).filter fun bytes => 10 ≤ bytes.length && bytes.length ≤ 64

/-- Splits off the version, if the first field gives one. -/
def takeVersion : List (List Char) → Option (Option Nat × List (List Char))
  | ('v' :: '=' :: value) :: rest =>
    if value.contains ',' then some (none, ('v' :: '=' :: value) :: rest)
    else (version? value).map fun version => (some version, rest)
  | fields => some (none, fields)

/-- Splits off the parameters, if the first field gives some. -/
def takeParameters : List (List Char) → Option (List (String × String) × List (List Char))
  | field :: rest =>
    if field.contains '=' then (parameters? field).map (·, rest) else some ([], field :: rest)
  | [] => some ([], [])

/-- Reads a record. -/
def read? (text : String) : Option Record := do
  let [] :: algorithm :: fields := pieces '$' text.toList | none
  if !isIdentifier algorithm then none
  else
    let (version, fields) ← takeVersion fields
    let (parameters, fields) ← takeParameters fields
    let (salt, hash) ←
      match fields with
      | [] => some (none, none)
      | [salt] => (salt? salt).map fun salt => (some salt, none)
      | [salt, hash] =>
        (salt? salt).bind fun salt => (hash? hash).map fun hash => (some salt, some hash)
      | _ => none
    return ⟨String.ofList algorithm, version, parameters, salt, hash⟩

/-! ### Parameters -/

/-- The variant that an algorithm's name stands for. -/
def variant? : String → Option Variant
  | "argon2d" => some .dependent
  | "argon2i" => some .independent
  | "argon2id" => some .hybrid
  | _ => none

/-- The version that a number stands for; the newer one where there is no number. -/
def versionOf? : Option Nat → Option Version
  | none => some .adding
  | some 16 => some .overwriting
  | some 19 => some .adding
  | some _ => none

/-- What is used where a record does not say: 19 MiB, two passes, one lane. -/
def fallback (variant : Variant) (version : Version) (salt : List UInt8) (length : Nat) :
    Parameters :=
  ⟨variant, version, 19456, 2, 1, salt, [], length⟩

/-- Applies one written parameter. -/
def apply (parameters : Parameters) (written : String × String) : Option Parameters :=
  let value := written.2.toList
  match written.1 with
  | "m" => (count? value).map fun memory => { parameters with memory := memory }
  | "t" => (count? value).map fun passes => { parameters with passes := passes }
  | "p" => (count? value).map fun lanes => { parameters with lanes := lanes }
  | "keyid" => do
    let bytes ← Base64.decode? value
    if bytes.length ≤ 8 then some parameters else none
  | "data" => do
    let bytes ← Base64.decode? value
    if bytes.length ≤ 32 then some { parameters with associated := bytes } else none
  | _ => none

/-- Whether a hash can be computed with these parameters. -/
def isUsable (parameters : Parameters) : Bool :=
  8 ≤ parameters.memory && 1 ≤ parameters.passes && 1 ≤ parameters.lanes &&
    parameters.lanes < 16777216 && 8 * parameters.lanes ≤ parameters.memory &&
    8 ≤ parameters.salt.length

/-- The parameters that a record's hash was computed with, if they can be used. -/
def parametersOf? (record : Record) (salt : List Char) (length : Nat) : Option Parameters := do
  let variant ← variant? record.algorithm
  let version ← versionOf? record.version
  let salt ← Base64.decode? salt
  let parameters ← record.parameters.foldlM apply (fallback variant version salt length)
  if isUsable parameters then some parameters else none

/-- Whether a password fits a record. -/
def fits (record : Record) (password : String) : Bool :=
  match record.salt, record.hash with
  | some salt, some hash =>
    match record.parametersOf? salt hash.length with
    | some parameters => argon2 parameters (utf8 password) == hash
    | none => false
  | _, _ => false

/-! ### Writing -/

/-- The text of a record with these parameters. -/
def write (parameters : Parameters) (hash : List UInt8) : String :=
  let name :=
    match parameters.variant with
    | .dependent => "argon2d"
    | .independent => "argon2i"
    | .hybrid => "argon2id"
  "$" ++ name ++ "$v=" ++ toString parameters.version.number ++ "$m=" ++
    toString parameters.memory ++ ",t=" ++ toString parameters.passes ++ ",p=" ++
    toString parameters.lanes ++ "$" ++ String.ofList (Base64.encode parameters.salt) ++ "$" ++
    String.ofList (Base64.encode hash)

end Record

/-- Verifies a password against a written record; fails if the text is no record. -/
def verify (record password : String) : Option Bool :=
  (Record.read? record).map fun record => record.fits password

/-- A new record for a password, with a salt of sixteen bytes. -/
def hash (salt : List UInt8) (password : String) : String :=
  let parameters := Record.fallback .hybrid .adding salt 32
  Record.write parameters (argon2 parameters (utf8 password))

end Zonecast.Password
