/-
The form a batch travels in through the queue. A form is read from form-encoded text, where every
field but the two name lists must be there, none may be repeated, and unknown fields are skipped.
The batch is then made of it: the TLD and the writer must not be blank, names are trimmed, made
small and kept once each, and the two times must be timestamps. A batch is written back into a
form with its times cut to milliseconds.
-/
import Zonecast.Publish.Batch
import Zonecast.Text.Blank
import Zonecast.Text.Integer
import Zonecast.Text.Urlencoded
import Zonecast.Time.Rfc3339

namespace Zonecast.Publish

open Zonecast.Text Zonecast.Time

/-- A batch as the queue carries it. -/
structure Form where
  tld : String
  dnsWriter : String
  lockIndex : Int64
  numPublishLocks : Int64
  domains : String
  hosts : String
  itemsCreated : String
  enqueued : String
  deriving DecidableEq, Repr

namespace Form

/-! ### Text -/

/-- Why a text is no form. -/
inductive Error
  | missing (field : String)
  | duplicate (field : String)
  | number (field : String) (fault : IntegerFault)
  deriving DecidableEq, Repr

/-- The wording of a failure. -/
def Error.message : Error → String
  | .missing field => "missing field \x60" ++ field ++ "\x60"
  | .duplicate field => "duplicate field \x60" ++ field ++ "\x60"
  | .number _ fault => fault.message

/-- The wording of a failure with the field whose value is at fault in front. -/
def Error.located : Error → String
  | .number field fault => field ++ ": " ++ fault.message
  | error => error.message

/-- The fields in the order in which they are written. -/
def fieldNames : List String :=
  ["tld", "dnsWriter", "lockIndex", "numPublishLocks", "domains", "hosts", "itemsCreated",
    "enqueued"]

/-- The two fields that hold a number. -/
def isNumber (field : String) : Bool :=
  field == "lockIndex" || field == "numPublishLocks"

/-- Goes through the pairs in order and finds the first that is at fault: a field seen before, or
a number that is none. -/
def firstFault? (seen : List String) : List (String × String) → Option Error
  | [] => none
  | (field, value) :: rest =>
    if fieldNames.contains field then
      if seen.contains field then some (.duplicate field)
      else
        match isNumber field, readInt64 value with
        | true, .error fault => some (.number field fault)
        | _, _ => firstFault? (field :: seen) rest
    else firstFault? seen rest

/-- The value of a field. -/
def value? (pairs : List (String × String)) (field : String) : Option String :=
  (pairs.find? fun pair => pair.1 == field).map (·.2)

/-- The value of a field that must be there. -/
def requiredValue (pairs : List (String × String)) (field : String) : Except Error String :=
  match value? pairs field with
  | some value => .ok value
  | none => .error (.missing field)

/-- The value of a field that must be there and hold a number. -/
def requiredNumber (pairs : List (String × String)) (field : String) : Except Error Int64 := do
  let value ← requiredValue pairs field
  (readInt64 value).mapError (.number field)

/-- The form of some pairs. -/
def ofPairs (pairs : List (String × String)) : Except Error Form := do
  match firstFault? [] pairs with
  | some fault => throw fault
  | none => pure ()
  return {
    tld := ← requiredValue pairs "tld"
    dnsWriter := ← requiredValue pairs "dnsWriter"
    lockIndex := ← requiredNumber pairs "lockIndex"
    numPublishLocks := ← requiredNumber pairs "numPublishLocks"
    domains := (value? pairs "domains").getD ""
    hosts := (value? pairs "hosts").getD ""
    itemsCreated := ← requiredValue pairs "itemsCreated"
    enqueued := ← requiredValue pairs "enqueued" }

/-- Reads a form from form-encoded text. -/
def read (text : String) : Except Error Form :=
  ofPairs (Urlencoded.decodePairs text)

/-- The fields of a form, as written. -/
def toPairs (form : Form) : List (String × String) :=
  [("tld", form.tld), ("dnsWriter", form.dnsWriter),
    ("lockIndex", toString form.lockIndex.toInt),
    ("numPublishLocks", toString form.numPublishLocks.toInt), ("domains", form.domains),
    ("hosts", form.hosts), ("itemsCreated", form.itemsCreated), ("enqueued", form.enqueued)]

/-- Writes a form as form-encoded text. -/
def write (form : Form) : String :=
  Urlencoded.encodePairs form.toPairs

end Form

/-! ### Batches -/

namespace Batch

/-- Why a form is no batch. -/
inductive Error
  | missing (parameter : String)
  | invalidTimestamp (field value : String)
  deriving DecidableEq, Repr

/-- The wording of a failure. -/
def Error.message : Error → String
  | .missing parameter => "missing required parameter " ++ parameter
  | .invalidTimestamp field value => "invalid " ++ field ++ " timestamp '" ++ value ++ "'"

/-- The names of a list between commas: trimmed, small, not empty, once each. -/
def readNames (list : String) : List String :=
  distinct (((Text.split ',' list).map fun name => lower (trim name)).filter (· != ""))

/-- The instant of a time field. -/
def readTime (field value : String) : Except Error Instant :=
  match readTimestamp? (trim value) with
  | some instant => .ok instant
  | none => .error (.invalidTimestamp field value)

/-- The batch that a form carries. -/
def ofForm (form : Form) : Except Error Batch := do
  if trim form.tld = "" then throw (.missing "tld")
  if trim form.dnsWriter = "" then throw (.missing "dnsWriter")
  let enqueuedAt ← readTime "enqueued" form.enqueued
  let itemsCreatedAt ← readTime "itemsCreated" form.itemsCreated
  return {
    tld := lower (trim form.tld)
    writer := trim form.dnsWriter
    lockIndex := form.lockIndex
    lockCount := form.numPublishLocks
    domains := readNames form.domains
    hosts := readNames form.hosts
    enqueuedAt := enqueuedAt
    itemsCreatedAt := itemsCreatedAt }

/-- The form that carries a batch. -/
def toForm (batch : Batch) : Form where
  tld := batch.tld
  dnsWriter := batch.writer
  lockIndex := batch.lockIndex
  numPublishLocks := batch.lockCount
  domains := join ',' batch.domains
  hosts := join ',' batch.hosts
  itemsCreated := timestamp .milliseconds batch.itemsCreatedAt
  enqueued := timestamp .milliseconds batch.enqueuedAt

end Batch

end Zonecast.Publish
