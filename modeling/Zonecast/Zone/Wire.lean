/-
The records that the zone backend's interface speaks, and their JSON form. Which members may be
missing and which are left out when empty is part of the form: an absent change type, comment
list, key id or setting is not written at all, while an absent kind, serial or account of a zone
is written as null.
-/
import Zonecast.Json.Record
import Zonecast.Name.Basic
import Zonecast.Zone.Change

namespace Zonecast.Zone

open Zonecast.Json

/-! ### Record sets -/

/-- What a sent record set does to the stored one. -/
inductive ChangeType
  | replace
  | delete
  deriving DecidableEq, Repr

/-- One record of a set. -/
structure Record where
  content : String
  disabled : Bool
  deriving DecidableEq, Repr

/-- A comment on a record set. -/
structure Comment where
  content : String
  account : String
  modifiedAt : Int64
  deriving DecidableEq, Repr

/-- The records of one type at one name. -/
structure RecordSet where
  name : String
  type : String
  ttl : UInt32
  changeType : Option ChangeType
  records : List Record
  comments : List Comment
  deriving DecidableEq, Repr

/-- The set that replaces what is stored at its name and type. -/
def RecordSet.replacing (name type : String) (ttl : UInt32) (contents : List String) : RecordSet :=
  ⟨name, type, ttl, some .replace, contents.map (⟨·, false⟩), []⟩

/-- The set that deletes what is stored at its name and type. -/
def RecordSet.deleting (name type : String) : RecordSet :=
  ⟨name, type, 0, some .delete, [], []⟩

/-- The set that carries a change. -/
def Change.toRecordSet (change : Change) : RecordSet :=
  match change.mutation with
  | .replace values => .replacing change.name change.type.text change.ttl values
  | .delete => .deleting change.name change.type.text

/-! ### Zones -/

/-- A zone as the backend stores and lists it; lists come without record sets. -/
structure Detail where
  id : String
  name : String
  kind : Option String
  serial : Option UInt32
  signed : Bool
  account : Option String
  recordSets : List RecordSet
  deriving DecidableEq, Repr, Inhabited

/-- The record set of this type at the apex, if the zone has one. -/
def Detail.apex? (zone : Detail) (type : String) : Option RecordSet :=
  zone.recordSets.find? fun recordSet =>
    recordSet.type == type && Name.bare recordSet.name == Name.bare zone.name

/-- A request to create a zone. -/
structure Creation where
  name : String
  kind : String
  recordSets : List RecordSet
  deriving DecidableEq, Repr

/-- Zone settings to change; those not given stay as they are. -/
structure Settings where
  account : Option String
  rectify : Option Bool
  deriving DecidableEq, Repr

/-! ### Keys and metadata -/

/-- What a signing key signs: keys, zone data, or both. -/
inductive KeyRole
  | keySigning
  | zoneSigning
  | combined
  deriving DecidableEq, Repr

/-- A signing key. -/
structure SigningKey where
  id : Option UInt32
  role : KeyRole
  active : Bool
  published : Bool
  algorithm : Option String
  bits : Option UInt32
  ds : List String
  deriving DecidableEq, Repr

/-- A key to be created; the backend chooses its id. -/
def SigningKey.fresh (role : KeyRole) (bits : UInt32) (active published : Bool)
    (algorithm : String) : SigningKey :=
  ⟨none, role, active, published, some algorithm, some bits, []⟩

/-- Zone metadata of one kind. -/
structure Metadata where
  kind : String
  values : List String
  deriving DecidableEq, Repr

/-- A key that authenticates transfers. Without a secret, the backend makes one. -/
structure TransferKey where
  id : Option String
  name : String
  algorithm : String
  secret : Option String
  deriving DecidableEq, Repr

/-- A server behind the backend's interface. -/
structure Server where
  id : String
  daemonType : Option String
  version : Option String
  deriving DecidableEq, Repr

/-! ### Writing -/

def ChangeType.toJson : ChangeType → Json
  | .replace => .string "REPLACE"
  | .delete => .string "DELETE"

def Record.toJson (record : Record) : Json :=
  .object [("content", .string record.content), ("disabled", .bool record.disabled)]

def Comment.toJson (comment : Comment) : Json :=
  .object [("content", .string comment.content), ("account", .string comment.account),
    ("modified_at", .integer comment.modifiedAt.toInt)]

def RecordSet.toJson (recordSet : RecordSet) : Json :=
  .object ([("name", .string recordSet.name), ("type", .string recordSet.type),
    ("ttl", .nat recordSet.ttl.toNat)] ++
    memberIfSome "changetype" ChangeType.toJson recordSet.changeType ++
    [("records", .array (recordSet.records.map Record.toJson))] ++
    memberIfAny "comments" Comment.toJson recordSet.comments)

def Detail.toJson (zone : Detail) : Json :=
  .object [("id", .string zone.id), ("name", .string zone.name),
    ("kind", .optional .string zone.kind),
    ("serial", .optional (fun serial : UInt32 => .nat serial.toNat) zone.serial),
    ("dnssec", .bool zone.signed), ("account", .optional .string zone.account),
    ("rrsets", .array (zone.recordSets.map RecordSet.toJson))]

def Creation.toJson (creation : Creation) : Json :=
  .object [("name", .string creation.name), ("kind", .string creation.kind),
    ("rrsets", .array (creation.recordSets.map RecordSet.toJson))]

def Settings.toJson (settings : Settings) : Json :=
  .object (memberIfSome "account" .string settings.account ++
    memberIfSome "api_rectify" .bool settings.rectify)

def KeyRole.toJson : KeyRole → Json
  | .keySigning => .string "ksk"
  | .zoneSigning => .string "zsk"
  | .combined => .string "csk"

def SigningKey.toJson (key : SigningKey) : Json :=
  .object (memberIfSome "id" (fun id : UInt32 => .nat id.toNat) key.id ++
    [("keytype", key.role.toJson), ("active", .bool key.active),
      ("published", .bool key.published)] ++
    memberIfSome "algorithm" .string key.algorithm ++
    memberIfSome "bits" (fun bits : UInt32 => .nat bits.toNat) key.bits ++
    memberIfAny "ds" .string key.ds)

def Metadata.toJson (metadata : Metadata) : Json :=
  .object [("kind", .string metadata.kind), ("metadata", .strings metadata.values)]

def TransferKey.toJson (key : TransferKey) : Json :=
  .object (memberIfSome "id" .string key.id ++
    [("name", .string key.name), ("algorithm", .string key.algorithm)] ++
    memberIfSome "key" .string key.secret)

def Server.toJson (server : Server) : Json :=
  .object [("id", .string server.id), ("daemon_type", .optional .string server.daemonType),
    ("version", .optional .string server.version)]

/-! ### Reading -/

def ChangeType.ofJson? : Json → Option ChangeType :=
  word? fun
    | "REPLACE" => some .replace
    | "DELETE" => some .delete
    | _ => none

def Record.ofJson? (value : Json) : Option Record := do
  let [content, disabled] ← fields? ["content", "disabled"] value | none
  return ⟨← required string? content, ← defaulted false bool? disabled⟩

def Comment.ofJson? (value : Json) : Option Comment := do
  let [content, account, modifiedAt] ← fields? ["content", "account", "modified_at"] value | none
  return ⟨← required string? content, ← required string? account, ← required int64? modifiedAt⟩

def RecordSet.ofJson? (value : Json) : Option RecordSet := do
  let [name, type, ttl, changeType, records, comments] ←
    fields? ["name", "type", "ttl", "changetype", "records", "comments"] value | none
  return ⟨← required string? name, ← required string? type, ← defaulted 0 uint32? ttl,
    ← defaulted none (option? ChangeType.ofJson?) changeType,
    ← defaulted [] (list? Record.ofJson?) records,
    ← defaulted [] (list? Comment.ofJson?) comments⟩

def Detail.ofJson? (value : Json) : Option Detail := do
  let [id, name, kind, serial, signed, account, recordSets] ←
    fields? ["id", "name", "kind", "serial", "dnssec", "account", "rrsets"] value | none
  return ⟨← required string? id, ← required string? name,
    ← defaulted none (option? string?) kind, ← defaulted none (option? uint32?) serial,
    ← defaulted false bool? signed, ← defaulted none (option? string?) account,
    ← defaulted [] (list? RecordSet.ofJson?) recordSets⟩

def Creation.ofJson? (value : Json) : Option Creation := do
  let [name, kind, recordSets] ← fields? ["name", "kind", "rrsets"] value | none
  return ⟨← required string? name, ← required string? kind,
    ← required (list? RecordSet.ofJson?) recordSets⟩

def Settings.ofJson? (value : Json) : Option Settings := do
  let [account, rectify] ← fields? ["account", "api_rectify"] value | none
  return ⟨← defaulted none (option? string?) account, ← defaulted none (option? bool?) rectify⟩

def KeyRole.ofJson? : Json → Option KeyRole :=
  word? fun
    | "ksk" => some .keySigning
    | "zsk" => some .zoneSigning
    | "csk" => some .combined
    | _ => none

def SigningKey.ofJson? (value : Json) : Option SigningKey := do
  let [id, role, active, published, algorithm, bits, ds] ←
    fields? ["id", "keytype", "active", "published", "algorithm", "bits", "ds"] value | none
  return ⟨← defaulted none (option? uint32?) id, ← required KeyRole.ofJson? role,
    ← defaulted false bool? active, ← defaulted false bool? published,
    ← defaulted none (option? string?) algorithm, ← defaulted none (option? uint32?) bits,
    ← defaulted [] (list? string?) ds⟩

def Metadata.ofJson? (value : Json) : Option Metadata := do
  let [kind, values] ← fields? ["kind", "metadata"] value | none
  return ⟨← required string? kind, ← defaulted [] (list? string?) values⟩

def TransferKey.ofJson? (value : Json) : Option TransferKey := do
  let [id, name, algorithm, secret] ← fields? ["id", "name", "algorithm", "key"] value | none
  return ⟨← defaulted none (option? string?) id, ← required string? name,
    ← required string? algorithm, ← defaulted none (option? string?) secret⟩

def Server.ofJson? (value : Json) : Option Server := do
  let [id, daemonType, version] ← fields? ["id", "daemon_type", "version"] value | none
  return ⟨← required string? id, ← defaulted none (option? string?) daemonType,
    ← defaulted none (option? string?) version⟩

end Zonecast.Zone
