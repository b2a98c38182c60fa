/-
Loading the configuration from TOML. Unknown settings are skipped. Names are brought into
canonical form before they are validated, and the first rule that is broken is told.
-/
import Zonecast.Configuration.Basic
import Zonecast.Name.Grammar
import Zonecast.Toml.Reader
import Zonecast.Toml.Record

namespace Zonecast.Configuration

open Zonecast.Toml (fields? required defaulted optional string? boolean? count? uint32? list?)

/-! ### Records -/

def BackendSection.ofToml? (value : Toml) : Option BackendSection := do
  let [baseUrl, apiKey, serverId, signing, transferKeys, rootNameservers, contact, zoneTtl,
      cacheHorizon] ← fields? ["base_url", "api_key", "server_id", "dnssec_enabled",
        "tsig_enabled", "root_nameservers", "soa_contact", "default_zone_ttl",
        "zone_cache_horizon_secs"] value | none
  return {
    baseUrl := ← required string? baseUrl
    apiKey := ← defaulted "" string? apiKey
    serverId := ← defaulted "localhost" string? serverId
    signing := ← defaulted false boolean? signing
    transferKeys := ← defaulted false boolean? transferKeys
    rootNameservers := ← required (list? string?) rootNameservers
    contact := ← required string? contact
    zoneTtl := ← defaulted 3600 uint32? zoneTtl
    cacheHorizon := ← defaulted 3600 (count? UInt64.size) cacheHorizon }

def ttlsOfToml? (value : Toml) : Option Writer.TimesToLive := do
  let [address, nameserver, signer] ← fields? ["a_ttl", "ns_ttl", "ds_ttl"] value | none
  return {
    address := ← defaulted 3600 uint32? address
    nameserver := ← defaulted 10800 uint32? nameserver
    signer := ← defaulted 3600 uint32? signer }

def PublishSection.ofToml? (value : Toml) : Option PublishSection := do
  let [leaseSeconds, retriesBeforeSplit, retriesBeforeGivingUp, queueUrl, queueToken] ←
    fields? ["lock_lease_secs", "retries_before_split", "retries_before_permanent_failure",
      "task_queue_url", "task_queue_token"] value | none
  return {
    leaseSeconds := ← defaulted 180 (count? UInt64.size) leaseSeconds
    retriesBeforeSplit := ← defaulted 3 (count? UInt32.size) retriesBeforeSplit
    retriesBeforeGivingUp := ← defaulted 20 (count? UInt32.size) retriesBeforeGivingUp
    queueUrl := ← required string? queueUrl
    queueToken := ← optional string? queueToken }

def MailSection.ofToml? (value : Toml) : Option MailSection := do
  let [relayUrl, relayToken, subject, bodyTemplate, registryName, supportAddress,
      operationsAddress] ← fields? ["relay_url", "relay_token", "subject", "body_template",
        "registry_name", "support_email", "bcc_email"] value | none
  return {
    relayUrl := ← required string? relayUrl
    relayToken := ← optional string? relayToken
    subject := ← required string? subject
    bodyTemplate := ← required string? bodyTemplate
    registryName := ← required string? registryName
    supportAddress := ← required string? supportAddress
    operationsAddress := ← required string? operationsAddress }

def Credentials.ofToml? (value : Toml) : Option Credentials := do
  let [username, passwordHash] ← fields? ["username", "password_hash"] value | none
  return ⟨← required string? username, ← required string? passwordHash⟩

/-- The settings as written. -/
def ofToml? (value : Toml) : Option Configuration := do
  let [backend, ttls, publish, mail, queue] ←
    fields? ["powerdns", "dns", "publish", "email", "queue_auth"] value | none
  return {
    backend := ← required BackendSection.ofToml? backend
    ttls := ← defaulted ⟨3600, 10800, 3600⟩ ttlsOfToml? ttls
    publish := ← required PublishSection.ofToml? publish
    mail := ← required MailSection.ofToml? mail
    queue := ← required Credentials.ofToml? queue }

/-! ### Validation -/

/-- A rule that a configuration breaks. -/
inductive Fault
  | noRootNameserver
  | rootNameserver (name : String) (fault : Name.Fault)
  | contact (name : String) (fault : Name.Fault)
  | zeroTtl
  | horizonTooLong
  | leaseTooShort
  | retriesOutOfOrder
  deriving DecidableEq, Repr

/-- The longest time that a request to the backend may take, in seconds. -/
def requestTimeout : Nat := 60

/-- The longest lease that is refused, in seconds: a request to the backend must fit into what the
deadline leaves of a lease. -/
def tooShortLease : Nat := requestTimeout + Publish.leaseMargin

/-- The wording of a broken rule. -/
def Fault.message : Fault → String
  | .noRootNameserver => "powerdns.root_nameservers needs at least one entry"
  | .rootNameserver name fault => "root nameserver '" ++ name ++ "': " ++ fault.message
  | .contact name fault => "soa_contact '" ++ name ++ "': " ++ fault.message
  | .zeroTtl => "default_zone_ttl must be positive"
  | .horizonTooLong => "zone_cache_horizon_secs must not exceed " ++ toString longestHorizon
  | .leaseTooShort =>
    "lock_lease_secs must exceed " ++ toString tooShortLease ++
      " so a backend call fits into the lease"
  | .retriesOutOfOrder =>
    "retries_before_split must not exceed retries_before_permanent_failure"

/-- The names in canonical form. -/
def canonical (written : Configuration) : Configuration :=
  { written with
    backend := { written.backend with
      rootNameservers := written.backend.rootNameservers.map Name.canonical
      contact := Name.canonical written.backend.contact } }

/-- Validates a name. -/
def checkName (fault : String → Name.Fault → Fault) (name : String) : Except Fault Unit :=
  (Name.validate name).mapError (fault name)

/-- Validates a configuration with names in canonical form. -/
def check (configuration : Configuration) : Except Fault Unit := do
  if configuration.backend.rootNameservers.isEmpty then throw .noRootNameserver
  configuration.backend.rootNameservers.forM (checkName .rootNameserver)
  checkName .contact configuration.backend.contact
  if configuration.backend.zoneTtl = 0 then throw .zeroTtl
  if longestHorizon < configuration.backend.cacheHorizon then throw .horizonTooLong
  if configuration.publish.leaseSeconds ≤ tooShortLease then throw .leaseTooShort
  if configuration.publish.retriesBeforeGivingUp < configuration.publish.retriesBeforeSplit then
    throw .retriesOutOfOrder

/-! ### Loading -/

/-- Why a configuration is not loaded. -/
inductive Error
  /-- The text is no TOML, or a setting is missing or of the wrong kind. -/
  | unreadable
  | invalid (fault : Fault)
  deriving DecidableEq, Repr

/-- The wording of a failure. What exactly is unreadable is not part of it. -/
def Error.message : Error → String
  | .unreadable => "failed to parse configuration"
  | .invalid fault => "invalid configuration: " ++ fault.message

/-- Loads a configuration. -/
def load (text : String) : Except Error Configuration :=
  match (Toml.read? text).bind ofToml? with
  | none => .error .unreadable
  | some written =>
    match check written.canonical with
    | .error fault => .error (.invalid fault)
    | .ok () => .ok written.canonical

end Zonecast.Configuration
