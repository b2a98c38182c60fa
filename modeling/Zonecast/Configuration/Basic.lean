/-
The configuration: how to reach the zone backend and what the zones should look like, the times to
live of published records, the policy of deliveries, what failure mails are made of, and the
credentials of the queue.
-/
import Zonecast.Publish.Delivery
import Zonecast.Upkeep.Basic
import Zonecast.Writer.Delegation

namespace Zonecast

namespace Configuration

/-- The zone backend and its zones. -/
structure BackendSection where
  baseUrl : String
  apiKey : String
  serverId : String
  signing : Bool
  transferKeys : Bool
  rootNameservers : List String
  contact : String
  zoneTtl : UInt32
  /-- How long zone ids are remembered, in seconds. -/
  cacheHorizon : Nat
  deriving DecidableEq, Repr

/-- The policy of deliveries. -/
structure PublishSection where
  leaseSeconds : Nat
  retriesBeforeSplit : Nat
  retriesBeforeGivingUp : Nat
  queueUrl : String
  queueToken : Option String
  deriving DecidableEq, Repr

/-- The mail relay and the failure mails. -/
structure MailSection where
  relayUrl : String
  relayToken : Option String
  subject : String
  bodyTemplate : String
  registryName : String
  supportAddress : String
  operationsAddress : String
  deriving DecidableEq, Repr

/-- The credentials that the queue shows. -/
structure Credentials where
  username : String
  passwordHash : String
  deriving DecidableEq, Repr

end Configuration

open Zonecast.Configuration in
/-- The configuration. -/
structure Configuration where
  backend : BackendSection
  ttls : Writer.TimesToLive
  publish : PublishSection
  mail : MailSection
  queue : Credentials
  deriving DecidableEq, Repr

namespace Configuration

/-- The nameserver that the SOA sets name: the first one. -/
def BackendSection.primaryNameserver (backend : BackendSection) : String :=
  backend.rootNameservers.headD "."

/-- The longest time that zone ids may be remembered, in seconds: thirty days. -/
def longestHorizon : Nat := 30 * 24 * 3600

/-- How long zone ids are remembered, in milliseconds. -/
def BackendSection.horizonMillis (backend : BackendSection) : Nat :=
  min backend.cacheHorizon longestHorizon * 1000

/-- What every zone is expected to look like. -/
def defaults (configuration : Configuration) : Upkeep.Defaults where
  primaryNameserver := configuration.backend.primaryNameserver
  contact := configuration.backend.contact
  rootNameservers := configuration.backend.rootNameservers
  ttl := configuration.backend.zoneTtl
  signing := configuration.backend.signing
  transferKeys := configuration.backend.transferKeys

/-- What deliveries are set up with. -/
def delivery (configuration : Configuration) : Publish.Settings where
  leaseSeconds := configuration.publish.leaseSeconds
  retriesBeforeSplit := configuration.publish.retriesBeforeSplit
  retriesBeforeGivingUp := configuration.publish.retriesBeforeGivingUp
  mail := {
    subject := configuration.mail.subject
    bodyTemplate := configuration.mail.bodyTemplate
    registryName := configuration.mail.registryName
    supportAddress := configuration.mail.supportAddress
    operationsAddress := configuration.mail.operationsAddress }

/-- What the zone writer is set up with. -/
def writer (configuration : Configuration) : Writer.Settings :=
  ⟨configuration.defaults, configuration.ttls⟩

end Configuration

end Zonecast
