/-
Storing registry records. A TLD, a domain, a host and a registrar each take the place of what was
stored under their key, with everything that belongs to them: one transaction replaces the row and
the rows under it. Names are stored in their bare form, ids as they are given; of equal
nameservers, DS records, addresses and contacts the first is kept. Which hosts lie under a domain
is stored with the hosts, not with the domain.
-/
import Zonecast.Name.Basic
import Zonecast.Registry.Tables

namespace Zonecast.Registry

/-! ### Statements of a record -/

/-- The statements that store a TLD. -/
def tldWrites (tld : String) (shards : Int) : List Write :=
  [.insert .replace (.tld ⟨Name.bare tld, shards⟩)]

/-- The statements that store a domain with its nameservers, in their order, and its DS data. -/
def domainWrites (domain : Domain) : List Write :=
  let name := Name.bare domain.name
  [.insert .replace (.domain ⟨name, domain.registrarId, if domain.publishable then 1 else 0⟩),
    .clearNameservers name] ++
  (domain.nameservers.zipIdx.map fun (host, position) =>
    .insert .ignore (.nameserver ⟨name, Name.bare host, position⟩)) ++
  [.clearSigners name] ++
  domain.signers.map fun signer =>
    .insert .ignore (.signer ⟨name, signer.keyTag.toNat, signer.algorithm.toNat,
      signer.digestType.toNat, signer.digest⟩)

/-- The statements that store a host with its addresses. -/
def hostWrites (host : Host) : List Write :=
  let name := Name.bare host.name
  [.insert .replace (.host ⟨name, host.registrarId, host.superordinateDomain.map Name.bare⟩),
    .clearAddresses name] ++
  host.addresses.map fun address => .insert .ignore (.address ⟨name, address.text⟩)

/-- The statements that store a registrar with its contacts. -/
def registrarWrites (registrar : Registrar) : List Write :=
  [.insert .replace (.registrar ⟨registrar.id, registrar.name⟩), .clearContacts registrar.id] ++
  registrar.emails.map fun email => .insert .ignore (.contact ⟨registrar.id, email⟩)

/-- The statements that note names to be published again, the domains first. -/
def refreshWrites (domains hosts : List String) (now : Instant) : List Write :=
  (domains.map fun name => .insert .refuse (.refresh ⟨.domain, Name.bare name, now⟩)) ++
  hosts.map fun name => .insert .refuse (.refresh ⟨.host, Name.bare name, now⟩)

/-! ### Storing -/

namespace Tables

/-- Creates a TLD or changes its shard count. -/
def putTld (tables : Tables) (tld : String) (shards : Int) : Except StoreFault Tables :=
  tables.transact (tldWrites tld shards)

/-- Stores a domain. -/
def putDomain (tables : Tables) (domain : Domain) : Except StoreFault Tables :=
  tables.transact (domainWrites domain)

/-- Stores a host. -/
def putHost (tables : Tables) (host : Host) : Except StoreFault Tables :=
  tables.transact (hostWrites host)

/-- Stores a registrar. -/
def putRegistrar (tables : Tables) (registrar : Registrar) : Except StoreFault Tables :=
  tables.transact (registrarWrites registrar)

/-- Notes names to be published again. -/
def requestRefresh (tables : Tables) (domains hosts : List String) (now : Instant) :
    Except StoreFault Tables :=
  tables.transact (refreshWrites domains hosts now)

end Tables

end Zonecast.Registry
