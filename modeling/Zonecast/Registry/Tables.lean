/-
The tables of the registry. A row is known by its key, and no table holds two rows of one key.
Nameservers and DS data belong to a domain, addresses to a host and contacts to a registrar: such
a row is only taken while its parent is there, and goes when its parent goes. A TLD has at least
one shard.

A statement that breaks a rule changes nothing. Of the rules that a row breaks, the one on its own
values counts first, then the one on its key, then the one on its parent. A transaction is a list
of statements that take effect together or not at all.
-/
import Zonecast.Registry.Basic
import Zonecast.Time.Instant

namespace Zonecast.Registry

/-! ### Rows -/

structure TldRow where
  name : String
  shards : Int
  deriving DecidableEq, Repr

structure DomainRow where
  name : String
  registrarId : String
  /-- Zero while the domain is kept out of the zone. -/
  publishable : Int
  deriving DecidableEq, Repr

/-- A nameserver of a domain, with its place among them. -/
structure NameserverRow where
  domain : String
  host : String
  position : Int
  deriving DecidableEq, Repr

/-- A DS record of a domain. The table takes numbers of any size. -/
structure SignerRow where
  domain : String
  keyTag : Int
  algorithm : Int
  digestType : Int
  digest : String
  deriving DecidableEq, Repr

structure HostRow where
  name : String
  registrarId : String
  superordinateDomain : Option String
  deriving DecidableEq, Repr

/-- An address of a host. The table takes any text. -/
structure AddressRow where
  host : String
  address : String
  deriving DecidableEq, Repr

structure RegistrarRow where
  id : String
  name : String
  deriving DecidableEq, Repr

structure ContactRow where
  registrar : String
  email : String
  deriving DecidableEq, Repr

/-- What a name to be published again is the name of. -/
inductive RefreshKind
  | domain
  | host
  deriving DecidableEq, Repr

/-- A name to be published again. -/
structure RefreshRow where
  kind : RefreshKind
  name : String
  requestedAt : Instant
  deriving DecidableEq, Repr

/-- A row of one of the tables. -/
inductive Row
  | tld (row : TldRow)
  | domain (row : DomainRow)
  | nameserver (row : NameserverRow)
  | signer (row : SignerRow)
  | host (row : HostRow)
  | address (row : AddressRow)
  | registrar (row : RegistrarRow)
  | contact (row : ContactRow)
  | refresh (row : RefreshRow)
  deriving DecidableEq, Repr

/-- What the tables hold. Requests to publish again are in the order in which they were made. -/
structure Tables where
  tlds : List TldRow
  domains : List DomainRow
  nameservers : List NameserverRow
  signers : List SignerRow
  hosts : List HostRow
  addresses : List AddressRow
  registrars : List RegistrarRow
  contacts : List ContactRow
  refreshes : List RefreshRow
  deriving DecidableEq, Repr

/-! ### Statements -/

/-- What an insertion does where the table has a row of that key. -/
inductive OnConflict
  | refuse
  | ignore
  | replace
  deriving DecidableEq, Repr

/-- A statement that writes. -/
inductive Write
  | insert (conflict : OnConflict) (row : Row)
  /-- Deletes the nameservers of a domain. -/
  | clearNameservers (domain : String)
  /-- Deletes the DS data of a domain. -/
  | clearSigners (domain : String)
  /-- Deletes the addresses of a host. -/
  | clearAddresses (host : String)
  /-- Deletes the contacts of a registrar. -/
  | clearContacts (registrar : String)
  | setPublishable (domain : String) (value : Int)
  | deleteDomain (name : String)
  | deleteHost (name : String)
  | deleteRegistrar (id : String)
  deriving DecidableEq, Repr

/-- A row put into its table, and how many rows that changes. -/
def place {ρ κ : Type} [BEq κ] (key : ρ → κ) (conflict : OnConflict) (row : ρ) (rows : List ρ) :
    Except StoreFault (Nat × List ρ) :=
  if rows.any fun other => key other == key row then
    match conflict with
    | .refuse => .error .uniqueViolation
    | .ignore => .ok (0, rows)
    | .replace => .ok (1, rows.map fun other => if key other == key row then row else other)
  else .ok (1, rows ++ [row])

/-- Fails unless a rule holds. -/
def demand (fault : StoreFault) (holds : Bool) : Except StoreFault Unit :=
  if holds then .ok () else .error fault

namespace Tables

/-- Nothing held. -/
def empty : Tables := ⟨[], [], [], [], [], [], [], [], []⟩

/-- Whether there is a domain of this name. -/
def hasDomain (tables : Tables) (name : String) : Bool :=
  tables.domains.any fun row => row.name == name

/-- Whether there is a host of this name. -/
def hasHost (tables : Tables) (name : String) : Bool :=
  tables.hosts.any fun row => row.name == name

/-- Whether there is a registrar of this id. -/
def hasRegistrar (tables : Tables) (id : String) : Bool :=
  tables.registrars.any fun row => row.id == id

/-- Inserts a row. -/
def insert (tables : Tables) (conflict : OnConflict) : Row → Except StoreFault (Nat × Tables)
  | .tld row => do
    demand .checkViolation (1 ≤ row.shards)
    let (count, rows) ← place TldRow.name conflict row tables.tlds
    return (count, { tables with tlds := rows })
  | .domain row => do
    let (count, rows) ← place DomainRow.name conflict row tables.domains
    return (count, { tables with domains := rows })
  | .nameserver row => do
    let (count, rows) ← place (fun row => (row.domain, row.host)) conflict row tables.nameservers
    demand .foreignKeyViolation (tables.hasDomain row.domain)
    return (count, { tables with nameservers := rows })
  | .signer row => do
    let (count, rows) ← place id conflict row tables.signers
    demand .foreignKeyViolation (tables.hasDomain row.domain)
    return (count, { tables with signers := rows })
  | .host row => do
    let (count, rows) ← place HostRow.name conflict row tables.hosts
    return (count, { tables with hosts := rows })
  | .address row => do
    let (count, rows) ← place id conflict row tables.addresses
    demand .foreignKeyViolation (tables.hasHost row.host)
    return (count, { tables with addresses := rows })
  | .registrar row => do
    let (count, rows) ← place RegistrarRow.id conflict row tables.registrars
    return (count, { tables with registrars := rows })
  | .contact row => do
    let (count, rows) ← place id conflict row tables.contacts
    demand .foreignKeyViolation (tables.hasRegistrar row.registrar)
    return (count, { tables with contacts := rows })
  | .refresh row => .ok (1, { tables with refreshes := tables.refreshes ++ [row] })

/-- Runs a statement. Answers how many rows of its own table it changes, and the tables. -/
def write (tables : Tables) : Write → Except StoreFault (Nat × Tables)
  | .insert conflict row => tables.insert conflict row
  | .clearNameservers domain =>
    .ok (tables.nameservers.countP fun row => row.domain == domain,
      { tables with nameservers := tables.nameservers.filter fun row => row.domain != domain })
  | .clearSigners domain =>
    .ok (tables.signers.countP fun row => row.domain == domain,
      { tables with signers := tables.signers.filter fun row => row.domain != domain })
  | .clearAddresses host =>
    .ok (tables.addresses.countP fun row => row.host == host,
      { tables with addresses := tables.addresses.filter fun row => row.host != host })
  | .clearContacts registrar =>
    .ok (tables.contacts.countP fun row => row.registrar == registrar,
      { tables with contacts := tables.contacts.filter fun row => row.registrar != registrar })
  | .setPublishable domain value =>
    .ok (tables.domains.countP fun row => row.name == domain,
      { tables with
        domains := tables.domains.map fun row =>
          if row.name == domain then { row with publishable := value } else row })
  | .deleteDomain name =>
    .ok (tables.domains.countP fun row => row.name == name,
      { tables with
        domains := tables.domains.filter fun row => row.name != name
        nameservers := tables.nameservers.filter fun row => row.domain != name
        signers := tables.signers.filter fun row => row.domain != name })
  | .deleteHost name =>
    .ok (tables.hosts.countP fun row => row.name == name,
      { tables with
        hosts := tables.hosts.filter fun row => row.name != name
        addresses := tables.addresses.filter fun row => row.host != name })
  | .deleteRegistrar id =>
    .ok (tables.registrars.countP fun row => row.id == id,
      { tables with
        registrars := tables.registrars.filter fun row => row.id != id
        contacts := tables.contacts.filter fun row => row.registrar != id })

/-! ### Transactions -/

/-- Runs statements together: the tables after all of them, or the first failure. -/
def transact (tables : Tables) : List Write → Except StoreFault Tables
  | [] => .ok tables
  | statement :: rest => do
    let (_, tables) ← tables.write statement
    tables.transact rest

end Tables

end Zonecast.Registry
