/-
Looking registry records up. A record is put together from several tables, by one statement a
table, and other transactions may commit between the statements. So a lookup is a process over
single reading statements; run alone on some tables it is `answered` from them.

Numbers and addresses are checked when they are read: a row that no record can be made of is
reported as corrupt, with the name it was found under.
-/
import Zonecast.Registry.Lookup
import Zonecast.Registry.Upsert

namespace Zonecast

namespace Registry

/-! ### Statements -/

/-- A statement that reads. -/
inductive Query
  | tld (name : String)
  | domain (name : String)
  /-- The nameservers of a domain, by position and then by name. -/
  | nameservers (domain : String)
  /-- The DS data of a domain, by key tag, algorithm, digest type and digest. -/
  | signers (domain : String)
  /-- The names of the hosts under a domain, in order. -/
  | subordinateHosts (domain : String)
  | host (name : String)
  /-- The addresses of a host, by their text. -/
  | addresses (host : String)
  | registrar (id : String)
  /-- The addresses of the contacts of a registrar, in order. -/
  | contacts (registrar : String)
  deriving DecidableEq, Repr

/-- What a reading statement is answered with. -/
def Query.Rows : Query → Type
  | .tld _ => Option TldRow
  | .domain _ => Option DomainRow
  | .nameservers _ | .subordinateHosts _ | .addresses _ | .contacts _ => List String
  | .signers _ => List SignerRow
  | .host _ => Option HostRow
  | .registrar _ => Option RegistrarRow

end Registry

/-- The interface of the reading statements. -/
def Reading : Interface where
  Call := Registry.Query
  Reply := Registry.Query.Rows

namespace Registry

/-- Names in order. -/
def sortTexts (texts : List String) : List String :=
  texts.mergeSort fun first second => decide (first ≤ second)

/-- The order of nameservers. -/
def NameserverRow.le (first second : NameserverRow) : Bool :=
  if first.position = second.position then first.host ≤ second.host
  else first.position ≤ second.position

/-- The order of DS data. -/
def SignerRow.le (first second : SignerRow) : Bool :=
  if first.keyTag = second.keyTag then
    if first.algorithm = second.algorithm then
      if first.digestType = second.digestType then first.digest ≤ second.digest
      else first.digestType ≤ second.digestType
    else first.algorithm ≤ second.algorithm
  else first.keyTag ≤ second.keyTag

/-- What the tables answer a reading statement with. -/
def Tables.read (tables : Tables) : (query : Query) → query.Rows
  | .tld name => tables.tlds.find? fun row => row.name == name
  | .domain name => tables.domains.find? fun row => row.name == name
  | .nameservers domain =>
    ((tables.nameservers.filter fun row => row.domain == domain).mergeSort
      NameserverRow.le).map (·.host)
  | .signers domain =>
    (tables.signers.filter fun row => row.domain == domain).mergeSort SignerRow.le
  | .subordinateHosts domain =>
    sortTexts ((tables.hosts.filter fun row => row.superordinateDomain == some domain).map (·.name))
  | .host name => tables.hosts.find? fun row => row.name == name
  | .addresses host =>
    sortTexts ((tables.addresses.filter fun row => row.host == host).map (·.address))
  | .registrar id => tables.registrars.find? fun row => row.id == id
  | .contacts registrar =>
    sortTexts ((tables.contacts.filter fun row => row.registrar == registrar).map (·.email))

/-- One reading statement. -/
def ask (query : Query) : Process Reading query.Rows :=
  Process.perform (I := Reading) query

/-! ### Checking rows -/

/-- A stored number below a limit, or the report that names it. -/
def smallNumber (name what : String) (limit : Nat) (number : Int) : Except Error Nat :=
  if 0 ≤ number ∧ number < limit then .ok number.toNat
  else .error (.corrupt name (what ++ " " ++ toString number))

/-- The DS record of a row. -/
def SignerRow.signer (name : String) (row : SignerRow) : Except Error DelegationSigner := do
  let keyTag ← smallNumber name "DS key tag" 65536 row.keyTag
  let algorithm ← smallNumber name "DS algorithm" 256 row.algorithm
  let digestType ← smallNumber name "DS digest type" 256 row.digestType
  return ⟨UInt16.ofNat keyTag, UInt8.ofNat algorithm, UInt8.ofNat digestType, row.digest⟩

/-- The address that a stored text denotes. -/
def storedAddress (name text : String) : Except Error Address :=
  match Address.read? text with
  | some address => .ok address
  | none => .error (.corrupt name ("address '" ++ text ++ "'"))

/-! ### Lookups -/

/-- The shard count of a TLD. -/
def findShardCount (tld : String) : Process Reading (Except Error (Option Nat)) := do
  let found : Option TldRow ← ask (.tld (Name.bare tld))
  match found with
  | none => return .ok none
  | some row => return (smallNumber tld "publish_shards =" UInt32.size row.shards).map some

/-- A domain with its nameservers, its DS data and the hosts under it. -/
def findDomain (name : String) : Process Reading (Except Error (Option Domain)) := do
  let name := Name.bare name
  let found : Option DomainRow ← ask (.domain name)
  match found with
  | none => return .ok none
  | some row =>
    let nameservers : List String ← ask (.nameservers name)
    let signerRows : List SignerRow ← ask (.signers name)
    match signerRows.mapM (SignerRow.signer name) with
    | .error error => return .error error
    | .ok signers =>
      let hosts : List String ← ask (.subordinateHosts name)
      return .ok (some {
        name := row.name
        registrarId := row.registrarId
        publishable := row.publishable ≠ 0
        nameservers := nameservers
        signers := signers
        subordinateHosts := hosts })

/-- A host with its addresses. -/
def findHost (name : String) : Process Reading (Except Error (Option Host)) := do
  let name := Name.bare name
  let found : Option HostRow ← ask (.host name)
  match found with
  | none => return .ok none
  | some row =>
    let texts : List String ← ask (.addresses name)
    return (texts.mapM (storedAddress name)).map fun addresses =>
      some ⟨row.name, row.registrarId, addresses, row.superordinateDomain⟩

/-- A registrar with its contacts. -/
def findRegistrar (id : String) : Process Reading (Except Error (Option Registrar)) := do
  let found : Option RegistrarRow ← ask (.registrar id)
  match found with
  | none => return .ok none
  | some row =>
    let emails : List String ← ask (.contacts id)
    return .ok (some ⟨id, row.name, emails⟩)

/-- The names to be published again, in the order in which they were asked for. -/
def Tables.listRefreshes (tables : Tables) : List (RefreshKind × String) :=
  tables.refreshes.map fun row => (row.kind, row.name)

/-! ### The registry over tables -/

/-- What a call to the registry is answered with when nothing else happens meanwhile, and the
tables after it. -/
def Tables.serve (tables : Tables) : (request : Call) → Except Error (Value request) × Tables
  | .shardCount tld => ((findShardCount tld).answered tables.read, tables)
  | .domain name => ((findDomain name).answered tables.read, tables)
  | .host name => ((findHost name).answered tables.read, tables)
  | .registrar id => ((findRegistrar id).answered tables.read, tables)
  | .requestRefresh domains hosts now =>
    match tables.requestRefresh domains hosts now with
    | .ok after => (.ok (), after)
    | .error fault => (.error (.store fault), tables)

end Registry

end Zonecast
