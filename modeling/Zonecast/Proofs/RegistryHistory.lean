/-
Sequences of transactions on the registry. Records are stored one after another, and some of the
transactions fail, by a rule of the tables or by a fault of the store; one that fails is rolled
back. The edits that succeeded are the history of the registry, and whatever was found in the
tables before an edit, what is found after it is settled by the edit under its own key. So the
rows found under a key are those that the latest edit of it stored.

Which hosts are under a domain is settled by no single edit: the hosts say so, each in its own
row. All that is needed of them is that no two rows have the same name.
-/
import Zonecast.Proofs.RegistryTables
import Zonecast.Registry.Find

namespace Zonecast.Registry

open Zonecast.Text

/-! ### Edits -/

/-- An edit of what the registry holds. -/
inductive Edit
  | tld (name : String) (shards : UInt32)
  | domain (domain : Domain)
  | host (host : Host)
  | registrar (registrar : Registrar)
  | refresh (domains hosts : List String) (now : Instant)
  deriving DecidableEq, Repr

namespace Edit

/-- The shard count that an edit stores under a TLD. -/
def shardsOf (key : String) : Edit → Option UInt32
  | .tld name shards => if Name.bare name = key then some shards else none
  | _ => none

/-- The domain that an edit stores under a name. -/
def domainOf (key : String) : Edit → Option Domain
  | .domain record => if Name.bare record.name = key then some record else none
  | _ => none

/-- The host that an edit stores under a name. -/
def hostOf (key : String) : Edit → Option Host
  | .host record => if Name.bare record.name = key then some record else none
  | _ => none

/-- The registrar that an edit stores under an id. -/
def registrarOf (key : String) : Edit → Option Registrar
  | .registrar record => if record.id = key then some record else none
  | _ => none

theorem eq_of_domainOf {key : String} {edit : Edit} {domain : Domain}
    (stored : edit.domainOf key = some domain) :
    edit = .domain domain ∧ Name.bare domain.name = key := by
  cases edit with
  | domain record =>
    rw [domainOf, Option.ite_none_right_eq_some] at stored
    exact ⟨congrArg _ (Option.some.inj stored.2), Option.some.inj stored.2 ▸ stored.1⟩
  | _ => cases stored

theorem eq_of_hostOf {key : String} {edit : Edit} {host : Host}
    (stored : edit.hostOf key = some host) :
    edit = .host host ∧ Name.bare host.name = key := by
  cases edit with
  | host record =>
    rw [hostOf, Option.ite_none_right_eq_some] at stored
    exact ⟨congrArg _ (Option.some.inj stored.2), Option.some.inj stored.2 ▸ stored.1⟩
  | _ => cases stored

theorem eq_of_registrarOf {key : String} {edit : Edit} {registrar : Registrar}
    (stored : edit.registrarOf key = some registrar) :
    edit = .registrar registrar ∧ registrar.id = key := by
  cases edit with
  | registrar record =>
    rw [registrarOf, Option.ite_none_right_eq_some] at stored
    exact ⟨congrArg _ (Option.some.inj stored.2), Option.some.inj stored.2 ▸ stored.1⟩
  | _ => cases stored

/-- The names that an edit asks to be published again, the domains first. -/
def refreshes : Edit → List (RefreshKind × String)
  | .refresh domains hosts _ =>
    (domains.map fun name => (.domain, Name.bare name)) ++
      hosts.map fun name => (.host, Name.bare name)
  | _ => []

end Edit

/-- Carries an edit out. -/
def Tables.apply (tables : Tables) : Edit → Except StoreFault Tables
  | .tld name shards => tables.putTld name shards.toNat
  | .domain domain => tables.putDomain domain
  | .host host => tables.putHost host
  | .registrar registrar => tables.putRegistrar registrar
  | .refresh domains hosts now => tables.requestRefresh domains hosts now

/-! ### Sequences of transactions -/

/-- A transaction that is begun. -/
structure Attempt where
  edit : Edit
  /-- The fault of the store that breaks the transaction off, if there is one. -/
  outage : Option StoreFault
  deriving DecidableEq, Repr

/-- How a transaction ends, and the tables after it. One that fails is rolled back. -/
def Tables.attempt (tables : Tables) (attempt : Attempt) : Except StoreFault Unit × Tables :=
  match attempt.outage with
  | some fault => (.error fault, tables)
  | none =>
    match tables.apply attempt.edit with
    | .ok after => (.ok (), after)
    | .error fault => (.error fault, tables)

/-- The edits that succeeded among a sequence of transactions, oldest first, and the tables
after it. -/
def course (attempts : List Attempt) : List Edit × Tables :=
  attempts.foldl
    (fun (history, tables) attempt =>
      let (result, after) := tables.attempt attempt
      (if result.isOk then history ++ [attempt.edit] else history, after))
    ([], Tables.empty)

/-- What the last of the edits that select something selects. -/
def latest {α : Type} (select : Edit → Option α) (history : List Edit) : Option α :=
  history.reverse.findSome? select

section Latest

variable {α : Type} {select : Edit → Option α}

theorem latest_concat (history : List Edit) (edit : Edit) :
    latest select (history ++ [edit]) = (select edit).or (latest select history) := by
  rw [latest, List.reverse_append, List.findSome?_append, List.reverse_singleton,
    List.findSome?_singleton]
  rfl

theorem exists_of_latest {history : List Edit} {value : α}
    (found : latest select history = some value) :
    ∃ edit ∈ history, select edit = some value := by
  obtain ⟨edit, member, selects⟩ := List.exists_of_findSome?_eq_some found
  exact ⟨edit, List.mem_reverse.mp member, selects⟩

end Latest

/-! ### Tables after an edit -/

/-- What is found under each key after an edit is what the edit stores there, and what was
found before where it stores nothing. -/
structure Settles (edit : Edit) (tables after : Tables) : Prop where
  tld : ∀ key, (after.tlds.find? fun row => row.name == key) =
    ((edit.shardsOf key).map fun shards => ⟨key, shards.toNat⟩).or
      (tables.tlds.find? fun row => row.name == key)
  domain : ∀ key, (after.domains.find? fun row => row.name == key) =
    ((edit.domainOf key).map domainRow).or (tables.domains.find? fun row => row.name == key)
  nameservers : ∀ key, (after.nameservers.filter fun row => row.domain == key) =
    ((edit.domainOf key).map fun domain =>
      firsts (fun row => (row.domain, row.host)) (nameserverRows domain)).getD
        (tables.nameservers.filter fun row => row.domain == key)
  signers : ∀ key, (after.signers.filter fun row => row.domain == key) =
    ((edit.domainOf key).map fun domain => firsts id (signerRows domain)).getD
      (tables.signers.filter fun row => row.domain == key)
  host : ∀ key, (after.hosts.find? fun row => row.name == key) =
    ((edit.hostOf key).map hostRow).or (tables.hosts.find? fun row => row.name == key)
  addresses : ∀ key, (after.addresses.filter fun row => row.host == key) =
    ((edit.hostOf key).map fun host => firsts id (addressRows host)).getD
      (tables.addresses.filter fun row => row.host == key)
  registrar : ∀ key, (after.registrars.find? fun row => row.id == key) =
    ((edit.registrarOf key).map fun registrar => ⟨registrar.id, registrar.name⟩).or
      (tables.registrars.find? fun row => row.id == key)
  contacts : ∀ key, (after.contacts.filter fun row => row.registrar == key) =
    ((edit.registrarOf key).map fun registrar => firsts id (contactRows registrar)).getD
      (tables.contacts.filter fun row => row.registrar == key)
  hosts : (tables.hosts.map HostRow.name).Nodup → (after.hosts.map HostRow.name).Nodup
  refreshes : after.listRefreshes = tables.listRefreshes ++ edit.refreshes

section Selected

variable {α ρ : Type} {name key : String} {value : α}

/-- A row found under a key after one was put in. -/
theorem find?_replaced_or (parent : ρ → String) (make : α → ρ) (rows : List ρ)
    (own : parent (make value) = name) :
    ((replaced parent (make value) rows).find? fun row => parent row == key) =
      ((if name = key then some value else none).map make).or
        (rows.find? fun row => parent row == key) := by
  rw [find?_replaced, own]
  by_cases same : name = key <;> simp [same]

/-- The rows found under a parent after those under one were replaced. -/
theorem filter_replaced_getD (parent : ρ → String) (make : α → List ρ) (rows : List ρ)
    (under : ∀ row ∈ make value, parent row = name) :
    ((rows.filter fun row => parent row != name) ++ make value).filter
        (fun row => parent row == key) =
      ((if name = key then some value else none).map make).getD
        (rows.filter fun row => parent row == key) := by
  rw [filter_replaced under]
  by_cases same : name = key <;> simp [same]

end Selected

variable {tables after : Tables}

theorem settles_tld {name : String} {shards : UInt32}
    (stored : tables.putTld name shards.toNat = .ok after) :
    Settles (.tld name shards) tables after := by
  rw [Tables.putTld_eq] at stored
  split at stored
  · obtain rfl := Except.ok.inj stored
    refine ⟨fun key => ?_, fun _ => rfl, fun _ => rfl, fun _ => rfl, fun _ => rfl, fun _ => rfl,
      fun _ => rfl, fun _ => rfl, id, (List.append_nil _).symm⟩
    rw [Edit.shardsOf, find?_replaced]
    by_cases same : Name.bare name = key <;> simp [same]
  · cases stored

theorem settles_domain {domain : Domain} (stored : tables.putDomain domain = .ok after) :
    Settles (.domain domain) tables after := by
  rw [Tables.putDomain_eq] at stored
  obtain rfl := Except.ok.inj stored
  refine ⟨fun _ => rfl, fun key => ?_, fun key => ?_, fun key => ?_, fun _ => rfl, fun _ => rfl,
    fun _ => rfl, fun _ => rfl, id, (List.append_nil _).symm⟩
  · rw [Edit.domainOf]
    exact find?_replaced_or DomainRow.name domainRow tables.domains rfl
  · rw [Edit.domainOf]
    exact filter_replaced_getD NameserverRow.domain
      (fun domain => firsts (fun row => (row.domain, row.host)) (nameserverRows domain))
      tables.nameservers
      fun row member => domain_of_mem_nameserverRows ((firsts_sublist _ _).subset member)
  · rw [Edit.domainOf]
    exact filter_replaced_getD SignerRow.domain (fun domain => firsts id (signerRows domain))
      tables.signers fun row member => domain_of_mem_signerRows ((firsts_sublist _ _).subset member)

theorem settles_host {host : Host} (stored : tables.putHost host = .ok after) :
    Settles (.host host) tables after := by
  rw [Tables.putHost_eq] at stored
  obtain rfl := Except.ok.inj stored
  refine ⟨fun _ => rfl, fun _ => rfl, fun _ => rfl, fun _ => rfl, fun key => ?_, fun key => ?_,
    fun _ => rfl, fun _ => rfl, nodup_replaced HostRow.name, (List.append_nil _).symm⟩
  · rw [Edit.hostOf]
    exact find?_replaced_or HostRow.name hostRow tables.hosts rfl
  · rw [Edit.hostOf]
    exact filter_replaced_getD AddressRow.host (fun host => firsts id (addressRows host))
      tables.addresses
      fun row member => host_of_mem_addressRows ((firsts_sublist _ _).subset member)

theorem settles_registrar {registrar : Registrar}
    (stored : tables.putRegistrar registrar = .ok after) :
    Settles (.registrar registrar) tables after := by
  rw [Tables.putRegistrar_eq] at stored
  obtain rfl := Except.ok.inj stored
  refine ⟨fun _ => rfl, fun _ => rfl, fun _ => rfl, fun _ => rfl, fun _ => rfl, fun _ => rfl,
    fun key => ?_, fun key => ?_, id, (List.append_nil _).symm⟩
  · rw [Edit.registrarOf]
    exact find?_replaced_or RegistrarRow.id
      (fun registrar : Registrar => ⟨registrar.id, registrar.name⟩) tables.registrars rfl
  · rw [Edit.registrarOf]
    exact filter_replaced_getD ContactRow.registrar
      (fun registrar => firsts id (contactRows registrar)) tables.contacts
      fun row member => registrar_of_mem_contactRows ((firsts_sublist _ _).subset member)

theorem settles_refresh {domains hosts : List String} {now : Instant}
    (stored : tables.requestRefresh domains hosts now = .ok after) :
    Settles (.refresh domains hosts now) tables after := by
  rw [Tables.requestRefresh_eq] at stored
  obtain rfl := Except.ok.inj stored
  refine ⟨fun _ => rfl, fun _ => rfl, fun _ => rfl, fun _ => rfl, fun _ => rfl, fun _ => rfl,
    fun _ => rfl, fun _ => rfl, id, ?_⟩
  simp [Tables.listRefreshes, Tables.refreshRows, Edit.refreshes, Function.comp_def]

/-- An edit that is carried out settles what is found under its key. -/
theorem settles_of_apply {edit : Edit} (applied : tables.apply edit = .ok after) :
    Settles edit tables after := by
  cases edit with
  | tld name shards => exact settles_tld applied
  | domain domain => exact settles_domain applied
  | host host => exact settles_host applied
  | registrar registrar => exact settles_registrar applied
  | refresh domains hosts now => exact settles_refresh applied

/-! ### Tables after a sequence of edits -/

/-- What is found under each key is what the latest edit of it stored. -/
structure Records (history : List Edit) (tables : Tables) : Prop where
  tld : ∀ key, (tables.tlds.find? fun row => row.name == key) =
    (latest (Edit.shardsOf key) history).map fun shards => ⟨key, shards.toNat⟩
  domain : ∀ key, (tables.domains.find? fun row => row.name == key) =
    (latest (Edit.domainOf key) history).map domainRow
  nameservers : ∀ key, (tables.nameservers.filter fun row => row.domain == key) =
    ((latest (Edit.domainOf key) history).map fun domain =>
      firsts (fun row => (row.domain, row.host)) (nameserverRows domain)).getD []
  signers : ∀ key, (tables.signers.filter fun row => row.domain == key) =
    ((latest (Edit.domainOf key) history).map fun domain =>
      firsts id (signerRows domain)).getD []
  host : ∀ key, (tables.hosts.find? fun row => row.name == key) =
    (latest (Edit.hostOf key) history).map hostRow
  addresses : ∀ key, (tables.addresses.filter fun row => row.host == key) =
    ((latest (Edit.hostOf key) history).map fun host => firsts id (addressRows host)).getD []
  registrar : ∀ key, (tables.registrars.find? fun row => row.id == key) =
    (latest (Edit.registrarOf key) history).map fun registrar => ⟨registrar.id, registrar.name⟩
  contacts : ∀ key, (tables.contacts.filter fun row => row.registrar == key) =
    ((latest (Edit.registrarOf key) history).map fun registrar =>
      firsts id (contactRows registrar)).getD []
  hosts : (tables.hosts.map HostRow.name).Nodup
  refreshes : tables.listRefreshes = history.flatMap Edit.refreshes

theorem records_empty : Records [] Tables.empty :=
  ⟨fun _ => rfl, fun _ => rfl, fun _ => rfl, fun _ => rfl, fun _ => rfl, fun _ => rfl, fun _ => rfl,
    fun _ => rfl, List.nodup_nil, rfl⟩

/-- One edit more. -/
theorem Records.concat {history : List Edit} {edit : Edit} (records : Records history tables)
    (settles : Settles edit tables after) : Records (history ++ [edit]) after where
  tld key := by rw [settles.tld, records.tld, latest_concat, Option.map_or]
  domain key := by rw [settles.domain, records.domain, latest_concat, Option.map_or]
  nameservers key := by
    rw [settles.nameservers, records.nameservers, latest_concat, Option.map_or, Option.getD_or]
  signers key := by
    rw [settles.signers, records.signers, latest_concat, Option.map_or, Option.getD_or]
  host key := by rw [settles.host, records.host, latest_concat, Option.map_or]
  addresses key := by
    rw [settles.addresses, records.addresses, latest_concat, Option.map_or, Option.getD_or]
  registrar key := by rw [settles.registrar, records.registrar, latest_concat, Option.map_or]
  contacts key := by
    rw [settles.contacts, records.contacts, latest_concat, Option.map_or, Option.getD_or]
  hosts := settles.hosts records.hosts
  refreshes := by
    rw [settles.refreshes, records.refreshes, List.flatMap_append, List.flatMap_singleton]

/-- A transaction that fails leaves the tables as they are, one that succeeds is recorded. -/
theorem Records.attempt {history : List Edit} (records : Records history tables)
    (attempt : Attempt) :
    Records (if (tables.attempt attempt).1.isOk then history ++ [attempt.edit] else history)
      (tables.attempt attempt).2 := by
  unfold Tables.attempt
  cases attempt.outage with
  | some fault => exact records
  | none =>
    cases applied : tables.apply attempt.edit with
    | error fault => exact records
    | ok after => exact records.concat (settles_of_apply applied)

/-- Whatever the sequence of transactions, the tables hold what the successful ones stored. -/
theorem records_course (attempts : List Attempt) :
    Records (course attempts).1 (course attempts).2 := by
  induction attempts using List.reverseRecOn with
  | nil => exact records_empty
  | append_singleton attempts attempt inductionHypothesis =>
    rw [course, List.foldl_append, List.foldl_cons, List.foldl_nil]
    exact inductionHypothesis.attempt attempt

end Zonecast.Registry
