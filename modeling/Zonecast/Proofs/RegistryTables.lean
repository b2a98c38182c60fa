/-
What a transaction of the registry leaves in the tables. A record is spread over a row of its own
and the rows under it, and storing it replaces both: the row by its key, the rows under it all at
once, the first of equals being kept. None of these transactions can fail by a rule of the tables
but the one that stores a TLD without a shard: rows under a parent are added in the transaction
that has just stored the parent, and nothing is added twice.
-/
import Mathlib.Data.List.Perm.Basic
import Zonecast.Proofs.Distinct
import Zonecast.Registry.Upsert

namespace Zonecast.Registry

open Zonecast.Text

/-! ### Rows by their keys -/

section Rows

variable {ρ κ : Type} [BEq κ] (key : ρ → κ)

/-- A row put in the place of the one with its key, or behind all rows. -/
def replaced (row : ρ) (rows : List ρ) : List ρ :=
  if rows.any fun other => key other == key row then
    rows.map fun other => if key other == key row then row else other
  else rows ++ [row]

/-- A row put behind all rows, unless there is one with its key. -/
def added (rows : List ρ) (row : ρ) : List ρ :=
  if rows.any fun other => key other == key row then rows else rows ++ [row]

/-- The first of the rows with each key. -/
def firsts (rows : List ρ) : List ρ :=
  rows.foldl (added key) []

theorem place_replace (row : ρ) (rows : List ρ) :
    place key .replace row rows = .ok (1, replaced key row rows) := by
  unfold place replaced
  split <;> rfl

theorem place_ignore (row : ρ) (rows : List ρ) :
    ∃ count, place key .ignore row rows = .ok (count, added key rows row) := by
  unfold place added
  split
  · exact ⟨0, rfl⟩
  · exact ⟨1, rfl⟩

theorem mem_replaced (row : ρ) (rows : List ρ) : row ∈ replaced key row rows := by
  unfold replaced
  split
  · rename_i present
    obtain ⟨other, member, same⟩ := List.any_eq_true.mp present
    exact List.mem_map.mpr ⟨other, member, if_pos same⟩
  · exact List.mem_append_right _ (List.mem_singleton_self row)

theorem firsts_concat (rows : List ρ) (last : ρ) :
    firsts key (rows ++ [last]) = added key (firsts key rows) last := by
  rw [firsts, List.foldl_append]
  rfl

theorem firsts_sublist (rows : List ρ) : (firsts key rows).Sublist rows := by
  induction rows using List.reverseRecOn with
  | nil => exact List.Sublist.refl _
  | append_singleton rows last inductionHypothesis =>
    rw [firsts_concat, added]
    split
    · exact inductionHypothesis.trans (List.sublist_append_left _ _)
    · exact inductionHypothesis.append (List.Sublist.refl _)

variable [LawfulBEq κ]

theorem any_key_iff (rows : List ρ) (row : ρ) :
    (rows.any fun other => key other == key row) = true ↔ key row ∈ rows.map key := by
  simp [List.any_eq_true, List.mem_map]

theorem any_replaced (row : ρ) (rows : List ρ) :
    ((replaced key row rows).any fun other => key other == key row) = true :=
  List.any_eq_true.mpr ⟨row, mem_replaced key row rows, beq_self_eq_true _⟩

theorem map_key_replaced (row : ρ) (rows : List ρ) :
    (replaced key row rows).map key =
      if key row ∈ rows.map key then rows.map key else rows.map key ++ [key row] := by
  unfold replaced
  by_cases present : key row ∈ rows.map key
  · rw [if_pos present, if_pos ((any_key_iff key rows row).mpr present), List.map_map]
    refine List.map_congr_left fun other _ => ?_
    by_cases same : key other = key row <;> simp [same]
  · rw [if_neg present, if_neg fun found => present ((any_key_iff key rows row).mp found),
      List.map_append]
    rfl

theorem nodup_replaced {row : ρ} {rows : List ρ} (single : (rows.map key).Nodup) :
    ((replaced key row rows).map key).Nodup := by
  rw [map_key_replaced]
  split
  · exact single
  · rename_i fresh
    exact List.nodup_append.mpr ⟨single, List.nodup_singleton _, fun other member last only same =>
      fresh (List.mem_singleton.mp only ▸ same ▸ member)⟩

/-- Under the key of a row that was put in is that row, under other keys is what was there. -/
theorem find?_replaced (row : ρ) (rows : List ρ) (wanted : κ) :
    ((replaced key row rows).find? fun other => key other == wanted) =
      if key row == wanted then some row else rows.find? fun other => key other == wanted := by
  unfold replaced
  split
  · rename_i present
    have kept : ((fun other => key other == wanted) ∘
        fun other => if key other == key row then row else other) =
          fun other => key other == wanted := by
      funext other
      by_cases same : key other = key row <;> simp [same]
    rw [List.find?_map, kept]
    cases found : rows.find? fun other => key other == wanted with
    | none =>
      have apart : key row ≠ wanted := by
        rintro rfl
        obtain ⟨other, member, same⟩ := List.any_eq_true.mp present
        exact absurd same (List.find?_eq_none.mp found other member)
      rw [if_neg (by simpa using apart)]
      rfl
    | some other =>
      have meant : key other = wanted := by simpa using List.find?_some found
      subst meant
      by_cases same : key row = key other <;> simp [same, Ne.symm]
  · rename_i absent
    rw [List.find?_append]
    by_cases same : key row = wanted
    · subst same
      have none : (rows.find? fun other => key other == key row) = none :=
        List.find?_eq_none.mpr fun other member found =>
          absent (List.any_eq_true.mpr ⟨other, member, found⟩)
      simp [none]
    · simp [same]

/-- Where no two rows have the same key, each is found under its key. -/
theorem find?_of_mem {rows : List ρ} (single : (rows.map key).Nodup) {row : ρ}
    (member : row ∈ rows) : (rows.find? fun other => key other == key row) = some row := by
  cases found : rows.find? fun other => key other == key row with
  | none => exact absurd (beq_self_eq_true _) (List.find?_eq_none.mp found row member)
  | some other =>
    have same : key other = key row := by simpa using List.find?_some found
    rw [List.inj_on_of_nodup_map single (List.mem_of_find?_eq_some found) member same]

/-- Rows of other keys are not looked at when a row is added. -/
theorem added_append {before kept : List ρ} {row : ρ}
    (apart : ∀ other ∈ before, key other ≠ key row) :
    added key (before ++ kept) row = before ++ added key kept row := by
  have none : (before.any fun other => key other == key row) = false :=
    List.any_eq_false.mpr fun other member found => apart other member (eq_of_beq found)
  unfold added
  rw [List.any_append, none, Bool.false_or]
  split
  · rfl
  · rw [List.append_assoc]

theorem foldl_added {before : List ρ} (rows : List ρ)
    (apart : ∀ row ∈ rows, ∀ other ∈ before, key other ≠ key row) :
    rows.foldl (added key) before = before ++ firsts key rows := by
  induction rows using List.reverseRecOn with
  | nil => exact (List.append_nil before).symm
  | append_singleton rows last inductionHypothesis =>
    have earlier := inductionHypothesis fun row member =>
      apart row (List.mem_append_left _ member)
    have lastApart := apart last (List.mem_append_right _ (List.mem_singleton_self last))
    rw [firsts, List.foldl_append, List.foldl_append, earlier]
    exact added_append key lastApart

/-- What tells rows apart just as their keys do keeps its first occurrences. -/
theorem map_firsts {β : Type} [DecidableEq β] (label : ρ → β) (rows : List ρ)
    (same : ∀ first ∈ rows, ∀ second ∈ rows, key first = key second ↔ label first = label second) :
    (firsts key rows).map label = distinct (rows.map label) := by
  induction rows using List.reverseRecOn with
  | nil => rfl
  | append_singleton rows last inductionHypothesis =>
    have inLast := List.mem_append_right rows (List.mem_singleton_self last)
    have earlier := inductionHypothesis fun first inFirst second inSecond =>
      same first (List.mem_append_left _ inFirst) second (List.mem_append_left _ inSecond)
    have known : (firsts key rows).any (fun other => key other == key last) = true ↔
        label last ∈ (firsts key rows).map label := by
      rw [List.any_eq_true, List.mem_map]
      refine exists_congr fun other => and_congr_right fun member => ?_
      rw [beq_iff_eq]
      have inRows := (firsts_sublist key rows).subset member
      exact same other (List.mem_append_left _ inRows) last inLast
    rw [firsts_concat, List.map_append, List.map_singleton, distinct_concat, ← earlier, added]
    simp only [known]
    split
    · rfl
    · rw [List.map_append, List.map_singleton]

/-- Rows under one parent need only be told apart from each other. -/
theorem map_firsts_under {β : Type} [DecidableEq β] (label : ρ → β) {parent : ρ → String}
    {name : String} {rows : List ρ} (under : ∀ row ∈ rows, parent row = name)
    (same : ∀ first second, parent first = parent second →
      (key first = key second ↔ label first = label second)) :
    (firsts key rows).map label = distinct (rows.map label) := by
  refine map_firsts key label rows fun first inFirst second inSecond => same first second ?_
  rw [under first inFirst, under second inSecond]

/-- Rows under a parent that take the place of the ones that were there. -/
theorem filter_replaced {parent : ρ → κ} {name : κ} {block : List ρ}
    (under : ∀ row ∈ block, parent row = name) (rows : List ρ) (wanted : κ) :
    ((rows.filter fun row => parent row != name) ++ block).filter
        (fun row => parent row == wanted) =
      if name == wanted then block else rows.filter fun row => parent row == wanted := by
  rw [List.filter_append, List.filter_filter]
  split
  · rename_i same
    obtain rfl := eq_of_beq same
    have others : (rows.filter fun row => parent row == name && parent row != name) = [] :=
      List.filter_eq_nil_iff.mpr fun row _ => by simp
    rw [others, List.nil_append, List.filter_eq_self]
    intro row member
    rw [under row member]
    exact beq_self_eq_true name
  · rename_i apart
    have none : (block.filter fun row => parent row == wanted) = [] :=
      List.filter_eq_nil_iff.mpr fun row member found =>
        apart (under row member ▸ found)
    rw [none, List.append_nil]
    refine List.filter_congr fun row _ => ?_
    by_cases same : parent row = wanted
    · simp_all [Ne.symm]
    · simp [same]

end Rows

theorem firsts_id {α : Type} [DecidableEq α] (items : List α) :
    firsts id items = distinct items := by
  have whole := map_firsts id id items fun _ _ _ _ => Iff.rfl
  rwa [List.map_id, List.map_id] at whole

/-- Distinct items stay so under a map that tells them apart. -/
theorem map_distinct {α β : Type} [DecidableEq α] [DecidableEq β] {label : α → β}
    (apart : Function.Injective label) (items : List α) :
    (distinct items).map label = distinct (items.map label) := by
  rw [← firsts_id]
  exact map_firsts id label items fun first _ second _ => apart.eq_iff.symm

/-! ### Rows of a record -/

def domainRow (domain : Domain) : DomainRow :=
  ⟨Name.bare domain.name, domain.registrarId, if domain.publishable then 1 else 0⟩

/-- The rows of the nameservers of a domain, with their places. -/
def nameserverRows (domain : Domain) : List NameserverRow :=
  domain.nameservers.zipIdx.map fun (host, position) =>
    ⟨Name.bare domain.name, Name.bare host, position⟩

/-- The row of a DS record under a domain. -/
def signerRow (name : String) (signer : DelegationSigner) : SignerRow :=
  ⟨name, signer.keyTag.toNat, signer.algorithm.toNat, signer.digestType.toNat, signer.digest⟩

def signerRows (domain : Domain) : List SignerRow :=
  domain.signers.map (signerRow (Name.bare domain.name))

def hostRow (host : Host) : HostRow :=
  ⟨Name.bare host.name, host.registrarId, host.superordinateDomain.map Name.bare⟩

def addressRows (host : Host) : List AddressRow :=
  host.addresses.map fun address => ⟨Name.bare host.name, address.text⟩

def contactRows (registrar : Registrar) : List ContactRow :=
  registrar.emails.map fun email => ⟨registrar.id, email⟩

theorem domain_of_mem_nameserverRows {domain : Domain} {row : NameserverRow}
    (member : row ∈ nameserverRows domain) : row.domain = Name.bare domain.name := by
  obtain ⟨_, _, rfl⟩ := List.mem_map.mp member
  rfl

theorem domain_of_mem_signerRows {domain : Domain} {row : SignerRow}
    (member : row ∈ signerRows domain) : row.domain = Name.bare domain.name := by
  obtain ⟨_, _, rfl⟩ := List.mem_map.mp member
  rfl

theorem host_of_mem_addressRows {host : Host} {row : AddressRow}
    (member : row ∈ addressRows host) : row.host = Name.bare host.name := by
  obtain ⟨_, _, rfl⟩ := List.mem_map.mp member
  rfl

theorem registrar_of_mem_contactRows {registrar : Registrar} {row : ContactRow}
    (member : row ∈ contactRows registrar) : row.registrar = registrar.id := by
  obtain ⟨_, _, rfl⟩ := List.mem_map.mp member
  rfl

/-! ### Transactions -/

namespace Tables

variable {tables : Tables}

/-- A transaction goes on where its first part ends. -/
theorem transact_append {first : List Write} {middle : Tables}
    (begun : tables.transact first = .ok middle) (second : List Write) :
    tables.transact (first ++ second) = middle.transact second := by
  induction first generalizing tables with
  | nil =>
    obtain rfl : tables = middle := Except.ok.inj begun
    rfl
  | cons statement rest inductionHypothesis =>
    rw [transact] at begun
    rw [List.cons_append, transact]
    cases written : tables.write statement with
    | error fault =>
      rw [written] at begun
      cases begun
    | ok result =>
      rw [written] at begun
      exact inductionHypothesis begun

/-- Statements that each do one thing to a part of the tables. -/
theorem transact_map {α σ : Type} (statement : α → Write) (whole : σ → Tables) (act : σ → α → σ)
    (items : List α)
    (each : ∀ part, ∀ item ∈ items,
      ∃ count, (whole part).write (statement item) = .ok (count, whole (act part item)))
    (part : σ) :
    (whole part).transact (items.map statement) = .ok (whole (items.foldl act part)) := by
  induction items generalizing part with
  | nil => rfl
  | cons item rest inductionHypothesis =>
    obtain ⟨count, written⟩ := each part item List.mem_cons_self
    have others := inductionHypothesis
      (fun part other member => each part other (List.mem_cons_of_mem _ member)) (act part item)
    rw [List.map_cons, transact, written]
    exact others

/-- Statements that each add a row under a parent, after the rows under it were deleted. -/
theorem transact_rows {ρ κ : Type} [BEq κ] [LawfulBEq κ] {key : ρ → κ} (parent : ρ → String)
    (name : String) {statement : ρ → Write} (whole : List ρ → Tables) (old rows : List ρ)
    (under : ∀ row ∈ rows, parent row = name)
    (keyed : ∀ first second, key first = key second → parent first = parent second)
    (each : ∀ part row, parent row = name →
      ∃ count, (whole part).write (statement row) = .ok (count, whole (added key part row))) :
    (whole (old.filter fun row => parent row != name)).transact (rows.map statement) =
      .ok (whole ((old.filter fun row => parent row != name) ++ firsts key rows)) := by
  have apart : ∀ row ∈ rows, ∀ other ∈ old.filter fun row => parent row != name,
      key other ≠ key row := by
    intro row member other kept same
    have elsewhere : parent other ≠ name := by simpa using (List.mem_filter.mp kept).2
    exact elsewhere ((keyed other row same).trans (under row member))
  rw [transact_map statement whole _ rows (fun part row member => each part row (under row member)),
    foldl_added key rows apart]

/-! #### One row -/

theorem write_nameserver {row : NameserverRow} (present : tables.hasDomain row.domain = true) :
    ∃ count, tables.write (.insert .ignore (.nameserver row)) = .ok (count, { tables with
      nameservers := added (fun row => (row.domain, row.host)) tables.nameservers row }) := by
  obtain ⟨count, placed⟩ :=
    place_ignore (fun row => (row.domain, row.host)) row tables.nameservers
  exact ⟨count, by rw [write, insert, placed, present]; rfl⟩

theorem write_signer {row : SignerRow} (present : tables.hasDomain row.domain = true) :
    ∃ count, tables.write (.insert .ignore (.signer row)) =
      .ok (count, { tables with signers := added id tables.signers row }) := by
  obtain ⟨count, placed⟩ := place_ignore id row tables.signers
  exact ⟨count, by rw [write, insert, placed, present]; rfl⟩

theorem write_address {row : AddressRow} (present : tables.hasHost row.host = true) :
    ∃ count, tables.write (.insert .ignore (.address row)) =
      .ok (count, { tables with addresses := added id tables.addresses row }) := by
  obtain ⟨count, placed⟩ := place_ignore id row tables.addresses
  exact ⟨count, by rw [write, insert, placed, present]; rfl⟩

theorem write_contact {row : ContactRow} (present : tables.hasRegistrar row.registrar = true) :
    ∃ count, tables.write (.insert .ignore (.contact row)) =
      .ok (count, { tables with contacts := added id tables.contacts row }) := by
  obtain ⟨count, placed⟩ := place_ignore id row tables.contacts
  exact ⟨count, by rw [write, insert, placed, present]; rfl⟩

/-! #### One record -/

/-- A TLD is stored if it has a shard. -/
theorem putTld_eq (tld : String) (shards : Int) :
    tables.putTld tld shards =
      if 1 ≤ shards then
        .ok { tables with tlds := replaced TldRow.name ⟨Name.bare tld, shards⟩ tables.tlds }
      else .error .checkViolation := by
  rw [putTld, tldWrites, transact, write, insert, place_replace]
  by_cases some : 1 ≤ shards
  · rw [if_pos some, demand, if_pos (decide_eq_true some)]
    rfl
  · rw [if_neg some, demand, if_neg (by simpa using some)]
    rfl

/-- A domain is stored with its nameservers and its DS data, each kept once. -/
theorem putDomain_eq (domain : Domain) :
    tables.putDomain domain = .ok { tables with
      domains := replaced DomainRow.name (domainRow domain) tables.domains
      nameservers := (tables.nameservers.filter fun row => row.domain != Name.bare domain.name) ++
        firsts (fun row => (row.domain, row.host)) (nameserverRows domain)
      signers := (tables.signers.filter fun row => row.domain != Name.bare domain.name) ++
        firsts id (signerRows domain) } := by
  have statements : domainWrites domain =
      [.insert .replace (.domain (domainRow domain)), .clearNameservers (Name.bare domain.name)] ++
        ((nameserverRows domain).map fun row => .insert .ignore (.nameserver row)) ++
        ([.clearSigners (Name.bare domain.name)] ++
          (signerRows domain).map fun row => .insert .ignore (.signer row)) := by
    simp [domainWrites, nameserverRows, domainRow, signerRows, signerRow, Function.comp_def]
  have present := any_replaced DomainRow.name (domainRow domain) tables.domains
  have begun : tables.transact [.insert .replace (.domain (domainRow domain)),
      .clearNameservers (Name.bare domain.name)] = .ok { tables with
        domains := replaced DomainRow.name (domainRow domain) tables.domains
        nameservers := tables.nameservers.filter
          fun row => row.domain != Name.bare domain.name } := by
    rw [transact, write, insert, place_replace]
    rfl
  have nameservers := transact_rows NameserverRow.domain (Name.bare domain.name)
    (fun rows => { tables with
      domains := replaced DomainRow.name (domainRow domain) tables.domains
      nameservers := rows })
    tables.nameservers (nameserverRows domain) (fun _ => domain_of_mem_nameserverRows)
    (fun _ _ same => congrArg Prod.fst same)
    (fun part row under => write_nameserver (by rw [under]; exact present))
  have signers := transact_rows SignerRow.domain (Name.bare domain.name)
    (fun rows => { tables with
      domains := replaced DomainRow.name (domainRow domain) tables.domains
      nameservers := (tables.nameservers.filter fun row => row.domain != Name.bare domain.name) ++
        firsts (fun row => (row.domain, row.host)) (nameserverRows domain)
      signers := rows })
    tables.signers (signerRows domain) (fun _ => domain_of_mem_signerRows)
    (fun _ _ same => congrArg SignerRow.domain same)
    (fun part row under => write_signer (by rw [under]; exact present))
  rw [putDomain, statements, transact_append ((transact_append begun _).trans nameservers)]
  exact signers

/-- A host is stored with its addresses, each kept once. -/
theorem putHost_eq (host : Host) :
    tables.putHost host = .ok { tables with
      hosts := replaced HostRow.name (hostRow host) tables.hosts
      addresses := (tables.addresses.filter fun row => row.host != Name.bare host.name) ++
        firsts id (addressRows host) } := by
  have statements : hostWrites host =
      [.insert .replace (.host (hostRow host)), .clearAddresses (Name.bare host.name)] ++
        (addressRows host).map fun row => .insert .ignore (.address row) := by
    simp [hostWrites, hostRow, addressRows, Function.comp_def]
  have present := any_replaced HostRow.name (hostRow host) tables.hosts
  have begun : tables.transact [.insert .replace (.host (hostRow host)),
      .clearAddresses (Name.bare host.name)] = .ok { tables with
        hosts := replaced HostRow.name (hostRow host) tables.hosts
        addresses := tables.addresses.filter fun row => row.host != Name.bare host.name } := by
    rw [transact, write, insert, place_replace]
    rfl
  rw [putHost, statements, transact_append begun]
  exact transact_rows AddressRow.host (Name.bare host.name)
    (fun rows => { tables with
      hosts := replaced HostRow.name (hostRow host) tables.hosts
      addresses := rows })
    tables.addresses (addressRows host) (fun _ => host_of_mem_addressRows)
    (fun _ _ same => congrArg AddressRow.host same)
    (fun part row under => write_address (by rw [under]; exact present))

/-- A registrar is stored with its contacts, each kept once. -/
theorem putRegistrar_eq (registrar : Registrar) :
    tables.putRegistrar registrar = .ok { tables with
      registrars := replaced RegistrarRow.id ⟨registrar.id, registrar.name⟩ tables.registrars
      contacts := (tables.contacts.filter fun row => row.registrar != registrar.id) ++
        firsts id (contactRows registrar) } := by
  have statements : registrarWrites registrar =
      [.insert .replace (.registrar ⟨registrar.id, registrar.name⟩), .clearContacts registrar.id] ++
        (contactRows registrar).map fun row => .insert .ignore (.contact row) := by
    simp [registrarWrites, contactRows, Function.comp_def]
  have present :=
    any_replaced RegistrarRow.id ⟨registrar.id, registrar.name⟩ tables.registrars
  have begun : tables.transact [.insert .replace (.registrar ⟨registrar.id, registrar.name⟩),
      .clearContacts registrar.id] = .ok { tables with
        registrars := replaced RegistrarRow.id ⟨registrar.id, registrar.name⟩ tables.registrars
        contacts := tables.contacts.filter fun row => row.registrar != registrar.id } := by
    rw [transact, write, insert, place_replace]
    rfl
  rw [putRegistrar, statements, transact_append begun]
  exact transact_rows ContactRow.registrar registrar.id
    (fun rows => { tables with
      registrars := replaced RegistrarRow.id ⟨registrar.id, registrar.name⟩ tables.registrars
      contacts := rows })
    tables.contacts (contactRows registrar) (fun _ => registrar_of_mem_contactRows)
    (fun _ _ same => congrArg ContactRow.registrar same)
    (fun part row under => write_contact (by rw [under]; exact present))

/-- The rows of a request to publish names again, the domains first. -/
def refreshRows (domains hosts : List String) (now : Instant) : List RefreshRow :=
  (domains.map fun name => ⟨.domain, Name.bare name, now⟩) ++
    hosts.map fun name => ⟨.host, Name.bare name, now⟩

/-- A request to publish names again goes behind those that were made before. -/
theorem requestRefresh_eq (domains hosts : List String) (now : Instant) :
    tables.requestRefresh domains hosts now =
      .ok { tables with refreshes := tables.refreshes ++ refreshRows domains hosts now } := by
  have statements : refreshWrites domains hosts now =
      (refreshRows domains hosts now).map fun row => .insert .refuse (.refresh row) := by
    simp [refreshWrites, refreshRows, Function.comp_def]
  have stored := transact_map (fun row : RefreshRow => .insert .refuse (.refresh row))
    (fun rows => { tables with refreshes := rows }) (fun rows row => rows ++ [row])
    (refreshRows domains hosts now) (fun _ _ _ => ⟨1, rfl⟩) tables.refreshes
  rw [List.foldl_append_eq_append, ← List.flatMap_def, List.flatMap_singleton'] at stored
  rw [requestRefresh, statements]
  exact stored

end Tables

end Zonecast.Registry
