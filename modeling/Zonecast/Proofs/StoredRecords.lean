/-
What is found in the registry is what was last stored there. Whatever the sequence of transactions,
the tables answer as maps would that were updated by the transactions that succeeded: under each
key is the record that was last stored under it, with its names in bare form and with the parts of
it that are sets listed once each and in order. No lookup reports a corrupt row.

Storing a record changes no lookup of another key, but for one case: a host is listed under the
domain that it names, and so it enters and leaves the lists of domains when it is stored.
-/
import Mathlib.Data.Prod.Lex
import Mathlib.Data.String.Basic
import Zonecast.Proofs.AddressTexts
import Zonecast.Proofs.RegistryHistory

namespace Zonecast.Registry

open Zonecast.Text

/-! ### Lists in order -/

/-- A list of what belongs somewhere, each once and in the order of the places of the items. -/
structure Lists {α κ : Type} [LT κ] (place : α → κ) (belongs : α → Prop) (items : List α) :
    Prop where
  ordered : items.Pairwise fun first second => place first < place second
  complete : ∀ item, item ∈ items ↔ belongs item

section Order

variable {α κ : Type} [LinearOrder κ] {place : α → κ}

theorem Lists.nodup {belongs : α → Prop} {items : List α} (lists : Lists place belongs items) :
    items.Nodup :=
  lists.ordered.imp fun below => ne_of_apply_ne place (ne_of_lt below)

/-- There is only one list of the same items in order. -/
theorem Lists.unique {belongs : α → Prop} {first second : List α}
    (one : Lists place belongs first) (other : Lists place belongs second) : first = second := by
  refine List.Perm.eq_of_pairwise (fun _ _ _ _ below above => absurd below above.asymm)
    one.ordered other.ordered ((List.perm_ext_iff_of_nodup one.nodup other.nodup).mpr ?_)
  exact fun item => (one.complete item).trans (other.complete item).symm

/-- Sorting by a place that tells items apart lists each of them once and in order. -/
theorem lists_mergeSort (apart : Function.Injective place) {items : List α}
    (single : items.Nodup) :
    Lists place (· ∈ items)
      (items.mergeSort fun first second => decide (place first ≤ place second)) := by
  let le (first second : α) : Bool := decide (place first ≤ place second)
  have sorted : (items.mergeSort le).Pairwise fun first second => le first second = true :=
    List.pairwise_mergeSort (fun first second third => by simpa [le] using le_trans)
      (fun first second => by simpa [le] using le_total (place first) (place second)) items
  have kept : (items.mergeSort le).Nodup := (List.mergeSort_perm items le).nodup_iff.mpr single
  refine ⟨(sorted.and kept).imp fun ⟨below, differ⟩ => ?_, fun item => List.mem_mergeSort⟩
  exact lt_of_le_of_ne (of_decide_eq_true below) fun same => differ (apart same)

/-- The distinct items of a list belong where its items belong. -/
theorem Lists.of_distinct [DecidableEq α] {items sorted : List α}
    (lists : Lists place (· ∈ distinct items) sorted) : Lists place (· ∈ items) sorted :=
  ⟨lists.ordered, fun item => (lists.complete item).trans (mem_distinct items item)⟩

end Order

theorem lists_sortTexts {texts : List String} (single : texts.Nodup) :
    Lists id (· ∈ texts) (sortTexts texts) :=
  lists_mergeSort Function.injective_id single

/-- Reading back what was written of each item gives the items. -/
theorem mapM_map_ok {α β : Type} {write : α → β} {read : β → Except Error α}
    (returns : ∀ item, read (write item) = .ok item) (items : List α) :
    (items.map write).mapM read = .ok items := by
  have reads : read ∘ write = fun item => pure item := funext returns
  rw [List.mapM_map, reads, List.mapM_pure, List.map_id']
  rfl

/-! ### Nameservers -/

/-- Nameservers stored in their order are read in their order. -/
theorem nameservers_read (domain : Domain) :
    ((firsts (fun row => (row.domain, row.host)) (nameserverRows domain)).mergeSort
      NameserverRow.le).map (·.host) = distinct (domain.nameservers.map Name.bare) := by
  have placed : (nameserverRows domain).Pairwise fun first second =>
      first.position < second.position := by
    have ascending : (domain.nameservers.zipIdx.map Prod.snd).Pairwise (· < ·) := by
      rw [List.zipIdx_map_snd]
      exact List.pairwise_lt_range'
    rw [nameserverRows, List.pairwise_map]
    exact (List.pairwise_map.mp ascending).imp fun below => Int.ofNat_lt.mpr below
  have sorted : (firsts (fun row => (row.domain, row.host)) (nameserverRows domain)).Pairwise
      fun first second => NameserverRow.le first second = true := by
    refine (placed.sublist (firsts_sublist _ _)).imp fun below => ?_
    rw [NameserverRow.le, if_neg (Int.ne_of_lt below)]
    exact decide_eq_true (Int.le_of_lt below)
  have hosts : (nameserverRows domain).map (·.host) = domain.nameservers.map Name.bare := by
    rw [nameserverRows, List.map_map]
    conv_rhs => rw [← List.zipIdx_map_fst 0 domain.nameservers, List.map_map]
    rfl
  have under : ∀ row ∈ nameserverRows domain, row.domain = Name.bare domain.name :=
    fun _ => domain_of_mem_nameserverRows
  have distinctly := map_firsts_under (fun row => (row.domain, row.host)) NameserverRow.host under
    fun first second same => by
      rw [Prod.mk.injEq, same]
      exact and_iff_right rfl
  rw [List.mergeSort_of_pairwise sorted, distinctly, hosts]

/-! ### DS data -/

/-- The place of a DS record: by key tag, algorithm, digest type and digest in turn. -/
def signerPlace (signer : DelegationSigner) : Nat ×ₗ Nat ×ₗ Nat ×ₗ String :=
  toLex (signer.keyTag.toNat, toLex (signer.algorithm.toNat,
    toLex (signer.digestType.toNat, signer.digest)))

theorem signerPlace_injective : Function.Injective signerPlace := by
  rintro ⟨keyTag, algorithm, digestType, digest⟩ ⟨keyTag', algorithm', digestType', digest'⟩ same
  simp only [signerPlace, toLex_inj, Prod.mk.injEq, UInt16.toNat_inj, UInt8.toNat_inj] at same
  obtain ⟨rfl, rfl, rfl, rfl⟩ := same
  rfl

/-- Numbers compared in turn: what follows them counts where they are equal. -/
theorem inTurn_iff (first second : Nat) (rest : Bool) :
    (if (first : Int) = second then rest else decide ((first : Int) ≤ second)) = true ↔
      first < second ∨ first = second ∧ rest = true := by
  by_cases same : first = second
  · simp [same]
  · rw [if_neg (mt Int.ofNat_inj.mp same), decide_eq_true_iff, Int.ofNat_le]
    exact ⟨fun le => Or.inl (Nat.lt_of_le_of_ne le same), fun turn => by omega⟩

/-- The rows of DS data are in the order of the DS data. -/
theorem le_signerRow (name : String) (first second : DelegationSigner) :
    SignerRow.le (signerRow name first) (signerRow name second) =
      decide (signerPlace first ≤ signerPlace second) := by
  rw [Bool.eq_iff_iff, decide_eq_true_iff, SignerRow.le, signerRow, signerRow]
  dsimp only
  rw [inTurn_iff, inTurn_iff, inTurn_iff, decide_eq_true_iff]
  simp only [signerPlace, Prod.Lex.toLex_le_toLex]

/-- A stored number that is in range is read as it is. -/
theorem smallNumber_eq {name what : String} {limit number : Nat} (small : number < limit) :
    smallNumber name what limit number = .ok number := by
  rw [smallNumber, if_pos ⟨Int.natCast_nonneg number, Int.ofNat_lt.mpr small⟩, Int.toNat_natCast]

/-- A DS record is read as it was stored. -/
theorem signer_signerRow (name : String) (signer : DelegationSigner) :
    (signerRow name signer).signer name = .ok signer := by
  have keyTag : signer.keyTag.toNat < 65536 := signer.keyTag.toNat_lt
  have algorithm : signer.algorithm.toNat < 256 := signer.algorithm.toNat_lt
  have digestType : signer.digestType.toNat < 256 := signer.digestType.toNat_lt
  rw [SignerRow.signer, signerRow, smallNumber_eq keyTag, smallNumber_eq algorithm,
    smallNumber_eq digestType]
  simp [bind, Except.bind, pure, Except.pure]

/-- The rows of the DS data of a domain are read as its DS data. -/
theorem mapM_signerRows (domain : Domain) :
    ((firsts id (signerRows domain)).mergeSort SignerRow.le).mapM
        (SignerRow.signer (Name.bare domain.name)) =
      .ok ((distinct domain.signers).mergeSort fun first second =>
        decide (signerPlace first ≤ signerPlace second)) := by
  have rows : firsts id (signerRows domain) =
      (distinct domain.signers).map (signerRow (Name.bare domain.name)) := by
    rw [firsts_id, signerRows, map_distinct]
    intro first second same
    have read := congrArg (SignerRow.signer (Name.bare domain.name)) same
    rw [signer_signerRow, signer_signerRow] at read
    exact Except.ok.inj read
  rw [rows, ← List.map_mergeSort fun first _ second _ => (le_signerRow _ first second).symm]
  exact mapM_map_ok (signer_signerRow _) _

/-! ### Addresses -/

theorem storedAddress_text (name : String) (address : Address) :
    storedAddress name address.text = .ok address := by
  unfold storedAddress
  rw [Address.read?_text]

theorem addresses_addressRows (host : Host) :
    (firsts id (addressRows host)).map (·.address) =
      (distinct host.addresses).map Address.text := by
  have texts : (addressRows host).map (·.address) = host.addresses.map Address.text := by
    rw [addressRows, List.map_map]
    rfl
  rw [map_distinct Address.text_injective, ← texts]
  refine map_firsts_under id AddressRow.address (fun _ => host_of_mem_addressRows) ?_
  rintro ⟨_, _⟩ ⟨_, _⟩ rfl
  exact ⟨congrArg AddressRow.address, congrArg (AddressRow.mk _)⟩

/-- The rows of the addresses of a host are read as its addresses. -/
theorem mapM_addressRows (host : Host) :
    (sortTexts ((firsts id (addressRows host)).map (·.address))).mapM
        (storedAddress (Name.bare host.name)) =
      .ok ((distinct host.addresses).mergeSort fun first second =>
        decide (first.text ≤ second.text)) := by
  have sorted := List.map_mergeSort (s := fun first second => decide (first ≤ second))
    (f := Address.text) (l := distinct host.addresses) fun first _ second _ => rfl
  rw [addresses_addressRows, sortTexts, ← sorted]
  exact mapM_map_ok (storedAddress_text _) _

/-! ### Contacts -/

theorem emails_contactRows (registrar : Registrar) :
    (firsts id (contactRows registrar)).map (·.email) = distinct registrar.emails := by
  have emails : (contactRows registrar).map (·.email) = registrar.emails := by
    rw [contactRows, List.map_map]
    exact List.map_id _
  rw [← emails]
  refine map_firsts_under id ContactRow.email (fun _ => registrar_of_mem_contactRows) ?_
  rintro ⟨_, _⟩ ⟨_, _⟩ rfl
  exact ⟨congrArg ContactRow.email, congrArg (ContactRow.mk _)⟩

variable {tables after : Tables}

/-! ### Lookups -/

theorem answered_findShardCount (tld : String) :
    (findShardCount tld).answered tables.read =
      match tables.tlds.find? fun row => row.name == Name.bare tld with
      | none => .ok none
      | some row => (smallNumber tld "publish_shards =" UInt32.size row.shards).map some := by
  show (match tables.tlds.find? fun row => row.name == Name.bare tld with
    | none => _
    | some row => _ : Process Reading _).answered tables.read = _
  cases tables.tlds.find? fun row => row.name == Name.bare tld <;> rfl

theorem answered_findDomain (name : String) :
    (findDomain name).answered tables.read =
      match tables.domains.find? fun row => row.name == Name.bare name with
      | none => .ok none
      | some row =>
        match ((tables.signers.filter fun row => row.domain == Name.bare name).mergeSort
          SignerRow.le).mapM (SignerRow.signer (Name.bare name)) with
        | .error error => .error error
        | .ok signers =>
          .ok (some {
            name := row.name
            registrarId := row.registrarId
            publishable := row.publishable ≠ 0
            nameservers := ((tables.nameservers.filter fun row =>
              row.domain == Name.bare name).mergeSort NameserverRow.le).map (·.host)
            signers := signers
            subordinateHosts := tables.read (.subordinateHosts (Name.bare name)) }) := by
  show (match tables.domains.find? fun row => row.name == Name.bare name with
    | none => _
    | some row => _ : Process Reading _).answered tables.read = _
  cases tables.domains.find? fun row => row.name == Name.bare name with
  | none => rfl
  | some row =>
    show (match ((tables.signers.filter fun row => row.domain == Name.bare name).mergeSort
      SignerRow.le).mapM (SignerRow.signer (Name.bare name)) with
    | .error _ => _
    | .ok _ => _ : Process Reading _).answered tables.read = _
    cases ((tables.signers.filter fun row => row.domain == Name.bare name).mergeSort
      SignerRow.le).mapM (SignerRow.signer (Name.bare name)) <;> rfl

theorem answered_findHost (name : String) :
    (findHost name).answered tables.read =
      match tables.hosts.find? fun row => row.name == Name.bare name with
      | none => .ok none
      | some row =>
        ((sortTexts ((tables.addresses.filter fun row => row.host == Name.bare name).map
          (·.address))).mapM (storedAddress (Name.bare name))).map fun addresses =>
            some ⟨row.name, row.registrarId, addresses, row.superordinateDomain⟩ := by
  show (match tables.hosts.find? fun row => row.name == Name.bare name with
    | none => _
    | some row => _ : Process Reading _).answered tables.read = _
  cases tables.hosts.find? fun row => row.name == Name.bare name <;> rfl

theorem answered_findRegistrar (id : String) :
    (findRegistrar id).answered tables.read =
      match tables.registrars.find? fun row => row.id == id with
      | none => .ok none
      | some row =>
        .ok (some ⟨id, row.name, sortTexts ((tables.contacts.filter fun row =>
          row.registrar == id).map (·.email))⟩) := by
  show (match tables.registrars.find? fun row => row.id == id with
    | none => _
    | some row => _ : Process Reading _).answered tables.read = _
  cases tables.registrars.find? fun row => row.id == id <;> rfl

/-- The hosts under a domain, each once and in order. -/
theorem lists_subordinateHosts (unique : (tables.hosts.map HostRow.name).Nodup) (domain : String) :
    Lists id
      (fun name => ∃ row, (tables.hosts.find? fun row => row.name == name) = some row ∧
        row.superordinateDomain = some domain)
      (tables.read (.subordinateHosts domain)) := by
  have under : (tables.hosts.filter fun row =>
      row.superordinateDomain == some domain).map HostRow.name |>.Nodup :=
    unique.sublist (List.filter_sublist.map _)
  have sorted := lists_sortTexts under
  refine ⟨sorted.ordered, fun name => (sorted.complete name).trans ?_⟩
  rw [List.mem_map]
  constructor
  · rintro ⟨row, member, rfl⟩
    obtain ⟨inHosts, names⟩ := List.mem_filter.mp member
    exact ⟨row, find?_of_mem HostRow.name unique inHosts, eq_of_beq names⟩
  · rintro ⟨row, found, names⟩
    refine ⟨row, List.mem_filter.mpr ⟨List.mem_of_find?_eq_some found, by rw [names]; simp⟩, ?_⟩
    simpa using List.find?_some found

/-! ### What is found -/

/-- A domain as it is found after it was stored: in bare form, its nameservers in the order in
which they were given and its DS data in order, each once, with the hosts that name it as their
domain. -/
structure DomainFound (history : List Edit) (domain found : Domain) : Prop where
  name : found.name = Name.bare domain.name
  registrarId : found.registrarId = domain.registrarId
  publishable : found.publishable = domain.publishable
  nameservers : found.nameservers = distinct (domain.nameservers.map Name.bare)
  signers : Lists signerPlace (· ∈ domain.signers) found.signers
  subordinateHosts : Lists id
    (fun name => ∃ host, latest (Edit.hostOf name) history = some host ∧
      host.superordinateDomain.map Name.bare = some (Name.bare domain.name))
    found.subordinateHosts

/-- A host as it is found after it was stored: in bare form, its addresses once each and in the
order of their texts. -/
structure HostFound (host found : Host) : Prop where
  name : found.name = Name.bare host.name
  registrarId : found.registrarId = host.registrarId
  superordinateDomain : found.superordinateDomain = host.superordinateDomain.map Name.bare
  addresses : Lists Address.text (· ∈ host.addresses) found.addresses

/-- A registrar as it is found after it was stored: the addresses of its contacts once each and
in order. -/
structure RegistrarFound (registrar found : Registrar) : Prop where
  identity : found.id = registrar.id
  name : found.name = registrar.name
  emails : Lists id (· ∈ registrar.emails) found.emails

/-- An answer that finds what was last stored, and nothing where nothing was stored. -/
def Answers {α β : Type} (last : Option α) (found : α → β → Prop)
    (answer : Except Error (Option β)) : Prop :=
  match last with
  | none => answer = .ok none
  | some value => ∃ result, answer = .ok (some result) ∧ found value result

section Found

variable {history : List Edit}

theorem Records.shardCount_found (records : Records history tables) (tld : String) :
    (findShardCount tld).answered tables.read =
      .ok ((latest (Edit.shardsOf (Name.bare tld)) history).map UInt32.toNat) := by
  rw [answered_findShardCount, records.tld]
  cases latest (Edit.shardsOf (Name.bare tld)) history with
  | none => rfl
  | some shards =>
    have small : shards.toNat < UInt32.size := shards.toNat_lt
    show (smallNumber tld _ _ shards.toNat).map some = _
    rw [smallNumber_eq small]
    rfl

theorem Records.domain_found (records : Records history tables) (name : String) :
    Answers (latest (Edit.domainOf (Name.bare name)) history) (DomainFound history)
      ((findDomain name).answered tables.read) := by
  rw [answered_findDomain, records.domain, records.nameservers, records.signers]
  cases stored : latest (Edit.domainOf (Name.bare name)) history with
  | none => rfl
  | some domain =>
    obtain ⟨edit, -, stores⟩ := exists_of_latest stored
    obtain ⟨-, same⟩ := Edit.eq_of_domainOf stores
    rw [← same]
    dsimp only [Option.map_some, Option.getD_some]
    rw [mapM_signerRows, nameservers_read]
    refine ⟨_, rfl, rfl, rfl, ?_, rfl, ?_, ?_⟩
    · show decide ((if domain.publishable then (1 : Int) else 0) ≠ 0) = domain.publishable
      cases domain.publishable <;> rfl
    · exact (lists_mergeSort signerPlace_injective (nodup_distinct domain.signers)).of_distinct
    · have listed := lists_subordinateHosts records.hosts (Name.bare domain.name)
      refine ⟨listed.ordered, fun name => (listed.complete name).trans ?_⟩
      rw [records.host]
      simp [Option.map_eq_some_iff, hostRow]

theorem Records.host_found (records : Records history tables) (name : String) :
    Answers (latest (Edit.hostOf (Name.bare name)) history) HostFound
      ((findHost name).answered tables.read) := by
  rw [answered_findHost, records.host, records.addresses]
  cases stored : latest (Edit.hostOf (Name.bare name)) history with
  | none => rfl
  | some host =>
    obtain ⟨edit, -, stores⟩ := exists_of_latest stored
    obtain ⟨-, same⟩ := Edit.eq_of_hostOf stores
    rw [← same]
    dsimp only [Option.map_some, Option.getD_some]
    rw [mapM_addressRows]
    have sorted := lists_mergeSort Address.text_injective (nodup_distinct host.addresses)
    exact ⟨_, rfl, rfl, rfl, rfl, sorted.of_distinct⟩

theorem Records.registrar_found (records : Records history tables) (id : String) :
    Answers (latest (Edit.registrarOf id) history) RegistrarFound
      ((findRegistrar id).answered tables.read) := by
  rw [answered_findRegistrar, records.registrar, records.contacts]
  cases stored : latest (Edit.registrarOf id) history with
  | none => rfl
  | some registrar =>
    obtain ⟨edit, -, stores⟩ := exists_of_latest stored
    obtain ⟨-, rfl⟩ := Edit.eq_of_registrarOf stores
    dsimp only [Option.map_some, Option.getD_some]
    rw [emails_contactRows]
    have sorted := lists_sortTexts (nodup_distinct registrar.emails)
    exact ⟨_, rfl, rfl, rfl, sorted.of_distinct⟩

end Found

/-! ### What an edit leaves alone -/

/-- Whether an edit stores something under the key of a lookup. -/
def Edit.Concerns (edit : Edit) : Call → Prop
  | .shardCount name => edit.shardsOf (Name.bare name) ≠ none
  | .domain name => edit.domainOf (Name.bare name) ≠ none
  | .host name => edit.hostOf (Name.bare name) ≠ none
  | .registrar id => edit.registrarOf id ≠ none
  | .requestRefresh _ _ _ => False

/-- Whether an edit puts a host under the domain that is looked up, or the host was under it
before the edit. -/
def Edit.Moves (history : List Edit) (edit : Edit) : Call → Prop
  | .domain name => ∃ host listed, edit = .host host ∧
    (listed = host ∨ latest (Edit.hostOf (Name.bare host.name)) history = some listed) ∧
      listed.superordinateDomain.map Name.bare = some (Name.bare name)
  | _ => False

/-- A domain without the hosts that are listed under it. -/
def unlisted (answer : Except Error (Option Domain)) : Except Error (Option Domain) :=
  answer.map (Option.map fun domain => { domain with subordinateHosts := [] })

section Frame

variable {history : List Edit} {edit : Edit}

theorem subordinateHosts_of_settles (records : Records history tables)
    (settles : Settles edit tables after) {name : String}
    (still : ¬ edit.Moves history (.domain name)) :
    after.read (.subordinateHosts (Name.bare name)) =
      tables.read (.subordinateHosts (Name.bare name)) := by
  have later := lists_subordinateHosts (settles.hosts records.hosts) (Name.bare name)
  have earlier := lists_subordinateHosts records.hosts (Name.bare name)
  refine later.unique ⟨earlier.ordered, fun host => (earlier.complete host).trans ?_⟩
  rw [settles.host]
  cases stores : edit.hostOf host with
  | none => rfl
  | some stored =>
    obtain ⟨rfl, rfl⟩ := Edit.eq_of_hostOf stores
    constructor
    · rintro ⟨row, found, under⟩
      rw [records.host] at found
      obtain ⟨listed, last, rfl⟩ := Option.map_eq_some_iff.mp found
      exact absurd ⟨stored, listed, rfl, Or.inr last, under⟩ still
    · rintro ⟨row, found, under⟩
      obtain rfl : hostRow stored = row := Option.some.inj found
      exact absurd ⟨stored, stored, rfl, Or.inl rfl, under⟩ still

/-- An edit that does not concern a lookup and moves no host for it leaves it alone. -/
theorem serve_of_settles (records : Records history tables) (settles : Settles edit tables after)
    {request : Call} (other : ¬ edit.Concerns request) (still : ¬ edit.Moves history request) :
    (after.serve request).1 = (tables.serve request).1 := by
  cases request with
  | shardCount tld =>
    have kept := not_not.mp other
    show (findShardCount tld).answered after.read = (findShardCount tld).answered tables.read
    rw [answered_findShardCount, answered_findShardCount, settles.tld, kept]
    rfl
  | domain name =>
    have kept := not_not.mp other
    show (findDomain name).answered after.read = (findDomain name).answered tables.read
    rw [answered_findDomain, answered_findDomain, settles.domain, settles.nameservers,
      settles.signers, kept, subordinateHosts_of_settles records settles still]
    rfl
  | host name =>
    have kept := not_not.mp other
    show (findHost name).answered after.read = (findHost name).answered tables.read
    rw [answered_findHost, answered_findHost, settles.host, settles.addresses, kept]
    rfl
  | registrar id =>
    have kept := not_not.mp other
    show (findRegistrar id).answered after.read = (findRegistrar id).answered tables.read
    rw [answered_findRegistrar, answered_findRegistrar, settles.registrar, settles.contacts, kept]
    rfl
  | requestRefresh domains hosts now =>
    show (after.serve _).1 = (tables.serve _).1
    simp only [Tables.serve, Tables.requestRefresh_eq]

/-- An edit that does not store a domain leaves everything of it alone but the list of its
hosts. -/
theorem unlisted_of_settles (settles : Settles edit tables after) {name : String}
    (other : ¬ edit.Concerns (.domain name)) :
    unlisted ((findDomain name).answered after.read) =
      unlisted ((findDomain name).answered tables.read) := by
  have kept := not_not.mp other
  rw [answered_findDomain, answered_findDomain, settles.domain, settles.nameservers,
    settles.signers, kept]
  cases tables.domains.find? fun row => row.name == Name.bare name with
  | none => rfl
  | some row =>
    dsimp only [Option.map_none, Option.none_or, Option.getD_none]
    cases ((tables.signers.filter fun row => row.domain == Name.bare name).mergeSort
      SignerRow.le).mapM (SignerRow.signer (Name.bare name)) <;> rfl

end Frame

/-! ### The registry as maps -/

/-- Every lookup finds what was last stored under its key, and nothing where nothing was stored.
Names to be published again are listed as they were asked for. -/
structure FindsLatest (history : List Edit) (tables : Tables) : Prop where
  shardCount : ∀ tld, (findShardCount tld).answered tables.read =
    .ok ((latest (Edit.shardsOf (Name.bare tld)) history).map UInt32.toNat)
  domain : ∀ name, Answers (latest (Edit.domainOf (Name.bare name)) history)
    (DomainFound history) ((findDomain name).answered tables.read)
  host : ∀ name, Answers (latest (Edit.hostOf (Name.bare name)) history) HostFound
    ((findHost name).answered tables.read)
  registrar : ∀ id, Answers (latest (Edit.registrarOf id) history) RegistrarFound
    ((findRegistrar id).answered tables.read)
  refreshes : tables.listRefreshes = history.flatMap Edit.refreshes
  /-- No lookup fails, with a corrupt row or otherwise. -/
  sound : ∀ request, ∃ value, (tables.serve request).1 = .ok value

/-- Lookups of other keys than the one of an edit are answered after it as they were before it,
but for the hosts that are listed under the domains that a host leaves or enters. -/
structure LeavesAlone (history : List Edit) (edit : Edit) (tables after : Tables) : Prop where
  others : ∀ request, ¬ edit.Concerns request → ¬ edit.Moves history request →
    (after.serve request).1 = (tables.serve request).1
  listsOnly : ∀ name, ¬ edit.Concerns (.domain name) →
    unlisted ((findDomain name).answered after.read) =
      unlisted ((findDomain name).answered tables.read)

theorem Answers.isOk {α β : Type} {last : Option α} {found : α → β → Prop}
    {answer : Except Error (Option β)} (answers : Answers last found answer) :
    ∃ value, answer = .ok value := by
  cases last with
  | none => exact ⟨none, answers⟩
  | some value =>
    obtain ⟨result, found, -⟩ := answers
    exact ⟨some result, found⟩

theorem Records.findsLatest {history : List Edit} (records : Records history tables) :
    FindsLatest history tables where
  shardCount := records.shardCount_found
  domain := records.domain_found
  host := records.host_found
  registrar := records.registrar_found
  refreshes := records.refreshes
  sound request := by
    cases request with
    | shardCount tld => exact ⟨_, records.shardCount_found tld⟩
    | domain name => exact (records.domain_found name).isOk
    | host name => exact (records.host_found name).isOk
    | registrar id => exact (records.registrar_found id).isOk
    | requestRefresh domains hosts now =>
      exact ⟨(), by simp only [Tables.serve, Tables.requestRefresh_eq]⟩

theorem Records.leavesAlone {history : List Edit} (records : Records history tables)
    (attempt : Attempt) :
    LeavesAlone history attempt.edit tables (tables.attempt attempt).2 := by
  unfold Tables.attempt
  cases attempt.outage with
  | some fault => exact ⟨fun _ _ _ => rfl, fun _ _ => rfl⟩
  | none =>
    cases applied : tables.apply attempt.edit with
    | error fault => exact ⟨fun _ _ _ => rfl, fun _ _ => rfl⟩
    | ok after =>
      have settles := settles_of_apply applied
      exact ⟨fun _ other still => serve_of_settles records settles other still,
        fun _ other => unlisted_of_settles settles other⟩

/-- After any sequence of transactions, of which some may have failed, the tables answer as maps
do that were updated by those that succeeded, and the next transaction changes lookups of its own
key only, and the lists of the domains between which it moves a host. -/
theorem lookups_find_latest (attempts : List Attempt) :
    FindsLatest (course attempts).1 (course attempts).2 ∧
      ∀ attempt, LeavesAlone (course attempts).1 attempt.edit (course attempts).2
        ((course attempts).2.attempt attempt).2 :=
  ⟨(records_course attempts).findsLatest, (records_course attempts).leavesAlone⟩

end Zonecast.Registry
