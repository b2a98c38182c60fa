/-
Lookups among transactions. A lookup reads one table after another, each statement for itself, and
whatever commits in between is seen by the statements that follow. So the parts of a record need not
belong together: a domain that is stored anew in the middle of a lookup can be found with its old
nameservers and its new DS data, as it never was.

As long as nobody stores the domain itself meanwhile, a lookup is a snapshot all the same, that of
the state its last statement saw. The hosts under the domain may change, but they are read last and
by a single statement.
-/
import Zonecast.Proofs.RegistryHistory

namespace Zonecast.Registry

open Process

variable {α : Type}

/-! ### Edits meanwhile -/

/-- Edits that are carried out one after another. -/
inductive Becomes : Tables → List Edit → Tables → Prop
  | same (tables : Tables) : Becomes tables [] tables
  | edited {tables next last : Tables} {edit : Edit} {edits : List Edit}
      (applied : tables.apply edit = .ok next) (rest : Becomes next edits last) :
    Becomes tables (edit :: edits) last

/-- The second tables come of the first by edits none of which stores the domain. -/
def Spared (key : String) (before after : Tables) : Prop :=
  ∃ edits, Becomes before edits after ∧ ∀ edit ∈ edits, edit.domainOf key = none

/-- The statements that read what is stored with a domain. -/
def Query.OfDomain (key : String) : Query → Prop
  | .domain name | .nameservers name | .signers name => name = key
  | _ => False

theorem read_of_settles {edit : Edit} {tables after : Tables} {key : String} {query : Query}
    (settles : Settles edit tables after) (other : edit.domainOf key = none)
    (own : query.OfDomain key) : after.read query = tables.read query := by
  cases query with
  | domain name =>
    obtain rfl := own
    show (after.domains.find? _) = _
    rw [settles.domain, other]
    rfl
  | nameservers name =>
    obtain rfl := own
    show ((after.nameservers.filter _).mergeSort _).map _ = _
    rw [settles.nameservers, other]
    rfl
  | signers name =>
    obtain rfl := own
    show (after.signers.filter _).mergeSort _ = _
    rw [settles.signers, other]
    rfl
  | _ => exact own.elim

/-- What is stored with a domain stays as long as nobody stores the domain. -/
theorem read_of_spared {key : String} {before after : Tables} (spared : Spared key before after)
    {query : Query} (own : query.OfDomain key) : after.read query = before.read query := by
  obtain ⟨edits, becomes, others⟩ := spared
  induction becomes with
  | same => rfl
  | edited applied _ inductionHypothesis =>
    rw [inductionHypothesis fun edit member => others edit (List.mem_cons_of_mem _ member)]
    exact read_of_settles (settles_of_apply applied) (others _ List.mem_cons_self) own

/-! ### Lookups meanwhile -/

/-- The statements of a process see these tables, one each, and it ends with this value. -/
inductive Sees : Process Reading α → List Tables → α → Prop
  | done (value : α) : Sees (.done value) [] value
  | read {query : Query} {next : query.Rows → Process Reading α} {tables : Tables}
      {later : List Tables} {value : α} (rest : Sees (next (tables.read query)) later value) :
    Sees (.call (I := Reading) query next) (tables :: later) value

/-- If nothing commits meanwhile, the process runs alone. -/
theorem Sees.alone {process : Process Reading α} {states : List Tables} {value : α}
    (sees : Sees process states value) {tables : Tables} (same : ∀ state ∈ states, state = tables) :
    process.answered tables.read = value := by
  induction sees with
  | done => rfl
  | read rest inductionHypothesis =>
    obtain rfl := same _ List.mem_cons_self
    exact inductionHypothesis fun state member => same state (List.mem_cons_of_mem _ member)

/-- Whatever it is answered, the process only reads what is fixed, but for its last statement. -/
def FixedButLast (fixed : Query → Prop) : Process Reading α → Prop
  | .done _ => True
  | .call query next => (fixed query ∧ ∀ reply, FixedButLast fixed (next reply)) ∨
    ∀ reply, ∃ value, next reply = .done value

/-- If what a process reads before its last statement does not change from then on, its value is
the one it would have if it ran alone on the tables that its last statement sees. -/
theorem eq_answered_of_sees {fixed : Query → Prop} {process : Process Reading α}
    {states : List Tables} {value : α} (reads : FixedButLast fixed process)
    (sees : Sees process states value)
    (stays : states.Pairwise fun before after =>
      ∀ query, fixed query → after.read query = before.read query)
    {last : Tables} (final : states.getLast? = some last) :
    value = process.answered last.read := by
  induction sees with
  | done => cases final
  | @read query next tables later value rest inductionHypothesis =>
    show value = (next (last.read query)).answered last.read
    obtain ⟨toLater, amongLater⟩ := List.pairwise_cons.mp stays
    cases later with
    | nil =>
      rw [List.getLast?_singleton] at final
      obtain rfl := Option.some.inj final
      generalize next (tables.read query) = left at rest ⊢
      cases rest
      rfl
    | cons second later =>
      have final : (second :: later).getLast? = some last := by
        rw [List.getLast?_cons_cons] at final
        exact final
      rcases reads with ⟨fixedNow, fixedLater⟩ | ended
      · rw [toLater last (List.mem_of_getLast? final) query fixedNow]
        exact inductionHypothesis (fixedLater _) amongLater final
      · -- A process that is done reads nothing more.
        obtain ⟨result, same⟩ := ended (tables.read query)
        rw [same] at rest
        cases rest

/-! ### Domains -/

/-- The list of hosts is read last. -/
theorem fixedButLast_findDomain (name : String) :
    FixedButLast (Query.OfDomain (Name.bare name)) (findDomain name) := by
  refine Or.inl ⟨rfl, fun found => ?_⟩
  change Option DomainRow at found
  cases found with
  | none => trivial
  | some row =>
    refine Or.inl ⟨rfl, fun nameservers => Or.inl ⟨rfl, fun rows => ?_⟩⟩
    change List SignerRow at rows
    dsimp only [Process.bind]
    cases rows.mapM (SignerRow.signer (Name.bare name)) with
    | error error => trivial
    | ok signers => exact Or.inr fun hosts => ⟨_, rfl⟩

/-- A domain that nobody stores while it is looked up is found as it was when the last statement
read, whatever else commits meanwhile. -/
theorem findDomain_of_spared {name : String} {states : List Tables} {last : Tables}
    {found : Except Error (Option Domain)} (sees : Sees (findDomain name) states found)
    (spared : states.Pairwise (Spared (Name.bare name))) (final : states.getLast? = some last) :
    found = (findDomain name).answered last.read :=
  eq_answered_of_sees (fixedButLast_findDomain name) sees
    (spared.imp fun spared _ own => read_of_spared spared own) final

/-- Each part of a domain is found as the statement saw it that read this part. -/
theorem sees_findDomain {name : String} {first second third fourth : Tables} {row : DomainRow}
    {signers : List DelegationSigner} (listed : first.read (.domain (Name.bare name)) = some row)
    (valid : List.mapM (SignerRow.signer (Name.bare name))
      (third.read (.signers (Name.bare name))) = .ok signers) :
    Sees (findDomain name) [first, second, third, fourth] (.ok (some {
      name := row.name
      registrarId := row.registrarId
      publishable := row.publishable ≠ 0
      nameservers := second.read (.nameservers (Name.bare name))
      signers
      subordinateHosts := fourth.read (.subordinateHosts (Name.bare name)) })) := by
  refine .read ?_
  rw [listed]
  refine .read (.read ?_)
  dsimp only [Process.bind]
  rw [valid]
  exact .read (.done _)

/-- Where there is one nameserver, one DS record and no host, these are found. -/
theorem sees_findDomain_of_single {name : String} {first second third fourth : Tables}
    (row : DomainRow) (nameserver : NameserverRow) (signerRow : SignerRow)
    (signer : DelegationSigner)
    (listed : first.domains.find? (fun row => row.name == Name.bare name) = some row)
    (served : second.nameservers.filter (fun row => row.domain == Name.bare name) = [nameserver])
    (signed : third.signers.filter (fun row => row.domain == Name.bare name) = [signerRow])
    (valid : signerRow.signer (Name.bare name) = .ok signer) (hostless : fourth.hosts = []) :
    Sees (findDomain name) [first, second, third, fourth] (.ok (some
      ⟨row.name, row.registrarId, row.publishable ≠ 0, [nameserver.host], [signer], []⟩)) := by
  have nameservers : second.read (.nameservers (Name.bare name)) = [nameserver.host] := by
    rw [Tables.read, served, List.mergeSort_singleton]
    rfl
  have signers : List.mapM (SignerRow.signer (Name.bare name))
      (third.read (.signers (Name.bare name))) = .ok [signer] := by
    rw [Tables.read, signed, List.mergeSort_singleton, List.mapM_cons, valid]
    rfl
  have hosts : fourth.read (.subordinateHosts (Name.bare name)) = ([] : List String) := by
    rw [Tables.read, hostless]
    exact List.mergeSort_nil
  have sees : Sees (findDomain name) [first, second, third, fourth] _ :=
    sees_findDomain listed signers
  rw [nameservers, hosts] at sees
  exact sees

/-- A domain before and after it is stored anew, with another nameserver and another key. -/
def formerDomain : Domain :=
  ⟨"a.test", "registrar-1", true, ["ns1.test"], [⟨1, 8, 2, "AA"⟩], []⟩
def latterDomain : Domain :=
  ⟨"a.test", "registrar-1", true, ["ns2.test"], [⟨2, 8, 2, "BB"⟩], []⟩

/-- The former nameserver with the latter key. -/
def tornDomain : Domain :=
  ⟨"a.test", "registrar-1", true, ["ns1.test"], [⟨2, 8, 2, "BB"⟩], []⟩

/-- The tables that hold a domain alone. -/
def tablesOf (domain : Domain) : Tables :=
  { Tables.empty with
    domains := [domainRow domain]
    nameservers := nameserverRows domain
    signers := signerRows domain }

/-- If the domain is stored anew between the statements that read nameservers and DS data, it is
found as neither the tables before nor those after it hold it. -/
theorem torn_latterDomain :
    (tablesOf formerDomain).apply (.domain latterDomain) = .ok (tablesOf latterDomain) ∧
      Sees (findDomain "a.test") [tablesOf formerDomain, tablesOf formerDomain,
        tablesOf latterDomain, tablesOf latterDomain] (.ok (some tornDomain)) ∧
      (findDomain "a.test").answered (tablesOf formerDomain).read = .ok (some formerDomain) ∧
      (findDomain "a.test").answered (tablesOf latterDomain).read = .ok (some latterDomain) ∧
      tornDomain ≠ formerDomain ∧ tornDomain ≠ latterDomain := by
  have former : Sees (findDomain "a.test") (List.replicate 4 (tablesOf formerDomain))
      (.ok (some formerDomain)) :=
    sees_findDomain_of_single (domainRow formerDomain) ⟨"a.test", "ns1.test", 0⟩
      ⟨"a.test", 1, 8, 2, "AA"⟩ ⟨1, 8, 2, "AA"⟩ (by decide) (by decide) (by decide) (by decide) rfl
  have latter : Sees (findDomain "a.test") (List.replicate 4 (tablesOf latterDomain))
      (.ok (some latterDomain)) :=
    sees_findDomain_of_single (domainRow latterDomain) ⟨"a.test", "ns2.test", 0⟩
      ⟨"a.test", 2, 8, 2, "BB"⟩ ⟨2, 8, 2, "BB"⟩ (by decide) (by decide) (by decide) (by decide) rfl
  have torn : Sees (findDomain "a.test") [tablesOf formerDomain, tablesOf formerDomain,
      tablesOf latterDomain, tablesOf latterDomain] (.ok (some tornDomain)) :=
    sees_findDomain_of_single (domainRow formerDomain) ⟨"a.test", "ns1.test", 0⟩
      ⟨"a.test", 2, 8, 2, "BB"⟩ ⟨2, 8, 2, "BB"⟩ (by decide) (by decide) (by decide) (by decide) rfl
  exact ⟨by decide, torn, former.alone fun _ => List.eq_of_mem_replicate,
    latter.alone fun _ => List.eq_of_mem_replicate, by decide, by decide⟩

end Zonecast.Registry
