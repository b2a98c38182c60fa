/-
The tables of the registry as content. What a commit looks up is found in the tables by several
statements each, and after any sequence of transactions every such lookup is answered. So the tables
have a content, and a commit whose lookups are met by the tables is told just this content.

A host is stored under the bare form of its name, and a nameserver in its bare form. A commit takes
the bare form of the nameserver once more to look its host up, and so do the tables. Glue is
therefore found under its own name if the bare forms of the stored nameservers are their own.
-/
import Zonecast.Proofs.StoredRecords
import Zonecast.Proofs.WantedRecords

namespace Zonecast

open Text

namespace Registry

/-- What is found in the tables. -/
def Tables.content (tables : Tables) : Content where
  domain? name := ((findDomain name).answered tables.read).toOption.join
  host? name := ((findHost name).answered tables.read).toOption.join

/-- A commit's calls, with those to the registry met by the tables and the rest in some other
way. -/
def Tables.answer (tables : Tables) (others : (request : Commit.Call) → Commit.Reply request) :
    (request : Commit.Call) → Commit.Reply request
  | .registry request => (tables.serve request).1
  | request => others request

/-- The bare forms of the nameservers that were ever stored are their own. -/
def Steady (history : List Edit) : Prop :=
  ∀ domain, Edit.domain domain ∈ history → ∀ nameserver ∈ domain.nameservers,
    Name.bare (Name.bare nameserver) = Name.bare nameserver

variable {history : List Edit} {tables : Tables}

/-- Lookups are answered with what is found. -/
theorem Records.tells (records : Records history tables)
    (others : (request : Commit.Call) → Commit.Reply request) :
    tables.content.Tells (tables.answer others) where
  domain name := by
    obtain ⟨found, answered⟩ := (records.domain_found name).isOk
    show (findDomain name).answered tables.read =
      .ok ((findDomain name).answered tables.read).toOption.join
    rw [answered]
    rfl
  host name := by
    obtain ⟨found, answered⟩ := (records.host_found name).isOk
    show (findHost name).answered tables.read =
      .ok ((findHost name).answered tables.read).toOption.join
    rw [answered]
    rfl

/-- What is found was stored. -/
theorem Answers.stored {α β : Type} {last : Option α} {found : α → β → Prop}
    {answer : Except Error (Option β)} (answers : Answers last found answer) {result : β}
    (there : answer.toOption.join = some result) :
    ∃ value, last = some value ∧ found value result := by
  cases last with
  | none =>
    obtain rfl : answer = .ok none := answers
    cases there
  | some value =>
    obtain ⟨other, rfl, same⟩ := answers
    obtain rfl : other = result := Option.some.inj there
    exact ⟨value, rfl, same⟩

theorem Records.domain_content (records : Records history tables) {name : String} {found : Domain}
    (there : tables.content.domain? name = some found) :
    ∃ domain, Edit.domain domain ∈ history ∧ DomainFound history domain found := by
  obtain ⟨domain, stored, same⟩ := (records.domain_found name).stored there
  obtain ⟨edit, member, selects⟩ := exists_of_latest stored
  exact ⟨domain, (Edit.eq_of_domainOf selects).1 ▸ member, same⟩

/-- A host is found under the bare form of the name that it is looked up by. -/
theorem Records.host_content (records : Records history tables) {name : String} {found : Host}
    (there : tables.content.host? name = some found) : found.name = Name.bare name := by
  obtain ⟨host, stored, same⟩ := (records.host_found name).stored there
  obtain ⟨edit, _, selects⟩ := exists_of_latest stored
  exact same.name.trans (Edit.eq_of_hostOf selects).2

/-- Glue is found under its own name where the stored nameservers are steady. -/
theorem Records.named (records : Records history tables) (steady : Steady history) :
    tables.content.Named := by
  intro owner name needed host found
  obtain ⟨domain, there, _, own⟩ := (Content.mem_needed _ owner name).mp needed
  obtain ⟨stored, edited, same⟩ := records.domain_content there
  rw [Writer.hasOwnNameserver, Bool.and_eq_true, List.contains_iff_mem] at own
  obtain ⟨nameserver, listed, rfl⟩ := List.mem_map.mp own.1
  rw [same.nameservers, mem_distinct] at listed
  obtain ⟨given, member, rfl⟩ := List.mem_map.mp listed
  have kept : Name.bare (Name.bare given) = Name.bare given := steady stored edited given member
  rw [Name.bare_canonical] at found
  rw [records.host_content found]
  refine Name.canonical_eq_of_bare_eq _ _ ?_
  rw [kept, kept, kept]

end Registry

end Zonecast
