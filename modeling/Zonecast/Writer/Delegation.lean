/-
What the zone should hold for a domain, as staged operations. The delegation is cleared first:
every type is removed at the name, once as a whole and once type by type, because an assertion at
a name silences the removal as a whole and a type that is no longer carried would stay. Then, for
a publishable domain, its nameservers, its delegation signers and the addresses of those
nameservers that are its own hosts are asserted. Its other hosts are wiped.
-/
import Zonecast.Registry.Basic
import Zonecast.Zone.Change

namespace Zonecast.Writer

open Zone

/-- The times to live of published records. -/
structure TimesToLive where
  address : UInt32
  nameserver : UInt32
  signer : UInt32
  deriving DecidableEq, Repr

/-- Removes everything at a name, as a whole and type by type. -/
def clear (name : String) : List Operation :=
  .removeAll name :: RecordType.supported.map (.remove name)

/-- The record type of an address. -/
def addressType : Address → RecordType
  | .v4 _ _ _ _ => .a
  | .v6 _ => .aaaa

/-- Puts the addresses of a host in place of what its name holds. -/
def glueOperations (ttls : TimesToLive) (name : String) (addresses : List Address) :
    List Operation :=
  clear name ++ addresses.map fun address =>
    .assert name (addressType address) ttls.address address.text

/-- Asserts what a publishable domain delegates, with the addresses of its own nameservers. -/
def assertions (ttls : TimesToLive) (name : String) (domain : Domain) (glue : List Host) :
    List Operation :=
  (domain.nameservers.map fun nameserver =>
      .assert name .ns ttls.nameserver (Name.canonical nameserver)) ++
    (domain.signers.map fun signer => .assert name .ds ttls.signer signer.rdata) ++
    glue.flatMap fun host => glueOperations ttls (Name.canonical host.name) host.addresses

/-- Makes the zone hold what `domain` delegates at `name`; `glue` are the loaded hosts that the
domain both owns and uses as nameservers. -/
def delegation (ttls : TimesToLive) (name : String) (domain : Option Domain)
    (glue : List Host) : List Operation :=
  let name := Name.canonical name
  match domain with
  | none => clear name
  | some domain =>
    let glued := if domain.publishable then glue.map fun host => Name.canonical host.name else []
    let asserted := if domain.publishable then assertions ttls name domain glue else []
    let orphaned := (domain.subordinateHosts.map Name.canonical).filter fun host =>
      !glued.contains host
    clear name ++ asserted ++ orphaned.map .removeAll

/-- The nameservers of a domain that are its own hosts and so need glue, in canonical form. -/
def ownNameservers (domain : Domain) : List String :=
  (domain.nameservers.map Name.canonical).filter fun nameserver =>
    (domain.subordinateHosts.map Name.canonical).contains nameserver

end Zonecast.Writer
