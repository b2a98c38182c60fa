/-
The registry data that publishing reads: domains with their delegation, hosts with their
addresses, registrars with their contacts, and the shard count of each TLD. A lookup can fail in
two ways that are told apart: the store itself fails, or it holds a row that no record can be
made of.
-/
import Zonecast.Registry.Address
import Zonecast.Text.Letter

namespace Zonecast

open Zonecast.Text

/-- One DS record of a delegated domain. -/
structure DelegationSigner where
  keyTag : UInt16
  algorithm : UInt8
  digestType : UInt8
  /-- Hexadecimal digits, of either case. -/
  digest : String
  deriving DecidableEq, Repr

/-- The presentation text: key tag, algorithm, digest type and the digest in capitals. -/
def DelegationSigner.rdata (signer : DelegationSigner) : String :=
  toString signer.keyTag.toNat ++ " " ++ toString signer.algorithm.toNat ++ " " ++
    toString signer.digestType.toNat ++ " " ++ upper signer.digest

/-- A registered domain. -/
structure Domain where
  name : String
  registrarId : String
  /-- False while the domain is on hold or otherwise kept out of the zone. -/
  publishable : Bool
  nameservers : List String
  signers : List DelegationSigner
  /-- The hosts registered under this domain. -/
  subordinateHosts : List String
  deriving DecidableEq, Repr

/-- A registered host. -/
structure Host where
  name : String
  registrarId : String
  addresses : List Address
  /-- The registered domain that the host lies in, if any. -/
  superordinateDomain : Option String
  deriving DecidableEq, Repr

/-- A registrar and the addresses its failures are told to. -/
structure Registrar where
  id : String
  name : String
  emails : List String
  deriving DecidableEq, Repr

namespace Registry

/-- Which rule of the store a rejected row breaks. -/
inductive StoreFault
  | checkViolation
  | foreignKeyViolation
  | uniqueViolation
  | notNullViolation
  | other
  deriving DecidableEq, Repr

/-- Why a registry call fails. -/
inductive Error
  | store (fault : StoreFault)
  | corrupt (name reason : String)
  deriving DecidableEq, Repr

/-- The wording of a failure. The store's own wording is not part of it. -/
def Error.message : Error → String
  | .store _ => "registry database error"
  | .corrupt name reason => "corrupt registry row for " ++ name ++ ": " ++ reason

end Registry

end Zonecast
