/-
The registry as a collaborator: the lookups that publishing makes, and the request to publish
names again through the normal batching path.
-/
import Zonecast.Process
import Zonecast.Registry.Basic
import Zonecast.Time.Instant

namespace Zonecast

namespace Registry

/-- A call to the registry. -/
inductive Call
  /-- The configured number of shards of a TLD, if the TLD is known. -/
  | shardCount (tld : String)
  | domain (name : String)
  | host (name : String)
  | registrar (id : String)
  | requestRefresh (domains hosts : List String) (now : Instant)

/-- What a call that succeeds is answered with. -/
def Value : Call → Type
  | .shardCount _ => Option Nat
  | .domain _ => Option Domain
  | .host _ => Option Host
  | .registrar _ => Option Registrar
  | .requestRefresh _ _ _ => Unit

end Registry

/-- The interface of the registry. -/
def Registry : Interface where
  Call := Registry.Call
  Reply request := Except Registry.Error (Registry.Value request)

end Zonecast
