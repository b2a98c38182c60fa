/-
The zone backend over HTTP. Each call is one request to the server's part of the interface, with
the key that opens it in a header, and no request is repeated. A reply that says that the thing
asked for is not there is told apart from any other refusal. Where a call asks for a value, a
reply that the value cannot be read from counts as lost; where it does not, the reply's text is
not looked at.
-/
import Zonecast.Backend
import Zonecast.Http.Message
import Zonecast.Json.Reader
import Zonecast.Text.Pieces

namespace Zonecast.Backend

open Zone Http

/-- Where the interface is, the key that opens it, and the server spoken to. -/
structure Endpoint where
  baseUrl : String
  apiKey : String
  server : String
  deriving DecidableEq, Repr

/-! ### Requests -/

/-- A call's method, its path below the server, and what it carries. -/
def Call.route : Call → Method × String × Body
  | .listZones => (.get, "zones", .none)
  | .getZone zone => (.get, "zones/" ++ zone, .none)
  | .createZone creation => (.post, "zones", .json creation.toJson)
  | .patchZone zone recordSets =>
    (.patch, "zones/" ++ zone,
      .json (.object [("rrsets", .array (recordSets.map RecordSet.toJson))]))
  | .updateZone zone settings => (.put, "zones/" ++ zone, .json settings.toJson)
  | .rectifyZone zone => (.put, "zones/" ++ zone ++ "/rectify", .none)
  | .listKeys zone => (.get, "zones/" ++ zone ++ "/cryptokeys", .none)
  | .createKey zone key => (.post, "zones/" ++ zone ++ "/cryptokeys", .json key.toJson)
  | .setKeyActive zone key active =>
    (.put, "zones/" ++ zone ++ "/cryptokeys/" ++ toString key.toNat,
      .json (.object [("active", .bool active)]))
  | .deleteKey zone key =>
    (.delete, "zones/" ++ zone ++ "/cryptokeys/" ++ toString key.toNat, .none)
  | .getMetadata zone kind => (.get, "zones/" ++ zone ++ "/metadata/" ++ kind, .none)
  | .createMetadata zone metadata =>
    (.post, "zones/" ++ zone ++ "/metadata", .json metadata.toJson)
  | .getTransferKey name => (.get, "tsigkeys/" ++ name, .none)
  | .createTransferKey key => (.post, "tsigkeys", .json key.toJson)

/-- The word for a request in messages. -/
def Call.requestName : Call → String
  | .setKeyActive _ _ _ => "modify_cryptokey"
  | call => call.operation

namespace Endpoint

/-- The base without slashes at its end. -/
def base (endpoint : Endpoint) : String :=
  String.ofList (Text.dropEnd (· == '/') endpoint.baseUrl.toList)

/-- A request to a path below the base. -/
def ask (endpoint : Endpoint) (method : Method) (path : String) (body : Body) : Http.Request :=
  ⟨method, endpoint.base ++ path, [("x-api-key", endpoint.apiKey)], body⟩

/-- The request of a call. -/
def request (endpoint : Endpoint) (call : Call) : Http.Request :=
  let (method, path, body) := call.route
  endpoint.ask method ("/servers/" ++ endpoint.server ++ "/" ++ path) body

end Endpoint

/-! ### Replies -/

/-- What a response means to a request of some name. -/
def meaning {α : Type} (name : String) (read : String → Option α) :
    Option Response → Except Error α
  | none => .error (.transport name)
  | some response =>
    if response.status = 404 then .error (.notFound name)
    else if response.isSuccess then
      match read response.body with
      | some value => .ok value
      | none => .error (.transport name)
    else .error (.status name response.status response.body)

/-- Reads a value out of the text of a reply. -/
def readReply {α : Type} (decode : Json → Option α) (text : String) : Option α :=
  (Json.read? text).bind decode

/-- Reads what a call is answered with. -/
def Call.readValue : (call : Call) → String → Option (Value call)
  | .listZones => readReply (Json.list? Detail.ofJson?)
  | .getZone _ | .createZone _ => readReply Detail.ofJson?
  | .listKeys _ => readReply (Json.list? SigningKey.ofJson?)
  | .createKey _ _ => readReply SigningKey.ofJson?
  | .getMetadata _ _ => readReply Metadata.ofJson?
  | .getTransferKey _ | .createTransferKey _ => readReply TransferKey.ofJson?
  | .patchZone _ _ | .updateZone _ _ | .rectifyZone _ | .setKeyActive _ _ _ | .deleteKey _ _
  | .createMetadata _ _ => fun _ => some ()

/-- The JSON form of what a call is answered with, if that is anything. -/
def Call.valueJson? : (call : Call) → Value call → Option Json
  | .listZones => fun zones => some (.array (zones.map Detail.toJson))
  | .getZone _ | .createZone _ => fun zone => some zone.toJson
  | .listKeys _ => fun keys => some (.array (keys.map SigningKey.toJson))
  | .createKey _ _ => fun key => some key.toJson
  | .getMetadata _ _ => fun metadata => some metadata.toJson
  | .getTransferKey _ | .createTransferKey _ => fun key => some key.toJson
  | .patchZone _ _ | .updateZone _ _ | .rectifyZone _ | .setKeyActive _ _ _ | .deleteKey _ _
  | .createMetadata _ _ => fun _ => none

namespace Endpoint

/-- Makes a call. -/
def perform (endpoint : Endpoint) (carry : Carrier) (call : Call) : Except Error (Value call) :=
  meaning call.requestName call.readValue (exchange carry (endpoint.request call))

/-- The servers behind the interface. -/
def listServers (endpoint : Endpoint) (carry : Carrier) : Except Error (List Server) :=
  meaning "list_servers" (readReply (Json.list? Server.ofJson?))
    (exchange carry (endpoint.ask .get "/servers" .none))

end Endpoint

end Zonecast.Backend
