/-
The interface that the queue and the operators talk to. The queue posts batches to one path and is
asked for credentials first; whatever else is wrong with a request is told only to those who show
them. A batch is acknowledged when its delivery is done; a status of 500 or above asks the queue
to deliver it again. Two more paths tell that the service is up and what it has counted.
-/
import Zonecast.Api.Request
import Zonecast.Configuration.Basic
import Zonecast.Json.Basic
import Zonecast.Password.Record
import Zonecast.Publish.Form

namespace Zonecast

namespace Api

open Zonecast.Publish Zonecast.Text

/-! ### Responses -/

/-- What a response carries. -/
inductive Body
  | empty
  | text (content : String)
  | json (content : Json)
  | exposition (text : String)

/-- A response. -/
structure Response where
  status : Nat
  contentType : Option String
  body : Body

/-- A response in JSON. -/
def Response.json (status : Nat) (content : Json) : Response :=
  ⟨status, some "application/json", .json content⟩

/-- A response that only tells what is wrong. -/
def Response.failure (status : Nat) (message : String) : Response :=
  .json status (.object [("error", .string message)])

/-- The answer to those who show no credentials, or wrong ones. -/
def Response.unauthorized : Response := .failure 401 "unauthorized"

/-- The answer where something went wrong that is no fault of the request. -/
def Response.internalError : Response := .failure 500 "internal server error"

/-- The answer without content for a path or a method that is not served. -/
def Response.bare (status : Nat) : Response := ⟨status, none, .empty⟩

/-! ### Calls -/

/-- A call that answering a request makes. -/
inductive ApiCall
  | delivery (request : DeliveryCall)
  /-- The metrics as text. -/
  | exposition

end Api

open Api in
/-- The interface of answering a request. -/
def Api : Interface where
  Call := ApiCall
  Reply
    | .delivery request => Delivery.Reply request
    | .exposition => String

namespace Api

open Zonecast.Publish Zonecast.Text

/-- The calls of a delivery as calls of answering a request. -/
def delivering : Process.Inclusion Delivery Api where
  call := .delivery
  reply _ reply := reply

/-! ### Publishing -/

/-- Counts in JSON. -/
def countsJson (counts : Counts) : Json :=
  .object [("accepted", .nat counts.accepted), ("rejected", .nat counts.rejected)]

/-- The word for the reason of a return to the refresh path. -/
def reasonWord : RequeueReason → String
  | .badShard => "BadShard"
  | .unknownWriter => "UnknownWriter"

/-- The answer to a delivery that is done. -/
def ofOutcome : Outcome → Response
  | .succeeded domains hosts =>
    .json 200 (.object [("outcome", .string "succeeded"), ("domains", countsJson domains),
      ("hosts", countsJson hosts)])
  | .requeued reason =>
    .json 200 (.object [("outcome", .string "requeued"), ("reason", .string (reasonWord reason))])
  | .split => .json 200 (.object [("outcome", .string "split")])
  | .permanentlyFailed => .json 202 (.object [("outcome", .string "permanently_failed")])

/-- The answer to a delivery that is not done. -/
def ofError (error : Publish.Error) : Response :=
  match error with
  | .lockUnavailable _ _ => .failure 503 error.message
  | _ => .internalError

/-- Whether a request shows the configured credentials; fails if the configured password record is
none. -/
def isAuthorized (queue : Configuration.Credentials) (request : Request) : Option Bool :=
  match request.credentials? with
  | some (username, password) =>
    if username = queue.username then Password.verify queue.passwordHash password else some false
  | none => some false

/-- The header that counts earlier deliveries. -/
def retryHeader : String := "x-cloudtasks-taskretrycount"

/-- How often the queue has delivered the batch before. -/
def attempt? (request : Request) : Option Nat :=
  match request.header? retryHeader with
  | none => some 0
  | some _ => do
    let value ← request.visibleHeader? retryHeader
    (readUInt32 (String.ofList (trimChars value))).toOption

/-- The type of a form. -/
def formType : String := "application/x-www-form-urlencoded"

/-- Whether a request says that it carries a form. -/
def carriesForm (request : Request) : Bool :=
  match request.visibleHeader? "content-type" with
  | some value => formType.toList.isPrefixOf value
  | none => false

/-- The batch and the attempt that a request carries, or what is wrong with it. -/
def readDelivery (request : Request) : Except String (Batch × Nat) := do
  if !carriesForm request then
    throw ("Form requests must have \x60Content-Type: " ++ formType ++ "\x60")
  let form ← (Form.read request.body).mapError fun error =>
    "Failed to deserialize form body: " ++ error.located
  let batch ← (Batch.ofForm form).mapError Batch.Error.message
  match attempt? request with
  | some attempt => return (batch, attempt)
  | none => throw ("invalid " ++ retryHeader ++ " header")

/-- Answers a request that posts a batch. -/
def publish (configuration : Configuration) (request : Request) : Process Api Response :=
  match isAuthorized configuration.queue request with
  | none => .done .internalError
  | some false => .done .unauthorized
  | some true =>
    match readDelivery request with
    | .error message => .done (.failure 400 message)
    | .ok (batch, attempt) => do
      match ← (Delivery.publish configuration.delivery batch attempt).embed delivering with
      | .ok outcome => return ofOutcome outcome
      | .error error => return ofError error

/-! ### Paths -/

/-- The path that batches are posted to. -/
def publishPath : String := "/_dr/task/publishDnsUpdates"

/-- A response without its content, for a request that asks for no more. -/
def headed (method : String) (response : Response) : Response :=
  if method = "HEAD" then
    match response.body with
    | .exposition _ => { response with body := .exposition "" }
    | _ => { response with body := .text "" }
  else response

/-- Answers a request for the metrics. -/
def metrics (method : String) : Process Api Response := do
  let text : String ← Process.perform (I := Api) .exposition
  return headed method
    ⟨200, some "application/openmetrics-text; version=1.0.0; charset=utf-8", .exposition text⟩

/-- Answers a request. -/
def respond (configuration : Configuration) (request : Request) : Process Api Response :=
  let reads := request.method = "GET" ∨ request.method = "HEAD"
  if request.path = publishPath then
    if request.method = "POST" then publish configuration request else .done (.bare 405)
  else if request.path = "/metrics" then
    if reads then metrics request.method else .done (.bare 405)
  else if request.path = "/healthz" then
    if reads then
      .done (headed request.method ⟨200, some "text/plain; charset=utf-8", .text "ok"⟩)
    else .done (.bare 405)
  else .done (.bare 404)

end Api

end Zonecast
