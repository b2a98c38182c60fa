/-
The queue and the mail relay over HTTP. Each takes a post, the queue a batch as a form and the
relay a mail as JSON, with a bearer token where there is one. A response other than success is a
refusal, whose text is kept.
-/
import Zonecast.Http.Message
import Zonecast.Publish.Delivery
import Zonecast.Publish.Record

namespace Zonecast.Publish

open Http

/-- Where to post, and the token that lets one. -/
structure Outlet where
  url : String
  token : Option String
  deriving DecidableEq, Repr

namespace Outlet

/-- A post with what it carries. -/
def post (outlet : Outlet) (body : Body) : Http.Request :=
  ⟨.post, outlet.url,
    outlet.token.toList.map fun token => ("authorization", "Bearer " ++ token), body⟩

/-- What a response to a post means. -/
def meaning : Option Response → Except Refusal Unit
  | none => .error .transport
  | some response =>
    if response.isSuccess then .ok () else .error (.rejected response.status response.body)

/-- Puts a batch on the queue. -/
def enqueue (outlet : Outlet) (carry : Carrier) (batch : Batch) : Except Refusal Unit :=
  meaning (exchange carry (outlet.post (.form batch.toForm.write)))

/-- Sends a mail. -/
def send (outlet : Outlet) (carry : Carrier) (mail : Mail) : Except Refusal Unit :=
  meaning (exchange carry (outlet.post (.json mail.toJson)))

end Outlet

end Zonecast.Publish
