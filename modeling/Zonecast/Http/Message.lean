/-
Requests to the services spoken to over HTTP, and what comes back. Who carries a request is left
open: a carrier answers it with a response, or loses it. A request whose header values cannot stand
in a header is lost before it is carried.
-/
import Zonecast.Json.Basic

namespace Zonecast.Http

inductive Method
  | get
  | post
  | put
  | patch
  | delete
  deriving DecidableEq, Repr

/-- What a request carries. -/
inductive Body
  | none
  | json (value : Json)
  /-- Form fields, already written as one text. -/
  | form (text : String)

structure Request where
  method : Method
  url : String
  headers : List (String × String)
  body : Body

structure Response where
  status : Nat
  body : String
  deriving DecidableEq, Repr

/-- Whether the status tells of success. -/
def Response.isSuccess (response : Response) : Bool :=
  200 ≤ response.status && response.status < 300

/-- Whether a header value can be sent: no control characters but tabs. -/
def isHeaderValue (value : String) : Bool :=
  value.toList.all fun c => c == '\t' || (' ' ≤ c && c != '\x7f')

/-- Whoever carries a request to its service, and the response back. -/
abbrev Carrier := Request → Option Response

/-- The carrier by whom every request is lost. -/
def unreachable : Carrier := fun _ => none

/-- The response to a request, if it can be sent and is not lost. -/
def exchange (carry : Carrier) (request : Request) : Option Response :=
  if request.headers.all fun header => isHeaderValue header.2 then carry request else none

end Zonecast.Http
