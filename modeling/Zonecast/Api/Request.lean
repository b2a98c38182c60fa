/-
Requests as they reach the interface, and the credentials they show. Header names are compared
without regard to case, and the first header of a name counts. A header is read as text only if it
is visible ASCII, spaces and tabs included.
-/
import Zonecast.Http.Message
import Zonecast.Http.Target
import Zonecast.Text.Base64
import Zonecast.Text.Blank
import Zonecast.Text.Utf8

namespace Zonecast.Api

open Zonecast.Text

/-- A request. -/
structure Request where
  method : String
  path : String
  headers : List (String × String)
  body : String
  deriving DecidableEq, Repr

namespace Request

/-- The request with these parts, if each of them is what it has to be. -/
def ofParts? (method target : String) (headers : List (String × String)) (body : String) :
    Option Request := do
  let path ← Http.path? target
  if Http.isToken method &&
      headers.all fun header => Http.isToken header.1 && Http.isHeaderValue header.2 then
    return ⟨method, path, headers, body⟩
  else none

/-- The first header of a name, given in lower case. -/
def header? (request : Request) (name : String) : Option String :=
  (request.headers.find? fun header => lower header.1 == name).map (·.2)

/-- Whether a header can be read as text. -/
def isVisible (value : List Char) : Bool :=
  value.all fun c => c == '\t' || (' ' ≤ c && c ≤ '~')

/-- The first header of a name as text, if it can be read as such. -/
def visibleHeader? (request : Request) (name : String) : Option (List Char) :=
  ((request.header? name).map String.toList).filter isVisible

end Request

/-! ### Credentials -/

/-- The user name and the password in a header value: `Basic`, a space, and base64 of the two with
a colon between. The user name ends at the first colon. -/
def credentials? (value : List Char) : Option (String × String) := do
  let 'B' :: 'a' :: 's' :: 'i' :: 'c' :: ' ' :: written := value | none
  let bytes ← Base64.decodePadded? (trimChars written)
  let text ← ofUtf8? bytes
  let username := text.takeWhile (· != ':')
  match text.drop username.length with
  | _ :: password => return (String.ofList username, String.ofList password)
  | [] => none

/-- The header value that shows a user name and a password. -/
def credentialsHeader (username password : String) : List Char :=
  "Basic ".toList ++ Base64.encodePadded (utf8 (username ++ ":" ++ password))

/-- The credentials that a request shows. -/
def Request.credentials? (request : Request) : Option (String × String) :=
  (request.visibleHeader? "authorization").bind Api.credentials?

end Zonecast.Api
