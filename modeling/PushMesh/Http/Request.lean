import PushMesh.Http.Form
import PushMesh.Http.MediaType
import PushMesh.Json.Reader
import PushMesh.Number.Word

/-!
# Requests

A request has a method, a path with perhaps a query, headers and a body. Names of headers do not
differ by upper and lower case; of several headers with one name the first one counts. The value of
a header is only used as a text if it is one of visible ASCII characters, spaces and tabs.
-/

namespace PushMesh.Http

/-- A request. -/
structure Request where
  method : String
  path : String
  query : String
  /-- Names and values, in order. -/
  headers : List (String × String)
  body : String

/-- Why a request is refused before what it asks for is considered. -/
inductive Rejection where
  /-- A part of the path is no text or not of the wanted form. -/
  | path
  /-- A field of the query is repeated or not of the wanted form. -/
  | query
  /-- The body is not declared to be JSON. -/
  | mediaType
  /-- The body is too long. -/
  | bodyLength
  /-- The body is no JSON. -/
  | bodyForm
  /-- The body is JSON of another shape. -/
  | bodyShape
deriving DecidableEq

namespace Rejection

/-- The status with which a request is refused. -/
def status : Rejection → Nat
  | path => 400
  | query => 400
  | mediaType => 415
  | bodyLength => 413
  | bodyForm => 400
  | bodyShape => 422

/-- The wording with which a request is refused. -/
def text : Rejection → String
  | path => "Invalid path parameter"
  | query => "Invalid query"
  | mediaType => "Expected a JSON content type"
  | bodyLength => "Body too long"
  | bodyForm => "Body is not JSON"
  | bodyShape => "Body has an unexpected shape"

end Rejection

namespace Request

/-- A request for a target: a path, after a question mark a query, after a hash what is not sent. -/
def ofTarget (method target : String) (headers : List (String × String)) (body : String) :
    Request :=
  let sent := target.toList.takeWhile (· ≠ '#')
  let (path, query) := (Text.splitOnce? '?' sent).getD (sent, [])
  { method, path := String.ofList path, query := String.ofList query, headers, body }

/-- Whether a character may stand in a header that is used as a text. -/
def isHeaderChar (c : Char) : Bool :=
  (' ' ≤ c && c ≤ '~') || c = '\t'

/-- The text of the first header of a name, which is given in lower case. -/
def header? (r : Request) (name : String) : Option String :=
  ((r.headers.find? fun h => Text.lowered h.1 == name).map (·.2)).filter
    fun value => value.toList.all isHeaderChar

/-- The token that the request presents. -/
def bearerToken? (r : Request) : Option String := do
  let value ← r.header? "authorization"
  return String.ofList (← Text.afterPrefix? "Bearer ".toList value.toList)

/-- The length of the body that the headers declare. -/
def declaredLength? (r : Request) : Option Nat := do
  return (← Number.word? (← r.header? "content-length")).toNat

/-- The length of the body in bytes. -/
def bodyLength (r : Request) : Nat := r.body.utf8ByteSize

/-- The fields of the query, of which those named may not be repeated. -/
def form (r : Request) (names : List String) : Except Rejection Form :=
  let form := Form.ofQuery r.query
  if form.isClear names then .ok form else .error .query

/-- Whether the body is declared to be JSON. -/
def isJson (r : Request) : Bool :=
  ((r.header? "content-type").bind MediaType.parse?).any (·.isJson)

/-- The body as typed data, at most so many bytes of it. -/
def decodeBody {α : Type} (r : Request) (limit : Nat) (reader : Json.Reader α) :
    Except Rejection α :=
  if !r.isJson then .error .mediaType
  else if limit < r.bodyLength then .error .bodyLength
  else
    match reader.decode r.body with
    | .ok a => .ok a
    | .error .malformed => .error .bodyForm
    | .error .mismatch => .error .bodyShape

end Request

end PushMesh.Http
