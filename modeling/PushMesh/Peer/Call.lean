import PushMesh.Api.Route
import PushMesh.Api.Serve
import PushMesh.Http.Status
import PushMesh.Http.Url
import PushMesh.Trace.Context

/-!
# Calls to peers

A node calls its peer by posting an operation to the route for such calls, with the secret of the
cluster as a bearer token and the context of the current trace. What comes back is sorted into
three: an answer, an error that the peer reports, and everything that kept the peer from answering.
-/

namespace PushMesh

namespace Peer

/-- Whether an address names a scheme. -/
def hasScheme (address : String) : Bool :=
  let cs := address.toList
  (Text.afterPrefix? "http://".toList cs).isSome || (Text.afterPrefix? "https://".toList cs).isSome

/-- Where a node at an address is called. Slashes at the end of an address with a scheme do not
count. -/
def url (address : String) : String :=
  if hasScheme address then
    String.ofList (Text.dropEndWhile (· = '/') address.toList) ++ Route.rpcPath
  else "http://" ++ address ++ Route.rpcPath

/-- The name under which a node calls. -/
def agent : String := "sse-cluster/" ++ version

/-- The header that presents a secret. -/
def authorization (secret : String) : String × String :=
  ("authorization", "Bearer " ++ secret)

/-- Whether a secret can be sent in a header: it holds no control characters but tabs. -/
def isSendable (secret : String) : Bool :=
  secret.toList.all fun c => c = '\t' || (0x20 ≤ c.toNat && c.toNat ≠ 0x7F)

/-- The body of a call. -/
def body (op : Operation) : String := op.toJson.text

/-- The headers of a call. -/
def headers (secret : Option String) (trace : Option Trace.Context) (op : Operation) :
    List (String × String) :=
  secret.toList.map authorization
    ++ [("user-agent", agent), ("content-type", "application/json"),
        ("content-length", toString (body op).utf8ByteSize)]
    ++ (trace.map (·.headers)).getD []

/-- The request that a peer receives. -/
def request (secret : Option String) (trace : Option Trace.Context) (op : Operation) :
    Http.Request :=
  .ofTarget "POST" Route.rpcPath (headers secret trace op) (body op)

/-- Whether a call can be made at all. -/
def isCallable (address : String) (secret : Option String) : Bool :=
  Http.Url.isCallable (url address) && secret.all isSendable

/-- What comes back from a call. -/
inductive Delivery where
  /-- The call could not be made. -/
  | unsent (reason : String)
  /-- No connection came about. -/
  | refused (reason : String)
  /-- The connection was lost before the answer was complete. -/
  | lost (reason : String)
  /-- Nothing came in time. -/
  | late
  | answered (status : Nat) (body : String)

/-- The result of a call to a peer that is given up after so many milliseconds. An answer that is
well-formed counts whatever its status is. -/
def conclude (id : String) (timeout : Nat) : Delivery → Except PeerError Output
  | .unsent reason => .error (.unreachable reason)
  | .refused reason => .error (.unreachable ("connect failed: " ++ reason))
  | .lost reason => .error (.unreachable reason)
  | .late => .error (.timeout timeout)
  | .answered status body =>
    match Response.reader.decode body with
    | .ok (.ok value) => .ok value
    | .ok (.error text) => .error (.domain text)
    | .error _ =>
      if Http.isSuccess status then .error (.domain ("malformed response from " ++ id ++ ": "))
      else .error (.unreachable (id ++ " answered HTTP " ++ Http.statusText status))

end Peer

end PushMesh
