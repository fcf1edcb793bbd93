import PushMesh.Operation.Basic

/-!
# Routes

What a service answers under which path and method. Every route has exactly one path and one method;
a route that answers to GET answers to HEAD too. A part of a path that varies is never empty, and a
fixed path goes before one that varies.
-/

namespace PushMesh

/-- The method of a route. -/
inductive Verb where
  | get
  | post
  | delete
deriving DecidableEq

namespace Verb

/-- The methods that a route answers to, as listed in answers. -/
def allow : Verb → String
  | get => "GET,HEAD"
  | post => "POST"
  | delete => "DELETE"

/-- Whether a route answers to a method. -/
def accepts : Verb → String → Bool
  | get, method => method == "GET" || method == "HEAD"
  | post, method => method == "POST"
  | delete, method => method == "DELETE"

end Verb

/-- What a service answers to. Parts of paths that vary are as they stand in the path. -/
inductive Route where
  /-- Open a stream of events. -/
  | events
  /-- Tell whether the node lives. -/
  | health
  /-- Statistics of the node. -/
  | stats
  | metrics
  /-- Connections of the cluster. -/
  | connections
  | connectionCount
  /-- The keys in use. -/
  | keys (kind : KeyKind)
  /-- The number of keys in use. -/
  | keyCount (kind : KeyKind)
  /-- Whether a user has a connection. -/
  | online (userId : String)
  /-- Close the connections of a user. -/
  | disconnectUser (userId : String)
  /-- Close the connections with a token. -/
  | disconnectToken (accessToken : String)
  /-- Close one connection. -/
  | disconnectConnection (id : String)
  /-- Close several connections. -/
  | disconnectConnections
  /-- Send to the connections with at least one of several keys. -/
  | sendKeys (kind : KeyKind)
  /-- Send to the connections with a key. -/
  | sendKey (kind : KeyKind) (key : String)
  /-- Send to one connection. -/
  | sendConnection (id : String)
  /-- Send to every connection. -/
  | sendAll
  /-- The node and its peers. -/
  | nodes
  /-- Run an operation for a peer. -/
  | rpc
deriving DecidableEq

namespace Route

/-- The method of a route. -/
def verb : Route → Verb
  | events | health | stats | metrics | connections | connectionCount | keys _ | keyCount _
  | online _ | nodes => .get
  | disconnectUser _ | disconnectToken _ | disconnectConnection _ => .delete
  | disconnectConnections | sendKeys _ | sendKey .. | sendConnection _ | sendAll | rpc => .post

/-- A route with a part that varies, unless the part is empty. -/
def varying (f : String → Route) (part : String) : Option Route :=
  if part.isEmpty then none else some (f part)

/-- The kind of key that lists are named for. -/
def kind? : String → Option KeyKind
  | "users" => some .user
  | "tokens" => some .token
  | "tags" => some .tag
  | _ => none

/-- The route of the parts of a path below the root of the interface. -/
def find : List String → Option Route
  | ["connections"] => some connections
  | ["connections", "count"] => some connectionCount
  | ["connections", id] => varying disconnectConnection id
  | ["connections", "users", userId] => varying disconnectUser userId
  | ["connections", "tokens", token] => varying disconnectToken token
  | ["users", "count"] => some (keyCount .user)
  | ["tokens", "count"] => some (keyCount .token)
  | ["users", userId, "online"] => varying online userId
  | ["disconnect", "connections"] => some disconnectConnections
  | ["send", "all"] => some sendAll
  | ["send", "connections", id] => varying sendConnection id
  | ["send", kind] => (kind? kind).map sendKeys
  | ["send", kind, key] => (kind? kind).bind fun kind => varying (sendKey kind) key
  | ["cluster", "nodes"] => some nodes
  | ["cluster", "rpc"] => some rpc
  | [kind] => (kind? kind).map keys
  | _ => none

/-- The path under which peers send their calls. -/
def rpcPath : String := "/api/v1/cluster/rpc"

/-- The route of a path. -/
def ofPath? (path : String) : Option Route :=
  match (Text.splitAll '/' path.toList).map String.ofList with
  | ["", "sse"] => some events
  | ["", "health"] => some health
  | ["", "stats"] => some stats
  | ["", "metrics"] => some metrics
  | "" :: "api" :: "v1" :: parts => find parts
  | _ => none

end Route

end PushMesh
