import PushMesh.Descriptor
import PushMesh.Message

/-!
# Operations on a registry of connections

An operation asks any node about its connections, sends a message to some of them, or closes some
of them. A node answers with an `Output`, and over the wire with a `Response`.
-/

namespace PushMesh

/-- What connections are looked up by. -/
inductive KeyKind where
  | user
  | token
  | tag
deriving DecidableEq

namespace KeyKind

/-- The name of one key of this kind. -/
def name : KeyKind → String
  | user => "user_id"
  | token => "access_token"
  | tag => "tag"

/-- The name of a list of keys of this kind. -/
def pluralName : KeyKind → String
  | user => "user_ids"
  | token => "access_tokens"
  | tag => "tags"

end KeyKind

/-- The connections that a message is sent to. -/
inductive Audience where
  /-- Those with the key. -/
  | key (kind : KeyKind) (key : String)
  /-- The one with the id. -/
  | connection (id : ConnectionId)
  /-- Those with at least one of the keys. -/
  | keys (kind : KeyKind) (keys : List String)
  /-- Every connection. -/
  | all
deriving DecidableEq

/-- The connections that are closed. -/
inductive Closing where
  | user (userId : String)
  | token (accessToken : String)
  | connection (id : ConnectionId)
  | connections (ids : List ConnectionId)
deriving DecidableEq

/-- An operation that any node can run on its own connections. -/
inductive Operation where
  /-- Describe the connections with the key. -/
  | query (kind : KeyKind) (key : String)
  /-- Describe all connections. -/
  | queryAll
  /-- List the keys in use. -/
  | listKeys (kind : KeyKind)
  /-- Send a message. -/
  | send (audience : Audience) (message : Message)
  /-- Close connections. -/
  | disconnect (closing : Closing)
  /-- Count the connections. -/
  | count

namespace Operation

instance : Inhabited Operation := ⟨count⟩

/-- The stable name of an operation. -/
def name : Operation → String
  | query kind _ => "query_by_" ++ kind.name
  | queryAll => "query_all"
  | listKeys kind => "query_" ++ kind.pluralName
  | send (.key kind _) _ => "send_by_" ++ kind.name
  | send (.connection _) _ => "send_by_connection_id"
  | send (.keys kind _) _ => "send_by_" ++ kind.pluralName
  | send .all _ => "send_all"
  | disconnect (.user _) => "disconnect_by_user_id"
  | disconnect (.token _) => "disconnect_by_access_token"
  | disconnect (.connection _) => "disconnect_by_connection_id"
  | disconnect (.connections _) => "disconnect_by_connection_ids"
  | count => "connection_count"

/-- Whether running the operation twice differs from running it once. -/
def isMutating : Operation → Bool
  | send .. => true
  | disconnect _ => true
  | _ => false

end Operation

/-- What a node answers to an operation. -/
inductive Output where
  | count (n : UInt64)
  | connections (descriptors : List Descriptor)
  | keys (keys : List String)
deriving DecidableEq

namespace Output

instance : Inhabited Output := ⟨count 0⟩

/-- The name of the kind of answer. -/
def kind : Output → String
  | count _ => "count"
  | connections _ => "connections"
  | keys _ => "keys"

end Output

/-- What a peer answers over the wire. -/
inductive Response where
  | ok (value : Output)
  | error (text : String)
deriving DecidableEq

end PushMesh
