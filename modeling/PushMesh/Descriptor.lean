import PushMesh.Json.Reader
import PushMesh.Time.Rfc3339

/-!
# Descriptions of connections

A descriptor tells callers on any node what is known about one connection. It never carries the
connection itself.
-/

namespace PushMesh

/-- The number of a connection, unique in the cluster. -/
abbrev ConnectionId := UInt64

/-- What is known about a connection. -/
structure Descriptor where
  id : ConnectionId
  /-- The node that holds the connection. -/
  nodeId : String
  userId : Option String
  accessToken : Option String
  tags : List String
  connectedAt : Instant
  /-- Whether messages can still reach the client. -/
  alive : Bool
  /-- The number of messages queued for the client so far. -/
  delivered : UInt64
deriving DecidableEq

namespace Descriptor

instance : Inhabited Descriptor := ⟨⟨0, "", none, none, [], default, false, 0⟩⟩

/-- The written form. -/
def toJson (d : Descriptor) : Json :=
  .object
    [ ("connection_id", .nat d.id.toNat),
      ("node_id", .string d.nodeId),
      ("user_id", .option .string d.userId),
      ("access_token", .option .string d.accessToken),
      ("tags", .list .string d.tags),
      ("connected_at", .string d.connectedAt.text),
      ("alive", .bool d.alive),
      ("messages_delivered", .nat d.delivered.toNat) ]

/-- An instant. -/
def instantReader : Json.Reader Instant := do
  match Instant.parse? (← Json.Reader.string) with
  | some t => return t
  | none => .fault .mismatch

/-- The fields of a descriptor, in order. -/
def fields : List (Json.Reader.Field Descriptor) :=
  [ .required "connection_id" .word fun n d => { d with id := n },
    .required "node_id" .string fun s d => { d with nodeId := s },
    .optional "user_id" .string fun s d => { d with userId := s },
    .optional "access_token" .string fun s d => { d with accessToken := s },
    .required "tags" (.list .string) fun l d => { d with tags := l },
    .required "connected_at" instantReader fun t d => { d with connectedAt := t },
    .required "alive" .bool fun b d => { d with alive := b },
    .required "messages_delivered" .word fun n d => { d with delivered := n } ]

/-- Reads the written form. -/
def reader : Json.Reader Descriptor := .record fields default

end Descriptor

end PushMesh
