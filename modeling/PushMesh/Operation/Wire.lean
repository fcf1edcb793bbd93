import PushMesh.Operation.Basic

/-!
# The written form of operations and answers

An operation is an object with its name and, unless it has none, its arguments. The arguments are
always an object. An answer names its kind beside its data, and a response its status among its
fields.
-/

namespace PushMesh

namespace Operation

/-- The arguments of an operation, or none where it takes none. -/
def arguments? : Operation → Option (List (String × Json))
  | query kind key => some [(kind.name, .string key)]
  | queryAll => none
  | listKeys _ => none
  | send (.key kind key) m => some [(kind.name, .string key), ("message", m.toJson)]
  | send (.connection id) m => some [("connection_id", .nat id.toNat), ("message", m.toJson)]
  | send (.keys kind keys) m => some [(kind.pluralName, .list .string keys), ("message", m.toJson)]
  | send .all m => some [("message", m.toJson)]
  | disconnect (.user key) => some [(KeyKind.user.name, .string key)]
  | disconnect (.token key) => some [(KeyKind.token.name, .string key)]
  | disconnect (.connection id) => some [("connection_id", .nat id.toNat)]
  | disconnect (.connections ids) => some [("connection_ids", .list (.nat ·.toNat) ids)]
  | count => none

/-- The written form. -/
def toJson (op : Operation) : Json :=
  .object <|
    ("operation", .string op.name) :: (op.arguments?.map fun args => ("args", .object args)).toList

open Json.Reader

/-- One argument. -/
def argument {α : Type} [Inhabited α] (name : String) (r : Json.Reader α)
    (f : α → Operation) : Json.Reader Operation :=
  f <$> objectRecord [.required name r fun a _ => a] default

/-- One argument and a message. -/
def argumentAndMessage {α : Type} [Inhabited α] (name : String) (r : Json.Reader α)
    (f : α → Audience) : Json.Reader Operation :=
  (fun (a, m) => send (f a) m) <$>
    objectRecord
      [ .required name r fun a (_, m) => (a, m),
        .required "message" Message.reader fun m (a, _) => (a, m) ]
      (default, default)

/-- The cases that one kind of key allows. -/
def keyCases (kind : KeyKind) : List (Case Operation) :=
  [ .of ("query_by_" ++ kind.name) (argument kind.name string (query kind)),
    .plain ("query_" ++ kind.pluralName) (listKeys kind),
    .of ("send_by_" ++ kind.name) (argumentAndMessage kind.name string (.key kind)),
    .of ("send_by_" ++ kind.pluralName)
      (argumentAndMessage kind.pluralName (list string) (.keys kind)) ]

/-- The cases of an operation. -/
def cases : List (Case Operation) :=
  [KeyKind.user, .token, .tag].flatMap keyCases ++
    [ .plain "query_all" queryAll,
      .of "send_by_connection_id" (argumentAndMessage "connection_id" word .connection),
      .of "send_all" (argument "message" Message.reader (send .all)),
      .of "disconnect_by_user_id" (argument "user_id" string fun s => disconnect (.user s)),
      .of "disconnect_by_access_token"
        (argument "access_token" string fun s => disconnect (.token s)),
      .of "disconnect_by_connection_id"
        (argument "connection_id" word fun n => disconnect (.connection n)),
      .of "disconnect_by_connection_ids"
        (argument "connection_ids" (list word) fun l => disconnect (.connections l)),
      .plain "connection_count" count ]

/-- Reads the written form. -/
def reader : Json.Reader Operation := Json.Reader.sum "operation" "args" cases

end Operation

namespace Output

/-- The data of an answer. -/
def data : Output → Json
  | count n => .nat n.toNat
  | connections l => .list Descriptor.toJson l
  | keys l => .list .string l

/-- The written form. -/
def toJson (o : Output) : Json :=
  .object [("kind", .string o.kind), ("data", o.data)]

/-- Reads the written form. -/
def reader : Json.Reader Output :=
  .sum "kind" "data"
    [ .of "count" (count <$> .word),
      .of "connections" (connections <$> .list Descriptor.reader),
      .of "keys" (keys <$> .list .string) ]

end Output

namespace Response

/-- The written form. -/
def toJson : Response → Json
  | ok value => .object [("status", .string "ok"), ("value", value.toJson)]
  | error text => .object [("status", .string "error"), ("error", .string text)]

/-- Reads the written form. -/
def reader : Json.Reader Response :=
  .flatSum "status"
    [ .of "ok" (ok <$> .record [.required "value" Output.reader fun o _ => o] default),
      .of "error" (error <$> .record [.required "error" .string fun s _ => s] "") ]

end Response

end PushMesh
