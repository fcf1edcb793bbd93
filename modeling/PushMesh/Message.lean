import PushMesh.Json.Reader

/-!
# Messages

A message is what a client receives as one event: free-form data, and optionally the name of the
event and an id. Name and id are written on a line of their own, so a message is well formed only if
they hold neither a line break nor a NUL.
-/

namespace PushMesh

/-- A message for the clients of a connection. -/
structure Message where
  /-- The name of the event. -/
  event : Option String
  /-- The data; strings are sent as they are, everything else as JSON. -/
  data : Json
  /-- The id of the event. -/
  id : Option String

namespace Message

instance : Inhabited Message := ⟨⟨none, .null, none⟩⟩

/-- Whether a text fits on the line of an event's name or id. -/
def isFieldText (s : String) : Bool :=
  s.toList.all fun c => c ≠ '\n' && c ≠ '\r' && c ≠ '\x00'

/-- Whether name and id, as far as they are given, fit on their lines. -/
def isWellFormed (m : Message) : Bool :=
  m.event.all isFieldText && m.id.all isFieldText

/-- The data as sent to clients. -/
def dataText (m : Message) : String :=
  match m.data with
  | .string s => s
  | j => j.text

/-- The written form: name and id are left out where they are missing. -/
def toJson (m : Message) : Json :=
  .object <|
    (m.event.toList.map fun s => ("event", .string s)) ++ [("data", m.data)]
      ++ m.id.toList.map fun s => ("id", .string s)

/-- The fields of a message, in order. -/
def fields : List (Json.Reader.Field Message) :=
  [ .defaulted "event" (.option .string) fun e m => { m with event := e },
    .required "data" .value fun d m => { m with data := d },
    .defaulted "id" (.option .string) fun i m => { m with id := i } ]

/-- Reads the written form. -/
def reader : Json.Reader Message := .record fields default

end Message

end PushMesh
