import PushMesh.Descriptor
import PushMesh.Message

/-!
# Events as text

An event is written as lines of data, then its name, then its id, and ends with an empty line. Every
line break inside the data starts another line of data; empty data has no line at all.
-/

namespace PushMesh.EventText

/-- The characters of the data, each line break followed by the start of the next data line. -/
def dataChars (cs : List Char) : List Char :=
  cs.flatMap fun c => if c = '\n' ∨ c = '\r' then c :: "data: ".toList else [c]

/-- The lines of the data. -/
def dataLines (s : String) : String :=
  let cs := s.toList
  if cs.isEmpty then "" else "data: " ++ String.ofList (dataChars cs) ++ "\n"

/-- One line with a name and a value. -/
def line (name value : String) : String :=
  name ++ ": " ++ value ++ "\n"

/-- The line of a field that may be missing or not fit on a line, and is left out then. -/
def optionalLine (name : String) (value : Option String) : String :=
  match value.filter Message.isFieldText with
  | none => ""
  | some value => line name value

/-- A message as an event. -/
def ofMessage (m : Message) : String :=
  dataLines m.dataText ++ optionalLine "event" m.event ++ optionalLine "id" m.id ++ "\n"

/-- The first event of a stream, which tells the client its connection and node. -/
def connected (id : ConnectionId) (nodeId : String) : String :=
  let data := Json.object [("connection_id", .nat id.toNat), ("node_id", .string nodeId)]
  line "event" "connected" ++ dataLines data.text ++ "\n"

/-- The comment that keeps an idle stream open. -/
def keepAlive : String := ": heartbeat\n\n"

end PushMesh.EventText
