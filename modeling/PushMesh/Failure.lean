import PushMesh.Json.Reader

/-!
# Failures of peer calls

A call to a peer fails when the peer cannot be reached or does not answer in time (a transport
failure), or when it answers with an error of its own. A failed call is recorded beside the result
of a dispatch and does not spoil it.
-/

namespace PushMesh

/-- Why a call to a peer failed. -/
inductive PeerError where
  /-- The peer could not be reached or did not answer in time. -/
  | transport (message : String) (timedOut : Bool)
  /-- The peer answered with an error of its own. -/
  | domain (message : String)
deriving DecidableEq

namespace PeerError

instance : Inhabited PeerError := ⟨domain ""⟩

/-- The failure of a call that was given up after so many milliseconds. -/
def timeout (milliseconds : Nat) : PeerError :=
  transport ("timed out after " ++ toString milliseconds ++ "ms") true

/-- The peer could not be reached for another reason than time. -/
def unreachable (message : String) : PeerError :=
  transport message false

/-- Whether the call was given up for lack of time. -/
def isTimeout : PeerError → Bool
  | transport _ timedOut => timedOut
  | domain _ => false

/-- Whether the peer was not reached. -/
def isTransport : PeerError → Bool
  | transport .. => true
  | domain _ => false

/-- The wording of the failure. -/
def text : PeerError → String
  | transport message _ => "Transport failure: " ++ message
  | domain message => "Remote error: " ++ message

/-- The written form. -/
def toJson : PeerError → Json
  | transport message timedOut =>
    .object [("kind", .string "transport"), ("message", .string message),
      ("timed_out", .bool timedOut)]
  | domain message => .object [("kind", .string "domain"), ("message", .string message)]

/-- The content of a transport failure. -/
def transportReader : Json.Reader PeerError :=
  (fun (message, timedOut) => transport message timedOut) <$>
    Json.Reader.record
      [ .required "message" .string fun s (_, b) => (s, b),
        .defaulted "timed_out" .bool fun b (s, _) => (s, b) ]
      ("", false)

/-- The content of an error of the peer. -/
def domainReader : Json.Reader PeerError :=
  domain <$> Json.Reader.record [.required "message" .string fun s _ => s] ""

/-- Reads the written form. -/
def reader : Json.Reader PeerError :=
  .flatSum "kind" [.of "transport" transportReader, .of "domain" domainReader]

end PeerError

/-- The failed call to one node. -/
structure NodeFailure where
  nodeId : String
  address : String
  error : PeerError
deriving DecidableEq

namespace NodeFailure

instance : Inhabited NodeFailure := ⟨⟨"", "", default⟩⟩

/-- The written form. -/
def toJson (f : NodeFailure) : Json :=
  .object [("node_id", .string f.nodeId), ("address", .string f.address),
    ("error", f.error.toJson)]

/-- The fields of a failure, in order. -/
def fields : List (Json.Reader.Field NodeFailure) :=
  [ .required "node_id" .string fun s f => { f with nodeId := s },
    .required "address" .string fun s f => { f with address := s },
    .required "error" PeerError.reader fun e f => { f with error := e } ]

/-- Reads the written form. -/
def reader : Json.Reader NodeFailure := .record fields default

end NodeFailure

end PushMesh
