import PushMesh.Json.Reader
import PushMesh.Text.Blank

/-!
# Nodes of the cluster

A node has an id and an address at which it serves its peers. A scheme in lower case, blanks around
the address, slashes at its end and the case of ASCII letters do not change the endpoint.
-/

namespace PushMesh

/-- A member of the cluster. -/
structure Node where
  id : String
  /-- Host and port, with or without a scheme. -/
  address : String
  /-- Whether the entry describes the node that holds it. -/
  isSelf : Bool
deriving DecidableEq

namespace Node

instance : Inhabited Node := ⟨⟨"", "", false⟩⟩

/-- A node other than the one that holds the entry. -/
def peer (id address : String) : Node := ⟨id, address, false⟩

/-- The address without its scheme, if it has one. -/
def withoutScheme (cs : List Char) : List Char :=
  match Text.afterPrefix? "http://".toList cs with
  | some rest => rest
  | none => (Text.afterPrefix? "https://".toList cs).getD cs

/-- The address without blanks around it, scheme and slashes at the end, its ASCII letters in lower
case. -/
def endpointKey (n : Node) : String :=
  let cs := Text.dropEndWhile (· = '/') (withoutScheme (Text.trim n.address.toList))
  String.ofList (cs.map Text.lowerAscii)

/-- Whether two entries reach the same endpoint, whatever their ids are. -/
def sameEndpoint (m n : Node) : Bool :=
  m.endpointKey == n.endpointKey

/-- The written form. -/
def toJson (n : Node) : Json :=
  .object [("id", .string n.id), ("address", .string n.address), ("is_self", .bool n.isSelf)]

/-- The fields of a node, in order. -/
def fields : List (Json.Reader.Field Node) :=
  [ .required "id" .string fun s n => { n with id := s },
    .required "address" .string fun s n => { n with address := s },
    .defaulted "is_self" .bool fun b n => { n with isSelf := b } ]

/-- Reads the written form. -/
def reader : Json.Reader Node := .record fields default

end Node

end PushMesh
