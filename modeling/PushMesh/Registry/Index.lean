import PushMesh.Data.Ascending
import PushMesh.Data.Table
import PushMesh.Descriptor

/-!
# Indexes of connections

An index lists the connections under each key in use. A key whose last connection is removed leaves
the index.
-/

namespace PushMesh

/-- The connections under each key. -/
abbrev Index := Table String (Ascending ConnectionId)

namespace Index

/-- The connections under a key. -/
def ids (index : Index) (key : String) : Ascending ConnectionId :=
  (index.get? key).getD ∅

/-- The index with a connection added under a key. -/
def add (index : Index) (key : String) (id : ConnectionId) : Index :=
  index.insert key ((index.ids key).insert id)

/-- The index with an entry for a key, an empty one if there was none. -/
def withEntry (index : Index) (key : String) : Index :=
  index.insertNew key ∅

/-- The index without the entry of a key if that entry is empty. -/
def dropIfEmpty (index : Index) (key : String) : Index :=
  if (index.ids key).isEmpty then index.erase key else index

/-- The index with a connection removed from a key. -/
def remove (index : Index) (key : String) (id : ConnectionId) : Index :=
  match index.get? key with
  | none => index
  | some ids =>
    let ids := ids.erase id
    if ids.isEmpty then index.erase key else index.insert key ids

/-- The index with a connection added under every key of a list. -/
def addAll (index : Index) (keys : List String) (id : ConnectionId) : Index :=
  keys.foldl (·.add · id) index

/-- The index with a connection removed from every key of a list. -/
def removeAll (index : Index) (keys : List String) (id : ConnectionId) : Index :=
  keys.foldl (·.remove · id) index

/-- The connections under at least one of the keys. -/
def idsOfAny (index : Index) (keys : List String) : Ascending ConnectionId :=
  keys.foldl (fun ids key => ids ∪ index.ids key) ∅

end Index

end PushMesh
