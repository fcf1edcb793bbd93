import PushMesh.Data.Table
import PushMesh.Json.Printer

/-!
# The shared store

Nodes find each other through a store with two collections: the descriptors of nodes by their ids,
and the ids with the time of their last heartbeat. Every command takes effect at once. Ids are
listed by the time of their heartbeat, and ids with the same time in their own order.
-/

namespace PushMesh.Discovery

/-- What the store holds. -/
structure Store where
  /-- The descriptors as written, by the ids of the nodes. -/
  descriptors : Table String String
  /-- The times of the last heartbeats in milliseconds, by the ids of the nodes. -/
  beats : Table String Int
deriving DecidableEq

/-- What a node asks the store to do. -/
inductive Command where
  | setDescriptor (id : String) (descriptor : String)
  | setBeat (id : String) (time : Int)
  /-- List the ids whose heartbeat is before a time. -/
  | beatsBefore (time : Int)
  /-- List the ids whose heartbeat is at a time or after it. -/
  | beatsFrom (time : Int)
  | removeBeats (ids : List String)
  | removeDescriptors (ids : List String)
  /-- Get the descriptors of ids. -/
  | getDescriptors (ids : List String)
deriving DecidableEq

/-- What the store replies. -/
inductive Reply where
  | done
  | ids (ids : List String)
  /-- The descriptors in the order of the ids, where there are any. -/
  | descriptors (l : List (Option String))
deriving DecidableEq

namespace Store

/-- A store that holds nothing. -/
def empty : Store := ⟨∅, ∅⟩

/-- The ids whose heartbeat fulfils a condition, by time and then by id. -/
def idsWhere (s : Store) (p : Int → Bool) : List String :=
  ((s.beats.entries.filter fun (_, time) => p time).mergeSort fun a b => a.2 ≤ b.2).map (·.1)

/-- Runs a command. -/
def run (s : Store) : Command → Store × Reply
  | .setDescriptor id d => ({ s with descriptors := s.descriptors.insert id d }, .done)
  | .setBeat id time => ({ s with beats := s.beats.insert id time }, .done)
  | .beatsBefore time => (s, .ids (s.idsWhere (· < time)))
  | .beatsFrom time => (s, .ids (s.idsWhere (time ≤ ·)))
  | .removeBeats ids => ({ s with beats := ids.foldl Table.erase s.beats }, .done)
  | .removeDescriptors ids =>
    ({ s with descriptors := ids.foldl Table.erase s.descriptors }, .done)
  | .getDescriptors ids => (s, .descriptors (ids.map s.descriptors.get?))

end Store

namespace Command

/-- The key of the descriptors, for a cluster with a name. -/
def descriptorsKey (cluster : String) : String := cluster ++ ":nodes"

/-- The key of the times of the last heartbeats. -/
def beatsKey (cluster : String) : String := cluster ++ ":alive"

/-- A command as the words that are sent. -/
def words (cluster : String) : Command → List String
  | setDescriptor id d => ["HSET", descriptorsKey cluster, id, d]
  | setBeat id time => ["ZADD", beatsKey cluster, toString time, id]
  | beatsBefore time => ["ZRANGEBYSCORE", beatsKey cluster, "-inf", "(" ++ toString time]
  | beatsFrom time => ["ZRANGEBYSCORE", beatsKey cluster, toString time, "+inf"]
  | removeBeats ids => "ZREM" :: beatsKey cluster :: ids
  | removeDescriptors ids => "HDEL" :: descriptorsKey cluster :: ids
  | getDescriptors ids => "HMGET" :: descriptorsKey cluster :: ids

end Command

end PushMesh.Discovery
