import PushMesh.Mesh.Run

/-!
# Streams of a mesh

A stream is opened at a node for one new connection. A refused connection is counted, and the end of
every stream is counted once, whether its connection was closed or its client went away.
-/

namespace PushMesh.Mesh

/-- Opens a stream at a node for a connection of an owner, and names it. -/
def openStream (m : Mesh) (h : Host) (owner : Owner) (now : Instant) :
    Mesh × Except LimitError Nat :=
  let (r, result) := h.registry.register owner now (max h.channelCapacity 1)
  let m := m.setRegistry h.self.id h.registry r
  match result with
  | .error e => (m.record (·.recordRejected), .error e)
  | .ok c =>
    let (m, id) := m.freshId
    let s := Stream.start c.id h.self.id h.heartbeatInterval m.now
    ({ m with streams := m.streams.insert id s }, .ok id)

/-- The mesh with a stream changed, and its end counted if it ended. -/
def setStream (m : Mesh) (id : Nat) (before after : Stream) : Mesh :=
  let m := { m with streams := m.streams.insert id after }
  if after.isOver && !before.isOver then m.record (·.recordDuration) else m

/-- Reads what is ready on a stream. -/
def readStream (m : Mesh) (id : Nat) : Mesh × Option Stream.Read :=
  match m.streams.get? id with
  | none => (m, none)
  | some s =>
    match m.host? s.nodeId with
    | none => (m, none)
    | some h =>
      let read := s.read h.registry m.now
      ((m.setRegistry s.nodeId h.registry read.registry).setStream id s read.stream, some read)

/-- The client of a stream goes away. -/
def dropStream (m : Mesh) (id : Nat) : Mesh :=
  match m.streams.get? id with
  | none => m
  | some s =>
    match m.onRegistry s.nodeId fun r => let (s, r, _) := s.drop r; (r, s) with
    | (m, some after) => m.setStream id s after
    | (m, none) => m

end PushMesh.Mesh
