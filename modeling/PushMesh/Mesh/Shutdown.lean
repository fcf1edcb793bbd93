import PushMesh.Mesh.Run

/-!
# Shutting a node down

A node that goes away tells its own clients first and gives them a moment to read that. Then its
background tasks are told to stop, and at last every connection is closed.
-/

namespace PushMesh

/-- How a node shuts down. -/
structure ShutdownConfig where
  /-- The milliseconds that clients get to read the notice. -/
  flush : Nat
  /-- The seconds after which clients are asked to come back. -/
  reconnectAfter : UInt64

/-- How a node shuts down where nothing else is configured. -/
def ShutdownConfig.standard : ShutdownConfig := ⟨500, 5⟩

/-- What a shutdown did. -/
structure ShutdownReport where
  /-- The clients that the notice was queued for. -/
  notified : Nat
  /-- The connections that were closed at the end. -/
  closed : Nat
  /-- The milliseconds that it took. -/
  elapsed : Nat
deriving DecidableEq

/-- The message that tells clients that their node goes away. -/
def ShutdownConfig.notice (c : ShutdownConfig) (reason : String) : Message :=
  { event := some "shutdown"
    data := .object
      [("reason", .string reason), ("reconnect_after", .nat c.reconnectAfter.toNat)]
    id := none }

namespace Mesh

/-- Tells every client of a node something, and counts those that are reached. -/
def notify (m : Mesh) (node : String) (message : Message) : Mesh × Nat :=
  let (m, n) := m.onRegistry node fun r =>
    match r.send .all message with
    | .ok (r, n) => (r, n)
    | .error _ => (r, 0)
  (m, n.getD 0)

/-- Shuts a node down. -/
def shutdown (m : Mesh) (node : String) (config : ShutdownConfig) (reason : String) :
    Mesh × ShutdownReport :=
  let start := m.now
  let (m, notified) := m.notify node (config.notice reason)
  let m := if 0 < notified then m.advance config.flush else m
  let m := m.finishSweepers node
  let (m, closed) := m.onRegistry node (·.closeAll)
  (m, ⟨notified, closed.getD 0, m.now - start⟩)

end Mesh

end PushMesh
