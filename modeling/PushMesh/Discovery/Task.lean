import PushMesh.Backoff
import PushMesh.Discovery.Heartbeat
import PushMesh.Metrics

/-!
# The background task of discovery

The task keeps a session with the shared store. Every heartbeat in a session replaces the peers that
the node knows. When a session fails, the peers stay as they are, and after a growing delay the next
session begins; a heartbeat that succeeds starts the delays over. A node that is told to stop
removes itself from the store if it has a session, and ends at once if it waits for one.
-/

namespace PushMesh.Discovery

/-- What the task has reached. -/
structure Task where
  backoff : Backoff
  members : List Node
  metrics : Metrics

namespace Task

/-- The task at its start, with the peers that are known then. -/
def start (members : List Node) : Task :=
  { backoff := .start .standard, members, metrics := Metrics.zero.setPeers members.length }

/-- The task after a heartbeat that found peers. -/
def succeed (t : Task) (peers : List Node) : Task :=
  { backoff := t.backoff.reset, members := peers,
    metrics := (t.metrics.setConnected true).setPeers peers.length }

/-- The task after a session that failed, with the delay before the next one. -/
def fail (t : Task) : Task × Nat :=
  let (backoff, delay) := t.backoff.next
  ({ t with backoff, metrics := (t.metrics.setConnected false).recordReconnect }, delay)

/-- The task after the heartbeat of its node on a store, with nothing between the commands. -/
def beat (t : Task) (self : Node) (seconds : UInt64) (now : Int64) (s : Store) : Store × Task :=
  match (heartbeat self seconds now).run s with
  | (s, some peers) => (s, t.succeed peers)
  | (s, none) => (s, t.fail.1)

/-- The task at its end. -/
def stop (t : Task) : Task := { t with metrics := t.metrics.setConnected false }

/-- The task when it has been told to stop in a session: its node leaves the store. -/
def leave (t : Task) (self : Node) (s : Store) : Store × Task :=
  (((deregister self).run s).1, t.stop)

/-- The task while the store cannot be reached, after so many milliseconds. There is a delay of at
least one after each session that fails. -/
def retryFor : Nat → Task → Task
  | milliseconds, t =>
    let (t, delay) := t.fail
    if _ : 0 < delay ∧ delay ≤ milliseconds then retryFor (milliseconds - delay) t else t
termination_by milliseconds => milliseconds

/-- The task when it has been told to stop and the store cannot be reached: it tries once. -/
def stopUnreached (t : Task) : Task := t.fail.1.stop

end Task

end PushMesh.Discovery
