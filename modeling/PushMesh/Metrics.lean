import PushMesh.Data.Table
import PushMesh.Failure

/-!
# Metrics

Counters and gauges over all nodes of a process. A sample is a metric with its labels and its value.
-/

namespace PushMesh

/-- How a peer call ended, as counted. -/
inductive CallOutcome where
  | ok
  | timeout
  | transportError
  | domainError
deriving DecidableEq

namespace CallOutcome

/-- The label of an outcome. -/
def label : CallOutcome → String
  | ok => "ok"
  | timeout => "timeout"
  | transportError => "transport_error"
  | domainError => "domain_error"

/-- How a failed call is counted. -/
def ofError (e : PeerError) : CallOutcome :=
  if e.isTimeout then timeout else if e.isTransport then transportError else domainError

/-- Every outcome. -/
def all : List CallOutcome := [ok, timeout, transportError, domainError]

end CallOutcome

/-- The metrics of a process. -/
structure Metrics where
  /-- The connections that are open. -/
  active : Int
  opened : Nat
  closed : Nat
  /-- The connections refused over a limit. -/
  rejected : Nat
  /-- The streams that have ended. -/
  durations : Nat
  delivered : Nat
  /-- The operations dispatched, by name. -/
  dispatches : Table String Nat
  /-- The operations that the node's own registry refused. -/
  localFailures : Nat
  calls : CallOutcome → Nat
  /-- The calls of peers that were answered with success or with an error. -/
  served : Bool → Nat
  peers : Int
  /-- Whether the shared store is connected. -/
  connected : Bool
  reconnections : Nat

namespace Metrics

/-- Nothing counted yet. -/
def zero : Metrics :=
  { active := 0, opened := 0, closed := 0, rejected := 0, durations := 0, delivered := 0,
    dispatches := ∅, localFailures := 0, calls := fun _ => 0, served := fun _ => 0, peers := 0,
    connected := false, reconnections := 0 }

instance : Inhabited Metrics := ⟨zero⟩

/-- Counts the start of an operation. -/
def recordDispatch (m : Metrics) (operation : String) : Metrics :=
  { m with dispatches := m.dispatches.insert operation ((m.dispatches.get? operation).getD 0 + 1) }

/-- Counts an operation that the node's own registry refused. -/
def recordLocalFailure (m : Metrics) : Metrics :=
  { m with localFailures := m.localFailures + 1 }

/-- Counts the end of a peer call. -/
def recordCall (m : Metrics) (o : CallOutcome) : Metrics :=
  { m with calls := fun p => if p = o then m.calls p + 1 else m.calls p }

/-- Counts a call of a peer that was answered. -/
def recordServed (m : Metrics) (ok : Bool) : Metrics :=
  { m with served := fun b => if b = ok then m.served b + 1 else m.served b }

/-- Counts a refused connection. -/
def recordRejected (m : Metrics) : Metrics :=
  { m with rejected := m.rejected + 1 }

/-- Counts the end of a stream. -/
def recordDuration (m : Metrics) : Metrics :=
  { m with durations := m.durations + 1 }

/-- Books what happened in a registry: connections that came and went, and messages accepted. -/
def recordRegistry (m : Metrics) (opened closed delivered : Nat) : Metrics :=
  { m with
    active := m.active + opened - closed
    opened := m.opened + opened
    closed := m.closed + closed
    delivered := m.delivered + delivered }

/-- Sets the number of peers. -/
def setPeers (m : Metrics) (n : Nat) : Metrics := { m with peers := n }

/-- Sets the number of open connections. -/
def setActive (m : Metrics) (n : Nat) : Metrics := { m with active := n }

/-- Sets whether the shared store is connected. -/
def setConnected (m : Metrics) (b : Bool) : Metrics := { m with connected := b }

/-- Counts a new attempt to connect to the shared store. -/
def recordReconnect (m : Metrics) : Metrics := { m with reconnections := m.reconnections + 1 }

/-- What every metric's name starts with. -/
def namePrefix : String := "sse_cluster_"

/-- The name of a metric with a label. -/
def labelled (name label value : String) : String :=
  name ++ "\x7b" ++ label ++ "=\"" ++ value ++ "\"\x7d"

/-- The samples that are not zero. -/
def samples (m : Metrics) : List (String × Int) :=
  let plain : List (String × Int) :=
    [ ("connections_active", m.active),
      ("connections_opened_total", m.opened),
      ("connections_closed_total", m.closed),
      ("connections_rejected_total", m.rejected),
      ("connection_duration_seconds_count", m.durations),
      ("messages_delivered_total", m.delivered),
      ("local_failures_total", m.localFailures),
      ("peers", m.peers),
      ("discovery_connection_status", if m.connected then 1 else 0),
      ("discovery_reconnections_total", m.reconnections) ]
  let dispatches := m.dispatches.entries.map fun (name, n) =>
    (labelled "dispatches_total" "operation" name, (n : Int))
  let calls := CallOutcome.all.flatMap fun o =>
    [ (labelled "remote_calls_total" "outcome" o.label, (m.calls o : Int)),
      (labelled "remote_call_latency_seconds_count" "outcome" o.label, (m.calls o : Int)) ]
  let served :=
    [ (labelled "rpc_served_total" "status" "ok", (m.served true : Int)),
      (labelled "rpc_served_total" "status" "error", (m.served false : Int)) ]
  ((plain ++ dispatches ++ calls ++ served).filter (·.2 ≠ 0)).map fun (name, n) =>
    (namePrefix ++ name, n)

end Metrics

end PushMesh
