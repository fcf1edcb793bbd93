import PushMesh.Api.Action
import PushMesh.Mesh.Streams
import PushMesh.Mesh.View

/-!
# Serving requests

A node does what a request asks for and answers it. A request that is refused changes nothing. Every
answer may be read from any origin, and to the method HEAD the payload is left out.
-/

namespace PushMesh

open Http (Answer Request)

/-- The version that a node reports. -/
def version : String := "1.0.0"

namespace Host

/-- Whether the node lives, with what it holds and knows. -/
def health (h : Host) : Json :=
  .object
    [ ("status", .string "healthy"),
      ("version", .string version),
      ("node_id", .string h.self.id),
      ("connections", .nat h.registry.count),
      ("peers", .nat h.peers.length) ]

/-- The statistics and settings of the node. -/
def statistics (h : Host) : Json :=
  .object
    [ ("node_id", .string h.self.id),
      ("address", .string h.self.address),
      ("connections", h.registry.stats.toJson),
      ("peers", .nat h.peers.length),
      ("dispatch", .object
        [ ("request_timeout_ms", .nat h.config.requestTimeout),
          ("retry_on_timeout", .bool h.config.retryOnTimeout),
          ("partial_on_timeout", .bool h.config.partialOnTimeout) ]) ]

/-- The node and its peers. -/
def neighbours (h : Host) : Json :=
  .object
    [ ("node", h.self.toJson),
      ("local_connections", .nat h.registry.count),
      ("peers", .list Node.toJson h.peers) ]

end Host

/-- Whether a user has a connection. An answer is missing from a partial result, so that a user who
is not seen in it may still have one. -/
def Gathered.online (userId : String) (g : Gathered) : Json :=
  .object
    [ ("user_id", .string userId),
      ("online", .bool g.foundAny),
      ("partial", .bool g.isPartial) ]

namespace Mesh

/-- Asks the cluster and answers with what comes in time. -/
def inquire (m : Mesh) (h : Host) (inquiry : Inquiry) (timeout : Option UInt64)
    (view : Gathered → Json) : Mesh × Answer :=
  let (m, id) := m.dispatch h inquiry
  let (m, outcome) := m.wait id (some ((timeout.map (·.toNat)).getD h.config.waitBudget))
  match outcome with
  | .ok g => (m, .json 200 (view g))
  | .error e => (m, (Problem.ofDispatchError e).answer false)

/-- Runs an operation for a peer. -/
def serve (m : Mesh) (h : Host) (op : Operation) : Mesh × Answer :=
  let (r, response) := h.registry.respond op
  let ok := match response with
    | .ok _ => true
    | .error _ => false
  ((m.setRegistry h.self.id h.registry r).record (·.recordServed ok), .json 200 response.toJson)

/-- Does what an action asks of a node. -/
def act (m : Mesh) (h : Host) (now : Instant) : Action → Mesh × Answer
  | .health => (m, .json 200 h.health)
  | .stats => (m, .json 200 h.statistics)
  | .nodes => (m, .json 200 h.neighbours)
  | .metrics =>
    let m := (m.record (·.setActive h.registry.count)).record (·.setPeers h.peers.length)
    (m, .samples m.metrics.samples)
  | .openStream owner =>
    match m.openStream h owner now with
    | (m, .ok id) => (m, .events id)
    | (m, .error e) => (m, (Problem.limit e).answer false)
  | .inquire inquiry timeout => m.inquire h inquiry timeout Gathered.toJson
  | .online userId timeout => m.inquire h (.queryByUserId userId) timeout (Gathered.online userId)
  | .serve op => m.serve h op

/-- The answer to the method HEAD: a stream that was opened for it is dropped. -/
def answerHead (m : Mesh) (a : Answer) : Mesh × Answer :=
  let m := match a.payload with
    | .events id => m.dropStream id
    | _ => m
  (m, a.headOnly)

/-- Answers a request to a node. -/
def respond (m : Mesh) (h : Host) (now : Instant) (r : Request) : Mesh × Answer :=
  let (m, a) := match Action.ofRequest h r with
    | .ok action => m.act h now action
    | .error a => (m, a)
  let (m, a) := if r.method = "HEAD" then m.answerHead a else (m, a)
  (m, a.shared)

end Mesh

end PushMesh
