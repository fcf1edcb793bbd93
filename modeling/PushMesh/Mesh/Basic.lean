import PushMesh.Gather
import PushMesh.Membership
import PushMesh.Metrics
import PushMesh.Stream.Basic

/-!
# A mesh of nodes

The state of several nodes, the network between them and the work under way, at one moment of a
virtual clock that counts milliseconds.

The network is described by links: for each node what happens to the calls made to it. Work under
way is a list of timers, each with the moment it is due; of two timers due at the same moment the
one that was set first goes first.
-/

namespace PushMesh

/-- How a node dispatches operations to its peers. -/
structure DispatchConfig where
  /-- The milliseconds after which a single call is given up. -/
  requestTimeout : Nat
  /-- Whether a call that was given up is made once more. -/
  retryOnTimeout : Bool
  /-- Whether one who gives up waiting gets what has been gathered so far. -/
  partialOnTimeout : Bool
deriving DecidableEq

/-- The milliseconds that an answer is waited for where nothing else is asked. -/
def DispatchConfig.waitBudget (c : DispatchConfig) : Nat :=
  c.requestTimeout * (if c.retryOnTimeout then 2 else 1) + 500

/-- One node with its settings. -/
structure Host where
  /-- The node as its peers see it. -/
  self : Node
  registry : Registry
  /-- The candidates that the membership lists. -/
  members : List Node
  config : DispatchConfig
  /-- The secret that peers have to present, if there is one. -/
  secret : Option String
  /-- The greatest length of the body of a peer's call. -/
  bodyLimit : Nat
  /-- The number of messages that may wait on a stream. -/
  channelCapacity : Nat
  /-- The seconds of silence after which a stream writes a comment. -/
  heartbeatInterval : Nat

namespace Host

/-- The peers that an operation is sent to. -/
def peers (h : Host) : List Node :=
  Membership.remotePeers h.self h.members

end Host

/-- What happens to a call when it arrives. -/
inductive Link.Fate where
  /-- The callee runs the operation. -/
  | runs
  /-- The call fails. -/
  | fails (e : PeerError)
  /-- The call fails as one that was given up. -/
  | timesOut
  /-- The call is answered, whatever was asked. -/
  | answers (output : Output)

/-- What happens to calls to a node. -/
structure Link where
  /-- The milliseconds until a call arrives and is answered. -/
  delay : Nat
  fate : Link.Fate
  /-- Whether the operation is run when the call starts rather than when it arrives. -/
  runsFirst : Bool

namespace Link

/-- A link that lets calls through at once. -/
def direct : Link := ⟨0, .runs, false⟩

instance : Inhabited Link := ⟨direct⟩

end Link

/-- A call to a peer. -/
structure PeerCall where
  task : Nat
  gather : Nat
  caller : String
  callee : Node
  operation : Operation
  kind : Tally.Kind
  timeout : Nat
  retries : Bool

/-- A background task that removes dead connections of a node now and then. -/
structure Sweeper where
  id : Nat
  node : String
  /-- The milliseconds between two sweeps. -/
  interval : Nat
deriving DecidableEq

/-- What happens when a timer is due. -/
inductive Event where
  /-- A call is made for the first time. -/
  | call (call : PeerCall)
  /-- An attempt ends: the call arrives, or it is given up. An answer may have been given when it
  started. -/
  | arrival (call : PeerCall) (isSecond : Bool) (link : Link)
      (early : Option (Except PeerError Output))
  /-- A sweeper starts. -/
  | sweeperStart (s : Sweeper)
  /-- A sweeper sweeps. -/
  | sweep (s : Sweeper)

/-- Something that is due at a moment. -/
structure Timer where
  due : Nat
  /-- The position among all timers in the order in which they were set. -/
  order : Nat
  event : Event

/-- A call as it is logged when it starts: caller, callee and name of the operation. -/
structure CallRecord where
  caller : String
  callee : String
  operation : String
deriving DecidableEq

/-- Something that happened to a call to a peer. -/
inductive CallEvent where
  /-- An attempt was made. -/
  | began (call : PeerCall)
  /-- The callee ran the operation. -/
  | ran (call : PeerCall)
  /-- An attempt ended. -/
  | ended (call : PeerCall) (result : Except PeerError Output)

/-- The call that something happened to. -/
def CallEvent.call : CallEvent → PeerCall
  | began call => call
  | ran call => call
  | ended call _ => call

/-- The state of several nodes. -/
structure Mesh where
  hosts : List Host
  links : Table String (List Link)
  now : Nat
  timers : List Timer
  nextOrder : Nat
  metrics : Metrics
  gathers : Table Nat Gather
  streams : Table Nat Stream
  /-- The sweepers that have been started, with whether they are finished. -/
  sweepers : List (Sweeper × Bool)
  /-- The number that names the next gather, stream, call or sweeper. -/
  nextId : Nat
  /-- The calls that have started, the oldest first. -/
  calls : List CallRecord
  /-- What happened to calls, the oldest first. -/
  journal : List CallEvent
  /-- The callbacks that have run, the oldest first. -/
  notices : List Gather.Notice

namespace Mesh

/-- A mesh of hosts at the start, where each sets the number of its members in turn. -/
def create (hosts : List Host) (links : Table String (List Link)) : Mesh :=
  { hosts, links, now := 0, timers := [], nextOrder := 0,
    metrics := hosts.foldl (fun m h => m.setPeers h.members.length) .zero,
    gathers := ∅, streams := ∅, sweepers := [], nextId := 0, calls := [], journal := [], notices := [] }

/-- The host of a node. -/
def host? (m : Mesh) (id : String) : Option Host :=
  m.hosts.find? (·.self.id == id)

/-- Changes the host of a node. -/
def modifyHost (m : Mesh) (id : String) (f : Host → Host) : Mesh :=
  { m with hosts := m.hosts.map fun h => if h.self.id == id then f h else h }

/-- Changes the metrics. -/
def record (m : Mesh) (f : Metrics → Metrics) : Mesh :=
  { m with metrics := f m.metrics }

/-- Notes that something happened to a call. -/
def note (m : Mesh) (e : CallEvent) : Mesh :=
  { m with journal := m.journal ++ [e] }

/-- Replaces the registry of a node, and books in the metrics what happened in it. -/
def setRegistry (m : Mesh) (id : String) (before after : Registry) : Mesh :=
  (m.modifyHost id fun h => { h with registry := after }).record
    (·.recordRegistry (after.opened - before.opened) (after.closed - before.closed)
      (after.delivered - before.delivered))

/-- Runs something on the registry of a node. -/
def onRegistry {α : Type} (m : Mesh) (id : String) (f : Registry → Registry × α) :
    Mesh × Option α :=
  match m.host? id with
  | none => (m, none)
  | some h =>
    let (r, a) := f h.registry
    (m.setRegistry id h.registry r, some a)

/-- Sets a timer. -/
def schedule (m : Mesh) (delay : Nat) (event : Event) : Mesh :=
  { m with
    timers := m.timers ++ [⟨m.now + delay, m.nextOrder, event⟩]
    nextOrder := m.nextOrder + 1 }

/-- A number that has not been used as a name yet. -/
def freshId (m : Mesh) : Mesh × Nat :=
  ({ m with nextId := m.nextId + 1 }, m.nextId)

/-- What happens to the next call to a node: the links of a list are used up but the last. -/
def takeLink (m : Mesh) (callee : String) : Mesh × Link :=
  match m.links.get? callee with
  | some (link :: next :: rest) =>
    ({ m with links := m.links.insert callee (next :: rest) }, link)
  | some [link] => (m, link)
  | _ => (m, .direct)

/-- Replaces the links to a node. -/
def setLinks (m : Mesh) (callee : String) (links : List Link) : Mesh :=
  { m with links := m.links.insert callee links }

/-- Replaces the members that a node knows. -/
def setMembers (m : Mesh) (id : String) (members : List Node) : Mesh :=
  (m.modifyHost id fun h => { h with members }).record (·.setPeers members.length)

/-- The gather of a name. -/
def gather? (m : Mesh) (id : Nat) : Option Gather := m.gathers.get? id

/-- Keeps a gather under a new name. -/
def addGather (m : Mesh) (g : Gather) : Mesh × Nat :=
  let (m, id) := m.freshId
  ({ m with gathers := m.gathers.insert id g }, id)

/-- Changes a gather and notes the callbacks it runs. -/
def onGather (m : Mesh) (id : Nat) (f : Gather → Gather × List Gather.Notice) : Mesh :=
  match m.gather? id with
  | none => m
  | some g =>
    let (g, notices) := f g
    { m with gathers := m.gathers.insert id g, notices := m.notices ++ notices }

end Mesh

end PushMesh
