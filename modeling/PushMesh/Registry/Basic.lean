import PushMesh.Connection
import PushMesh.Operation.Basic
import PushMesh.Registry.Index

/-!
# The registry of a node

The registry holds the connections of one node. It gives out their ids, keeps within two limits (on
all connections and on those of one user), and finds connections by user, access token and tag.

Whoever holds a connection can use it after it has left the registry, so the registry keeps every
connection it ever accepted and, apart from that, the ids of those that are registered.
-/

namespace PushMesh

/-- The limits on the number of connections. -/
structure Limits where
  /-- The greatest number of connections. -/
  connections : Nat
  /-- The greatest number of connections of one user. -/
  perUser : Nat
deriving DecidableEq

/-- The limits where nothing else is configured. -/
def Limits.standard : Limits := ⟨10000, 10⟩

/-- Why a connection is not accepted. -/
inductive LimitError where
  /-- The node holds as many connections as it may. -/
  | total (current max : Nat)
  /-- The user has as many connections as allowed. -/
  | user (userId : String) (current max : Nat)
deriving DecidableEq

/-- The wording of a refusal. -/
def LimitError.text : LimitError → String
  | total current max =>
    "Total connection limit exceeded (" ++ toString current ++ "/" ++ toString max ++ ")"
  | user userId current max =>
    "User " ++ userId ++ " connection limit exceeded (" ++ toString current ++ "/" ++ toString max
      ++ ")"

/-- The connections of one node. -/
structure Registry where
  nodeId : String
  limits : Limits
  /-- Every connection that was ever accepted. -/
  pool : Table ConnectionId Connection
  /-- The connections that are registered. -/
  registered : Ascending ConnectionId
  users : Index
  tokens : Index
  tags : Index
  /-- The id given out last. -/
  lastId : ConnectionId
  /-- The number of slots in use, which the limit on all connections is checked against. -/
  active : Nat
  /-- How many connections were registered so far. -/
  opened : Nat
  /-- How many connections left the registry so far. -/
  closed : Nat
  /-- How many messages were accepted in the registry's own sends so far. -/
  delivered : Nat

namespace Registry

/-- A registry without connections, whose ids start after `salt`. -/
def create (nodeId : String) (limits : Limits) (salt : ConnectionId) : Registry :=
  { nodeId, limits, pool := ∅, registered := ∅, users := ∅, tokens := ∅, tags := ∅, lastId := salt,
    active := 0, opened := 0, closed := 0, delivered := 0 }

/-- The index that lists the keys of a kind. -/
def index (r : Registry) : KeyKind → Index
  | .user => r.users
  | .token => r.tokens
  | .tag => r.tags

/-- A connection that was ever accepted. -/
def handle? (r : Registry) (id : ConnectionId) : Option Connection :=
  r.pool.get? id

/-- A connection that is registered. -/
def get? (r : Registry) (id : ConnectionId) : Option Connection :=
  if r.registered.contains id then r.pool.get? id else none

/-- The registry with a connection replaced. -/
def put (r : Registry) (c : Connection) : Registry :=
  { r with pool := r.pool.insert c.id c }

/-- The registered connections among the given ones, in their order. -/
def connections (r : Registry) (ids : Ascending ConnectionId) : List Connection :=
  ids.toList.filterMap r.get?

/-! ## Registration -/

/-- Takes one of the node's slots, unless all of them are in use. -/
def reserveSlot (r : Registry) : Except LimitError Registry :=
  if r.active < r.limits.connections then .ok { r with active := r.active + 1 }
  else .error (.total r.active r.limits.connections)

/-- Gives a slot of the node back. -/
def releaseSlot (r : Registry) : Registry :=
  { r with active := r.active - 1 }

/-- Lists `id` under its user, if it has one and the user has a slot left. The user's entry
is made for that, and dropped again if it is empty after a refusal. -/
def claimUserSlot (r : Registry) (userId : Option String) (id : ConnectionId) :
    Registry × Except LimitError Unit :=
  match userId with
  | none => (r, .ok ())
  | some user =>
    let users := r.users.withEntry user
    if (users.ids user).size < r.limits.perUser then
      ({ r with users := users.add user id }, .ok ())
    else
      let users := users.dropIfEmpty user
      ({ r with users }, .error (.user user (users.ids user).size r.limits.perUser))

/-- Registers a new connection. Over the limit on all connections nothing changes; over the limit of
a user an id is used up. -/
def register (r : Registry) (owner : Owner) (connectedAt : Instant) (capacity : Nat) :
    Registry × Except LimitError Connection :=
  match r.reserveSlot with
  | .error e => (r, .error e)
  | .ok r =>
    let id := r.lastId + 1
    let c := Connection.create id owner connectedAt capacity
    match { r with lastId := id }.claimUserSlot c.userId id with
    | (r, .error e) => (r.releaseSlot, .error e)
    | (r, .ok ()) =>
      ({ r with
          pool := r.pool.insert id c
          registered := r.registered.insert id
          tokens := r.tokens.addAll c.accessToken.toList id
          tags := r.tags.addAll c.tags.toList id
          opened := r.opened + 1 },
        .ok c)

/-- Removes a connection from the registry and all indexes; none if it is not registered. -/
def unregister (r : Registry) (id : ConnectionId) : Registry × Option Connection :=
  match r.get? id with
  | none => (r, none)
  | some c =>
    ({ r with
        registered := r.registered.erase id
        users := r.users.removeAll c.userId.toList id
        tokens := r.tokens.removeAll c.accessToken.toList id
        tags := r.tags.removeAll c.tags.toList id
        active := r.active - 1
        closed := r.closed + 1 },
      some c)

/-! ## Closing -/

/-- Removes and closes a connection, and says whether it was registered. -/
def closeOne (r : Registry) (id : ConnectionId) : Registry × Bool :=
  match r.unregister id with
  | (r, none) => (r, false)
  | (r, some c) => (r.put c.close, true)

/-- Removes and closes connections, and counts those that were registered. -/
def closeIds (r : Registry) (ids : List ConnectionId) : Registry × Nat :=
  ids.foldl (fun (r, n) id =>
    let (r, done) := r.closeOne id
    (r, if done then n + 1 else n)) (r, 0)

/-- The registered connections that no message can reach any more. -/
def deadIds (r : Registry) : List ConnectionId :=
  r.registered.toList.filter fun id => ((r.get? id).any fun c => !c.isAlive)

/-- Removes and closes the connections that no message can reach any more, and counts them. -/
def sweep (r : Registry) : Registry × Nat :=
  r.closeIds r.deadIds

/-- Removes and closes every connection, and counts them. -/
def closeAll (r : Registry) : Registry × Nat :=
  r.closeIds r.registered.toList

/-! ## Sending -/

/-- Offers a message to a connection, and says whether it was accepted. -/
def sendOne (r : Registry) (id : ConnectionId) (m : Message) : Registry × Bool :=
  match r.get? id with
  | none => (r, false)
  | some c =>
    let (c, accepted) := c.trySend m
    (r.put c, accepted)

/-- Offers a message to connections, and counts those that accepted it. -/
def deliver (r : Registry) (ids : Ascending ConnectionId) (m : Message) : Registry × Nat :=
  let (r, n) := ids.toList.foldl (fun (r, n) id =>
    let (r, accepted) := r.sendOne id m
    (r, if accepted then n + 1 else n)) (r, 0)
  ({ r with delivered := r.delivered + n }, n)

/-! ## Listing -/

/-- The descriptors of connections, in ascending order of their ids. -/
def describe (r : Registry) (ids : Ascending ConnectionId) : List Descriptor :=
  (r.connections ids).map (·.describe r.nodeId)

/-- The keys of a kind that are in use, in ascending order. -/
def keys (r : Registry) (kind : KeyKind) : List String :=
  (r.index kind).keys

/-- The number of registered connections. -/
def count (r : Registry) : Nat :=
  r.registered.size

/-- The tags in use with the number of their connections, in ascending order. -/
def tagCounts (r : Registry) : List (String × Nat) :=
  r.tags.entries.map fun (tag, ids) => (tag, ids.size)

end Registry

end PushMesh
