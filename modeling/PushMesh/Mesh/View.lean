import PushMesh.Gather
import PushMesh.Text.Literal

/-!
# What is shown of the state

The written forms of results and statistics, and the one-line forms of connections and gathers that
are meant for people.
-/

namespace PushMesh

/-- The written form of what a gather holds. -/
def Gathered.toJson (g : Gathered) : Json :=
  .object
    [ ("value", g.value.toJson),
      ("responded", .list .string g.responded),
      ("failures", .list NodeFailure.toJson g.failures),
      ("pending", .list .string g.pending),
      ("partial", .bool g.isPartial) ]

/-- How many connections, users, tokens and tags a registry holds. -/
structure Statistics where
  connections : Nat
  users : Nat
  tokens : Nat
  tags : List (String × Nat)
deriving DecidableEq

/-- The written form of statistics. -/
def Statistics.toJson (s : Statistics) : Json :=
  .object
    [ ("total_connections", .nat s.connections),
      ("unique_users", .nat s.users),
      ("access_tokens", .nat s.tokens),
      ("tags", .object (s.tags.map fun (tag, n) => (tag, .nat n))) ]

/-- The statistics of a registry. -/
def Registry.stats (r : Registry) : Statistics :=
  { connections := r.count, users := r.users.size, tokens := r.tokens.size, tags := r.tagCounts }

open Text (literal braces brackets optional)

/-- A truth value as shown. -/
def showBool (b : Bool) : String := if b then "true" else "false"

/-- A connection as shown, with its number and its time given as texts. The token is kept back. -/
def Connection.shown (c : Connection) (id time : String) : String :=
  Text.fields "SseConnection"
    [ ("id", id),
      ("user_id", optional literal c.userId),
      ("access_token", optional (fun _ => literal "<redacted>") c.accessToken),
      ("tags", braces (c.tags.toList.map literal)),
      ("connected_at", time),
      ("alive", showBool c.isAlive),
      ("delivered", toString c.delivered.toNat) ]

/-- A descriptor as shown. -/
def Descriptor.shown (d : Descriptor) : String :=
  Text.fields "ConnectionInfo"
    [ ("connection_id", toString d.id.toNat),
      ("node_id", literal d.nodeId),
      ("user_id", optional literal d.userId),
      ("access_token", optional literal d.accessToken),
      ("tags", brackets (d.tags.map literal)),
      ("connected_at", d.connectedAt.text),
      ("alive", showBool d.alive),
      ("messages_delivered", toString d.delivered.toNat) ]

/-- A set of keys as shown. -/
def showKeys (s : Ascending String) : String :=
  "KeySet(" ++ braces (s.toList.map literal) ++ ")"

/-- A tally as shown. -/
def Tally.shown : Tally → String
  | count n => toString n.toNat
  | connections s =>
    "ConnectionSet(" ++ braces (s.entries.map fun (k, d) =>
      "(" ++ literal k.nodeId ++ ", " ++ toString k.id.toNat ++ "): " ++ d.shown) ++ ")"
  | keys s => showKeys s
  | distinct s => "DistinctCount(" ++ showKeys s ++ ")"

/-- A failure of a dispatch as shown. -/
def DispatchError.shown : DispatchError → String
  | refused e => "Local(InvalidArgument(" ++ literal e.reason ++ "))"
  | cancelled => "Cancelled"
  | timeout pending => Text.fields "Timeout" [("pending", brackets (pending.map literal))]

/-- A phase as shown. -/
def Gather.Phase.shown : Gather.Phase → String
  | running => "Running"
  | completed => "Completed"
  | cancelled => "Cancelled"
  | failed e => "Failed(" ++ e.shown ++ ")"

/-- A gather as shown. -/
def Gather.shown (g : Gather) : String :=
  Text.fields "ClusterFuture"
    [ ("phase", g.phase.shown),
      ("value", g.value.shown),
      ("outstanding", braces (g.outstanding.toList.map literal)),
      ("failures", toString g.failures.length) ]

end PushMesh
