import PushMesh.Node

/-!
# The peers of a node

A node dispatches to its peers: the entries of a list of candidates that name other processes, each
of them once. Candidates come from configuration, as texts, or from discovery.
-/

namespace PushMesh.Membership

/-- Whether `node` is another process than `local` and than all of `kept`. -/
def isNewPeer (self : Node) (kept : List Node) (node : Node) : Bool :=
  !node.isSelf && node.id != self.id && !node.sameEndpoint self
    && kept.all fun p => p.id != node.id && !p.sameEndpoint node

/-- The candidates that name other processes, each once, the first entry of several standing. An
entry is dropped when it is flagged as the node itself, has its id or its endpoint, or repeats the
id or the endpoint of an entry kept before it. -/
def remotePeers (self : Node) (candidates : List Node) : List Node :=
  candidates.foldl (fun kept node => if isNewPeer self kept node then kept ++ [node] else kept) []

/-- The node that a configured entry names: `id@address`, or an address that is the id too. A blank
entry names none. -/
def ofEntry? (entry : String) : Option Node :=
  let cs := Text.trim entry.toList
  if cs.isEmpty then none
  else
    match Text.splitOnce? '@' cs with
    | some (id, address) =>
      some (.peer (String.ofList (Text.trim id)) (String.ofList (Text.trim address)))
    | none => some (.peer (String.ofList cs) (String.ofList cs))

/-- The peers that configured entries name. -/
def ofEntries (self : Node) (entries : List String) : List Node :=
  remotePeers self (entries.filterMap ofEntry?)

/-- Where the peers come from. -/
inductive Source where
  /-- A list in the configuration. -/
  | fixed
  /-- A shared store that every node writes itself to. -/
  | shared
deriving DecidableEq

/-- The peers known at the start: a shared store has told none yet. -/
def initialPeers (source : Source) (self : Node) (entries : List String) : List Node :=
  match source with
  | .fixed => ofEntries self entries
  | .shared => []

/-- Whether a background task has to keep the peers up to date. -/
def needsDiscovery : Source → Bool
  | .fixed => false
  | .shared => true

end PushMesh.Membership
