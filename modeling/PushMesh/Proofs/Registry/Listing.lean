import PushMesh.Mesh.View
import PushMesh.Proofs.Registry.Distinct
import PushMesh.Proofs.Registry.Refusal
import PushMesh.Proofs.Registry.Scan

/-!
# Readers of a registry

Queries read an index and describe what is listed there; listings of keys and statistics read the indexes
alone. `Surveyed` says of all of them that they answer what a scan of the registered connections would
answer. That holds where the indexes agree with the registered connections and have no entry that lists
nothing (`Aligned.surveyed`), so after every run (`surveyed_run`).
-/

namespace PushMesh.Registry

variable {r : Registry}

/-! ## The scan -/

/-- The keys of a kind that some registered connection has. -/
def keysInUse (r : Registry) (kind : KeyKind) : Ascending String :=
  .ofList (r.roster.flatMap (·.keys kind))

/-- The tags that some registered connection has, with the number of those that have it. -/
def tagScan (r : Registry) : List (String × Nat) :=
  (r.keysInUse .tag).toList.map fun tag => (tag, r.roster.countP fun c => tag ∈ c.keys .tag)

/-- The numbers of registered connections and of the keys that they have. -/
def statsScan (r : Registry) : Statistics where
  connections := r.roster.length
  users := (r.keysInUse .user).size
  tokens := (r.keysInUse .token).size
  tags := r.tagScan

/-- The keys in use are those of the registered connections. -/
theorem mem_keysInUse {kind : KeyKind} {key : String} :
    key ∈ r.keysInUse kind ↔ ∃ c ∈ r.roster, key ∈ c.keys kind := by
  rw [keysInUse, Ascending.mem_ofList, List.mem_flatMap]

/-- The answer of a node that describes connections. -/
structure Describes (nodeId : String) (cs : List Connection) (l : List Descriptor) : Prop where
  eq : l = cs.map (·.profile nodeId)
  /-- No connection is described twice, and all are in the order of their ids. -/
  ascending : (l.map (·.id)).Pairwise (· < ·)
  nodeId : ∀ d ∈ l, d.nodeId = nodeId

/-- What the readers of the registry of a node answer. -/
structure Surveyed (nodeId : String) (r : Registry) : Prop where
  /-- The roster lists what is registered. -/
  roster : ∀ c, c ∈ r.roster ↔ r.get? c.id = some c
  query : ∀ kind key, Text.isBlankText key = false → ∃ l, r.query kind key = .ok l ∧
    Describes nodeId (r.roster.filter fun c => key ∈ c.keys kind) l
  queryAll : Describes nodeId r.roster r.queryAll
  keys : ∀ kind, r.keys kind = (r.keysInUse kind).toList
  /-- That is, the keys in use stand there once, in ascending order, and no others. -/
  listed : ∀ kind, (r.keys kind).Pairwise (· < ·) ∧
    ∀ key, key ∈ r.keys kind ↔ ∃ c ∈ r.roster, key ∈ c.keys kind
  stats : r.stats = r.statsScan
  tagCounts : r.tagCounts = r.tagScan
  count : r.count = r.roster.length

/-! ## Queries -/

/-- What passes a test among the registered connections is described in the order of the ids. -/
theorem describes_filter (h : r.Stored) (p : Connection → Bool) :
    Describes r.nodeId (r.roster.filter p) ((r.roster.filter p).map (·.describe r.nodeId)) where
  eq := by rw [Connection.describe_eq_profile]
  ascending := by
    have hids : ((r.roster.filter p).map (·.id)).Sublist (r.roster.map (·.id)) :=
      List.filter_sublist.map _
    rw [List.map_map]
    exact (pairwise_connections h r.registered).sublist hids
  nodeId d hd := by
    obtain ⟨c, -, rfl⟩ := List.mem_map.1 hd
    rfl

/-- A key that is not blank finds what a scan finds. -/
theorem query_eq (h : r.Aligned) {kind : KeyKind} {key : String}
    (hkey : Text.isBlankText key = false) : r.query kind key =
      .ok ((r.roster.filter fun c => key ∈ c.keys kind).map (·.describe r.nodeId)) := by
  have hcheck : kind.check key = .ok () := KeyKind.check_eq_ok_iff.2 hkey
  have hsame : (fun c : Connection => (c.keys kind).contains key) =
      fun c => decide (key ∈ c.keys kind) := by
    funext c
    rw [List.contains_eq_mem]
  have hdescribe : r.describe ((r.index kind).ids key) =
      (r.roster.filter fun c => key ∈ c.keys kind).map (·.describe r.nodeId) := by
    rw [describe, ids_eq_idsWhere h, connections_idsWhere, hsame]
  rw [query, hcheck, ← hdescribe]
  rfl

/-! ## Keys -/

/-- An index lists its keys in ascending order. -/
theorem pairwise_keys (r : Registry) (kind : KeyKind) : (r.keys kind).Pairwise (· < ·) :=
  List.pairwise_map.2 ((r.index kind).ascending.imp compareOfLessAndEq_eq_lt.1)

/-- The keys in use are listed once, in ascending order. -/
theorem keys_eq (h : r.Aligned) (kind : KeyKind) : r.keys kind = (r.keysInUse kind).toList := by
  have hascending : (r.keys kind).Pairwise fun a b => compare a b = .lt :=
    List.pairwise_map.2 (r.index kind).ascending
  have hset : (⟨r.keys kind, hascending⟩ : Ascending String) = r.keysInUse kind := by
    apply Ascending.ext_mem
    intro key
    rw [mem_keysInUse, ← mem_keys_iff h]
    rfl
  exact congrArg Ascending.toList hset

/-- An index has one entry for each key in use. -/
theorem size_index (h : r.Aligned) (kind : KeyKind) :
    (r.index kind).size = (r.keysInUse kind).size := by
  rw [Ascending.size, ← keys_eq h, keys, Table.keys, List.length_map, Table.size]

/-- The table of tags counts the connections of each tag in use. -/
theorem tagCounts_eq (h : r.Aligned) : r.tagCounts = r.tagScan := by
  have hsize : ∀ e ∈ r.tags.entries, e.2.size = r.roster.countP fun c => e.1 ∈ c.keys .tag := by
    rintro ⟨tag, ids⟩ he
    have hids : (r.index .tag).ids tag = ids := by
      rw [Index.ids, show r.index .tag = r.tags from rfl, Table.get?_eq_some_iff.2 he]
      rfl
    rw [← hids, size_ids h]
    simp only [List.contains_eq_mem]
  rw [tagCounts, tagScan, ← keys_eq h, keys, Table.keys, List.map_map]
  apply List.map_congr_left
  intro e he
  exact Prod.ext rfl (hsize e he)

/-! ## All readers -/

/-- Where the places agree in which a registry keeps what it knows, they answer what a scan does. -/
theorem Aligned.surveyed (h : r.Aligned) : r.Surveyed r.nodeId where
  roster c := by
    rw [mem_roster]
    constructor
    · rintro ⟨id, hc⟩
      rwa [h.keyed id c (get?_eq_some_iff.1 hc).2]
    · exact fun hc => ⟨c.id, hc⟩
  query kind key hkey := ⟨_, query_eq h hkey, describes_filter h.toStored _⟩
  queryAll := by
    have hall := describes_filter h.toStored fun _ => true
    rwa [List.filter_true] at hall
  keys := keys_eq h
  listed kind := ⟨pairwise_keys r kind, fun key => by rw [keys_eq h]; exact mem_keysInUse⟩
  stats := by
    rw [stats, statsScan, length_roster h.toStored, tagCounts_eq h, ← size_index h, ← size_index h]
    rfl
  tagCounts := tagCounts_eq h
  count := (length_roster h.toStored).symm

/-- **Readers answer what a scan would answer.** After every run, a query describes exactly the registered
connections with the key, each once, in the order of the ids and under the name of the node; a listing
lists exactly the keys that they have; statistics and the table of tags count them. -/
theorem surveyed_run (nodeId : String) (limits : Limits) (salt : ConnectionId) (actions : List Action)
    (hids : (create nodeId limits salt).handedOut actions ≤ 2 ^ 64) :
    ((create nodeId limits salt).run actions).Surveyed nodeId := by
  have hr : ((create nodeId limits salt).run actions).Reachable :=
    ⟨nodeId, limits, salt, actions, hids, rfl⟩
  have hnode := (numbered_create nodeId limits salt).toStored.nodeId_run actions
  have hsurveyed := hr.aligned.surveyed
  rwa [hnode] at hsurveyed

/-- A run in which keys are shared, repeated, given up and refused. -/
def busyRun : List Action :=
  [.register ⟨some "u", some "t", ["y", "x", "y"]⟩ default 1, .register ⟨none, some "t", ["x"]⟩ default 1,
    .register ⟨some "u", none, []⟩ default 1, .register ⟨some "v", none, ["z"]⟩ default 1,
    .unregister (saltOf 7 + 4), .register ⟨some "u", some "s", ["w"]⟩ default 1]

/-- Shared, repeated, given up and refused keys are found as a scan finds them. -/
theorem surveyed_run_busy :
    (create "a" ⟨8, 2⟩ (saltOf 7)).handedOut busyRun ≤ 2 ^ 64 ∧
      ((create "a" ⟨8, 2⟩ (saltOf 7)).run busyRun).Surveyed "a" := by
  have hids : (create "a" ⟨8, 2⟩ (saltOf 7)).handedOut busyRun ≤ 2 ^ 64 :=
    Nat.le_trans (handedOut_le_length _ busyRun) (by decide)
  exact ⟨hids, surveyed_run "a" ⟨8, 2⟩ (saltOf 7) busyRun hids⟩

end PushMesh.Registry
