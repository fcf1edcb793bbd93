import PushMesh.Inquiry
import PushMesh.Proofs.Registry.Bulk

/-!
# Finding connections is scanning them

`roster` lists the registered connections of a node. Where the bookkeeping of a registry is in order,
what its indexes find is what a scan of the roster finds (`ids_eq_idsWhere`), for every audience
(`audience_eq`) and every list of connections to be closed (`mem_closing_iff`). So the number of
connections that a send counts is a count over the roster.
-/

namespace PushMesh

/-- Whether a message for an audience is offered to a connection. -/
def Audience.reaches : Audience → Connection → Bool
  | .key kind k, c => (c.keys kind).contains k
  | .keys kind ks, c => ks.any (c.keys kind).contains
  | .connection id, c => c.id == id
  | .all, _ => true

/-- Whether a connection is among those to be closed. -/
def Closing.covers : Closing → Connection → Bool
  | .user k, c => (c.keys .user).contains k
  | .token k, c => (c.keys .token).contains k
  | .connection id, c => c.id == id
  | .connections ids, c => ids.contains c.id

/-- What is to be said of a connection of a node, field by field. -/
def Connection.profile (c : Connection) (nodeId : String) : Descriptor where
  id := c.id
  nodeId := nodeId
  userId := c.userId
  accessToken := c.accessToken
  tags := c.tags.toList
  connectedAt := c.connectedAt
  alive := c.isOpen && c.hasReceiver
  delivered := c.delivered

/-- That is what a node says of it. -/
theorem Connection.describe_eq_profile : Connection.describe = Connection.profile := rfl

/-- Putting the keys of an audience in order changes nobody's part in it. -/
theorem Audience.reaches_normalized (a : Audience) (c : Connection) :
    a.normalized.reaches c = a.reaches c := by
  cases a with
  | keys kind ks =>
    rw [Bool.eq_iff_iff]
    simp [normalized, reaches, ← Ascending.mem_def]
  | _ => rfl

/-- Putting ids in order closes the same connections. -/
theorem Closing.covers_normalized (a : Closing) (c : Connection) :
    a.normalized.covers c = a.covers c := by
  cases a with
  | connections ids =>
    rw [Bool.eq_iff_iff]
    simp [normalized, covers, ← Ascending.mem_def]
  | _ => rfl

namespace Registry

/-- The registered connections, in ascending order of their ids. -/
def roster (r : Registry) : List Connection :=
  r.connections r.registered

/-- The ids of the registered connections that pass a test. -/
def idsWhere (r : Registry) (p : Connection → Bool) : Ascending ConnectionId :=
  r.registered.filter fun id => (r.get? id).any p

variable {r : Registry}

/-! ## The roster -/

/-- The roster lists what is found under some id. -/
theorem mem_roster {c : Connection} : c ∈ r.roster ↔ ∃ id, r.get? id = some c := by
  rw [roster, connections, List.mem_filterMap]
  constructor
  · rintro ⟨id, -, hc⟩
    exact ⟨id, hc⟩
  · rintro ⟨id, hc⟩
    exact ⟨id, (get?_eq_some_iff.1 hc).1, hc⟩

/-- The ids of a test are those of the registered connections that pass it. -/
theorem mem_idsWhere {p : Connection → Bool} {id : ConnectionId} :
    id ∈ r.idsWhere p ↔ ∃ c, r.get? id = some c ∧ p c = true := by
  rw [idsWhere, Ascending.mem_filter, Option.any_eq_true]
  constructor
  · rintro ⟨-, hc⟩
    exact hc
  · rintro ⟨c, hc, hp⟩
    exact ⟨(get?_eq_some_iff.1 hc).1, c, hc, hp⟩

/-- Counting ids by their connections is counting connections. -/
theorem countP_ids (r : Registry) (p : Connection → Bool) (ids : Ascending ConnectionId) :
    (ids.toList.countP fun id => (r.get? id).any p) = (r.connections ids).countP p := by
  rw [connections, List.countP_filterMap]
  refine List.countP_congr fun id _ => ?_
  cases r.get? id <;> rfl

/-- The connections that a scan finds are those of the roster that pass. -/
theorem connections_idsWhere (r : Registry) (p : Connection → Bool) :
    r.connections (r.idsWhere p) = r.roster.filter p := by
  rw [roster, connections, connections, idsWhere, Ascending.filter, List.filterMap_filter,
    List.filter_filterMap]
  congr 1
  funext id
  cases hc : r.get? id with
  | none => simp
  | some c => by_cases hp : p c <;> simp [hp, Option.filter]

/-- There are as many such ids as connections on the roster that pass. -/
theorem size_idsWhere (r : Registry) (p : Connection → Bool) :
    (r.idsWhere p).size = r.roster.countP p := by
  rw [roster, ← countP_ids, Ascending.size, idsWhere, Ascending.filter, List.countP_eq_length_filter]

/-- Every registered connection passes the test that lets everything pass. -/
theorem registered_eq_idsWhere (h : r.Stored) : r.registered = r.idsWhere fun _ => true := by
  refine Ascending.ext_mem fun id => ?_
  rw [mem_idsWhere]
  constructor
  · intro hid
    obtain ⟨c, hc⟩ := h.get? hid
    exact ⟨c, hc, rfl⟩
  · rintro ⟨c, hc, -⟩
    exact (get?_eq_some_iff.1 hc).1

/-- The roster is as long as the registry counts. -/
theorem length_roster (h : r.Stored) : r.roster.length = r.count := by
  have hsize := size_idsWhere r fun _ => true
  rw [← registered_eq_idsWhere h, List.countP_true] at hsize
  exact hsize.symm

/-- Connections are listed under their ids, in the order of the ids. -/
theorem sublist_map_id_connections (h : r.Stored) (ids : Ascending ConnectionId) :
    ((r.connections ids).map (·.id)).Sublist ids.toList := by
  have hself : ∀ id ∈ ids.toList,
      (r.get? id).map (·.id) = Option.guard (fun id => (r.get? id).isSome) id := by
    intro id _
    cases hc : r.get? id with
    | none => simp [Option.guard, hc]
    | some c => simp [Option.guard, hc, h.keyed id c (get?_eq_some_iff.1 hc).2]
  rw [connections, List.map_filterMap, List.filterMap_congr hself, List.filterMap_eq_filter]
  exact List.filter_sublist

/-- Connections are listed in strictly ascending order of their ids. -/
theorem pairwise_connections (h : r.Stored) (ids : Ascending ConnectionId) :
    ((r.connections ids).map (·.id)).Pairwise (· < ·) :=
  (ids.ascending.imp Std.compare_eq_lt.1).sublist (sublist_map_id_connections h ids)

/-- Connections are listed once. -/
theorem nodup_roster (h : r.Stored) : (r.roster.map (·.id)).Nodup :=
  r.registered.nodup.sublist (sublist_map_id_connections h r.registered)

/-! ## What the indexes find -/

/-- An index lists what a scan finds. -/
theorem ids_eq_idsWhere (h : r.Aligned) (kind : KeyKind) (key : String) :
    (r.index kind).ids key = r.idsWhere fun c => (c.keys kind).contains key := by
  refine Ascending.ext_mem fun id => ?_
  rw [h.indexed, mem_idsWhere]
  simp only [List.contains_iff_mem]

/-- An index lists as many connections under a key as a scan counts. -/
theorem size_ids (h : r.Aligned) (kind : KeyKind) (key : String) :
    ((r.index kind).ids key).size = r.roster.countP fun c => (c.keys kind).contains key := by
  rw [ids_eq_idsWhere h, size_idsWhere]

/-- The index of users lists as many connections as the user has. -/
theorem size_ids_user (h : r.Aligned) (user : String) :
    (r.users.ids user).size = (r.roster.filter fun c => c.userId = some user).length := by
  have hsame : (fun c : Connection => (c.keys .user).contains user) =
      fun c => decide (c.userId = some user) := by
    funext c
    rw [Bool.eq_iff_iff]
    simp [Connection.keys, eq_comm]
  rw [← hsame, ← List.countP_eq_length_filter]
  exact size_ids h .user user

/-- A key is in use where a connection has it. -/
theorem mem_keys_iff (h : r.Aligned) {kind : KeyKind} {key : String} :
    key ∈ r.keys kind ↔ ∃ c ∈ r.roster, key ∈ c.keys kind := by
  rw [keys, (h.tight kind).mem_keys]
  constructor
  · rintro ⟨id, hid⟩
    obtain ⟨c, hc, hkey⟩ := (h.indexed kind key id).1 hid
    exact ⟨c, mem_roster.2 ⟨id, hc⟩, hkey⟩
  · rintro ⟨c, hc, hkey⟩
    obtain ⟨id, hid⟩ := mem_roster.1 hc
    exact ⟨id, (h.indexed kind key id).2 ⟨c, hid, hkey⟩⟩

/-- An audience is what a scan finds. -/
theorem audience_eq (h : r.Aligned) (a : Audience) : r.audience a = r.idsWhere a.reaches := by
  cases a with
  | key kind k => exact ids_eq_idsWhere h kind k
  | keys kind ks =>
    -- a key that finds the connection, and a connection that has one of the keys
    refine Ascending.ext_mem fun id => ?_
    rw [audience, Index.mem_idsOfAny, mem_idsWhere]
    simp only [h.indexed, Audience.reaches, List.any_eq_true, List.contains_iff_mem]
    constructor
    · rintro ⟨k, hk, c, hc, hkey⟩
      exact ⟨c, hc, k, hk, hkey⟩
    · rintro ⟨c, hc, k, hk, hkey⟩
      exact ⟨k, hk, c, hc, hkey⟩
  | connection id =>
    refine Ascending.ext_mem fun id' => ?_
    rw [audience, Ascending.mem_filter, mem_idsWhere]
    simp only [Audience.reaches, beq_iff_eq]
    constructor
    · rintro ⟨hreg, rfl⟩
      obtain ⟨c, hc⟩ := h.get? hreg
      exact ⟨c, hc, h.keyed _ c (get?_eq_some_iff.1 hc).2⟩
    · rintro ⟨c, hc, hid⟩
      have hpool := get?_eq_some_iff.1 hc
      exact ⟨hpool.1, (h.keyed _ c hpool.2).symm.trans hid⟩
  | all => exact registered_eq_idsWhere h.toStored

/-- A connection is in an audience if it is registered and the audience reaches it. -/
theorem mem_audience_iff (h : r.Aligned) {a : Audience} {id : ConnectionId} :
    id ∈ (r.audience a).toList ↔ ∃ c, r.get? id = some c ∧ a.reaches c = true := by
  rw [← Ascending.mem_def, audience_eq h, mem_idsWhere]

/-- A registered connection is closed if a scan finds it. -/
theorem mem_closing_iff (h : r.Aligned) (a : Closing) {id : ConnectionId} {c : Connection}
    (hc : r.get? id = some c) : id ∈ r.closing a ↔ a.covers c = true := by
  have hid : c.id = id := h.keyed id c (get?_eq_some_iff.1 hc).2
  have hlisted : ∀ kind key, id ∈ (r.index kind).ids key ↔ (c.keys kind).contains key = true := by
    intro kind key
    rw [h.indexed, hc, List.contains_iff_mem]
    simp
  cases a with
  | user k => exact hlisted .user k
  | token k => exact hlisted .token k
  | connection id' => simp [closing, Closing.covers, hid]
  | connections ids => simp [closing, Closing.covers, hid]

/-! ## Counting what is found -/

/-- A send counts the connections of its audience that accept the message. -/
theorem snd_deliver_audience (h : r.Aligned) (a : Audience) (m : Message) :
    (r.deliver (r.audience a) m).2 = r.roster.countP fun c => a.reaches c && c.accepts := by
  have hcount := count_each (touches_sendOne m) h.toStored (r.audience a).nodup
  rw [deliver_eq]
  refine hcount.trans ?_
  rw [countP_ids, audience_eq h, connections_idsWhere, List.countP_filter]
  refine List.countP_congr fun c _ => ?_
  rw [Bool.and_comm]

end Registry

end PushMesh
