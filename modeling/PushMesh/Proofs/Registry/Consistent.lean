import PushMesh.Proofs.Registry.Index
import PushMesh.Registry.Basic

/-!
# The bookkeeping of a registry

A registry keeps the same facts in several places: the pool of connections, the ids that are
registered, one index for each kind of key, and the number of slots in use. `Aligned` says that
they agree, and `Consistent` that ids are given out in ascending order, too. They are kept by
everything that changes a registry:

* `Aligned.put`: a connection is replaced by one of the same owner;
* `Aligned.unregister`: a connection leaves, and with it its slot and its index entries;
* `Aligned.register`: a connection comes, or is refused and leaves no trace but a used-up id.

Whatever else happens to a registry is made of these.
-/

namespace PushMesh

namespace Connection

/-- The keys of a kind that a connection is found by. -/
def keys (c : Connection) : KeyKind → List String
  | .user => c.userId.toList
  | .token => c.accessToken.toList
  | .tag => c.tags.toList

/-- Whether two connections are the same but for what has happened to them. -/
structure Twins (c d : Connection) : Prop where
  id : c.id = d.id
  userId : c.userId = d.userId
  accessToken : c.accessToken = d.accessToken
  tags : c.tags = d.tags

/-- A connection is its own twin. -/
theorem Twins.refl (c : Connection) : c.Twins c := ⟨rfl, rfl, rfl, rfl⟩

/-- Twins are found under the same keys. -/
theorem Twins.keys_eq {c d : Connection} (h : c.Twins d) (kind : KeyKind) :
    c.keys kind = d.keys kind := by
  cases kind <;> simp only [keys, h.userId, h.accessToken, h.tags]

/-- An offer changes neither the id nor the keys of a connection. -/
theorem twins_trySend (c : Connection) (m : Message) : (c.trySend m).1.Twins c := by
  unfold trySend
  split
  · exact .refl c
  · split
    · exact ⟨rfl, rfl, rfl, rfl⟩
    · split <;> exact ⟨rfl, rfl, rfl, rfl⟩

/-- Closing changes neither the id nor the keys of a connection. -/
theorem twins_close (c : Connection) : c.close.Twins c := ⟨rfl, rfl, rfl, rfl⟩

end Connection

namespace Registry

/-! ## The two views of a connection -/

/-- A connection that is replaced is the new one, and the others are as they were. -/
@[simp]
theorem handle?_put (r : Registry) (c : Connection) (id : ConnectionId) :
    (r.put c).handle? id = if id = c.id then some c else r.handle? id := by
  rw [handle?, put, Table.get?_insert]
  by_cases h : id = c.id <;> simp [h, handle?]

/-- A connection is found among those that are registered and held. -/
theorem get?_eq_some_iff {r : Registry} {id : ConnectionId} {c : Connection} :
    r.get? id = some c ↔ id ∈ r.registered ∧ r.handle? id = some c := by
  unfold get?
  split
  · next h => simp [handle?, Ascending.contains_iff.1 h]
  · next h => simp [mt Ascending.contains_iff.2 h]

/-- Writing a connection back registers nobody. -/
@[simp]
theorem registered_put (r : Registry) (c : Connection) : (r.put c).registered = r.registered := rfl

/-- Writing a connection back leaves the indexes alone. -/
@[simp]
theorem index_put (r : Registry) (c : Connection) (kind : KeyKind) :
    (r.put c).index kind = r.index kind := by
  cases kind <;> rfl

/-- The connections of a registry are kept in order: each under its own id, and the registered ones
are among them. -/
structure Stored (r : Registry) : Prop where
  /-- Every connection is kept under its own id. -/
  keyed : ∀ id c, r.handle? id = some c → c.id = id
  /-- A registered connection is kept. -/
  pooled : ∀ id ∈ r.registered, ∃ c, r.handle? id = some c

/-- A connection is held under its own id. -/
theorem Stored.handle?_id {r : Registry} (h : r.Stored) {id : ConnectionId} {c : Connection}
    (hc : r.handle? id = some c) : r.handle? c.id = some c := by
  rwa [h.keyed id c hc]

/-- Whoever is registered is found. -/
theorem Stored.get? {r : Registry} (h : r.Stored) {id : ConnectionId} (hid : id ∈ r.registered) :
    ∃ c, r.get? id = some c := by
  obtain ⟨c, hc⟩ := h.pooled id hid
  exact ⟨c, get?_eq_some_iff.2 ⟨hid, hc⟩⟩

/-- Replacing a connection keeps what is stored in order. -/
theorem Stored.put {r : Registry} (h : r.Stored) (c : Connection) : (r.put c).Stored where
  keyed id d hd := by
    rw [handle?_put] at hd
    split at hd
    · next hid =>
      obtain rfl := Option.some.inj hd
      exact hid.symm
    · exact h.keyed id d hd
  pooled id hid := by
    rw [handle?_put]
    split
    · exact ⟨c, rfl⟩
    · exact h.pooled id hid

/-- The places where a registry keeps what it knows of its connections agree. -/
structure Aligned (r : Registry) : Prop extends r.Stored where
  /-- An index lists exactly the registered connections with the key. -/
  indexed : ∀ kind key id,
    id ∈ (r.index kind).ids key ↔ ∃ c, r.get? id = some c ∧ key ∈ c.keys kind
  /-- No key is listed without a connection. -/
  tight : ∀ kind, (r.index kind).Tight
  /-- Every registered connection takes one slot. -/
  active_eq : r.active = r.count
  active_le : r.active ≤ r.limits.connections
  perUser_le : ∀ user, (r.users.ids user).size ≤ r.limits.perUser

/-- A registry whose knowledge agrees and whose ids have not wrapped around. -/
structure Consistent (r : Registry) : Prop extends r.Aligned where
  /-- The id given out last is the greatest. -/
  le_lastId : ∀ id c, r.handle? id = some c → id ≤ r.lastId

/-- The indexes of a new registry are empty. -/
theorem index_create (nodeId : String) (limits : Limits) (salt : ConnectionId) (kind : KeyKind) :
    (create nodeId limits salt).index kind = ∅ := by
  cases kind <;> rfl

/-- In a new registry there is nothing to disagree about. -/
theorem aligned_create (nodeId : String) (limits : Limits) (salt : ConnectionId) :
    (create nodeId limits salt).Aligned where
  keyed := by
    intro id c h
    simp [create, handle?] at h
  pooled := by simp [create]
  indexed := by
    intro kind key id
    have hget : (create nodeId limits salt).get? id = none := rfl
    rw [index_create, hget]
    simp
  tight := by
    intro kind
    rw [index_create]
    exact Index.tight_empty
  active_eq := rfl
  active_le := Nat.zero_le _
  perUser_le := by simp [create]

/-- A new registry is consistent. -/
theorem consistent_create (nodeId : String) (limits : Limits) (salt : ConnectionId) :
    (create nodeId limits salt).Consistent where
  toAligned := aligned_create nodeId limits salt
  le_lastId := by
    intro id c h
    simp [create, handle?] at h

/-! ## A connection is replaced -/

/-- Replacing a connection by a twin leaves all bookkeeping in order. -/
theorem Aligned.put {r : Registry} (h : r.Aligned) {c d : Connection}
    (hc : r.handle? c.id = some c) (hd : d.Twins c) : (r.put d).Aligned := by
  -- a twin has the same keys, so the indexes have nothing to change
  have hget : ∀ {kind : KeyKind} {key : String} {id : ConnectionId},
      (∃ e, (r.put d).get? id = some e ∧ key ∈ e.keys kind) ↔
        ∃ e, r.get? id = some e ∧ key ∈ e.keys kind := by
    intro kind key id
    simp only [get?_eq_some_iff, handle?_put, registered_put, hd.id]
    by_cases hid : id = c.id
    · subst hid
      simp [hc, hd.keys_eq]
    · simp [hid]
  constructor
  · exact h.toStored.put d
  · intro kind key id
    rw [index_put, hget]
    exact h.indexed kind key id
  · intro kind
    rw [index_put]
    exact h.tight kind
  · exact h.active_eq
  · exact h.active_le
  · exact h.perUser_le

/-! ## A connection leaves -/

/-- A connection leaves the entries of its own keys. -/
theorem index_unregister {r : Registry} {id : ConnectionId} {c : Connection}
    (hc : r.get? id = some c) (kind : KeyKind) :
    (r.unregister id).1.index kind = (r.index kind).removeAll (c.keys kind) id := by
  rw [unregister, hc]
  cases kind <;> rfl

/-- Unregistering takes a connection from the registered ones and does nothing else to them. -/
theorem get?_unregister (r : Registry) (id id' : ConnectionId) :
    (r.unregister id).1.get? id' = if id' = id then none else r.get? id' := by
  cases hc : r.get? id with
  | none =>
    rw [unregister, hc]
    by_cases h : id' = id <;> simp [h, hc]
  | some c =>
    ext d
    rw [get?_eq_some_iff, unregister, hc]
    by_cases h : id' = id <;> simp [h, get?_eq_some_iff, handle?]

/-- A connection that leaves is stored as before. -/
theorem Stored.unregister {r : Registry} (h : r.Stored) (id : ConnectionId) :
    (r.unregister id).1.Stored := by
  cases hc : r.get? id with
  | none =>
    rw [Registry.unregister, hc]
    exact h
  | some c =>
    rw [Registry.unregister, hc]
    exact ⟨h.keyed, fun id' hid' => h.pooled id' (Ascending.mem_erase.1 hid').1⟩

/-- When a connection leaves, its slot and its entries leave with it. -/
theorem Aligned.unregister {r : Registry} (h : r.Aligned) (id : ConnectionId) :
    (r.unregister id).1.Aligned := by
  cases hc : r.get? id with
  | none =>
    rw [Registry.unregister, hc]
    exact h
  | some c =>
    -- the id is registered, so the slot that is given back was taken
    have hreg : id ∈ r.registered := (get?_eq_some_iff.1 hc).1
    have hstate : (r.unregister id).1 = { r with
        registered := r.registered.erase id
        users := r.users.removeAll c.userId.toList id
        tokens := r.tokens.removeAll c.accessToken.toList id
        tags := r.tags.removeAll c.tags.toList id
        active := r.active - 1
        closed := r.closed + 1 } := by
      rw [Registry.unregister, hc]
    constructor
    · exact h.toStored.unregister id
    · intro kind key id'
      rw [index_unregister hc, Index.mem_ids_removeAll, get?_unregister, h.indexed]
      by_cases hid : id' = id
      · subst hid
        simp [hc]
      · simp [hid]
    · intro kind
      rw [index_unregister hc]
      exact (h.tight kind).removeAll _ id
    · have hsize := Ascending.size_erase hreg
      have := h.active_eq
      rw [hstate]
      simp only [count] at this ⊢
      omega
    · have := h.active_le
      rw [hstate]
      dsimp only
      omega
    · intro user
      rw [hstate]
      refine Nat.le_trans (Ascending.size_le_size fun a ha => ?_) (h.perUser_le user)
      exact (Index.mem_ids_removeAll.1 ha).1

/-! ## A connection comes -/

/-- The registry with a new connection entered everywhere. -/
def enter (r : Registry) (c : Connection) : Registry :=
  { r with
    pool := r.pool.insert c.id c
    registered := r.registered.insert c.id
    users := r.users.addAll (c.keys .user) c.id
    tokens := r.tokens.addAll (c.keys .token) c.id
    tags := r.tags.addAll (c.keys .tag) c.id
    lastId := c.id
    active := r.active + 1
    opened := r.opened + 1 }

/-- Everything that a registration can do: nothing, use up an id, or enter the connection. The
two-stage refusal of a user takes back its slot, and the entry of the user if that lists nothing. -/
theorem register_outcomes (r : Registry) (owner : Owner) (connectedAt : Instant) (capacity : Nat) :
    let c := Connection.create (r.lastId + 1) owner connectedAt capacity
    (r.limits.connections ≤ r.active ∧
      r.register owner connectedAt capacity =
        (r, .error (.total r.active r.limits.connections))) ∨
    (r.active < r.limits.connections ∧
      ∃ user, owner.userId = some user ∧ r.limits.perUser ≤ (r.users.ids user).size ∧
        r.register owner connectedAt capacity =
          ({ r with lastId := r.lastId + 1, users := (r.users.withEntry user).dropIfEmpty user },
            .error (.user user (r.users.ids user).size r.limits.perUser))) ∨
    (r.active < r.limits.connections ∧
      (∀ user, owner.userId = some user → (r.users.ids user).size < r.limits.perUser) ∧
        r.register owner connectedAt capacity = (r.enter c, .ok c)) := by
  intro c
  by_cases hroom : r.active < r.limits.connections
  · cases huser : owner.userId with
    | none =>
      -- nobody is counted for a connection without a user
      refine .inr (.inr ⟨hroom, by simp, ?_⟩)
      simp only [register, reserveSlot, hroom, if_true, claimUserSlot, Connection.create, huser]
      simp [enter, c, Connection.create, Connection.keys, huser, Index.addAll]
    | some user =>
      -- the slot of the user is claimed, or given back together with the slot of the node
      by_cases hslot : (r.users.ids user).size < r.limits.perUser
      · refine .inr (.inr ⟨hroom, by simpa using hslot, ?_⟩)
        simp only [register, reserveSlot, hroom, if_true, claimUserSlot, Connection.create, huser,
          Index.ids_withEntry, hslot, Index.add_withEntry]
        simp [enter, c, Connection.create, Connection.keys, huser, Index.addAll]
      · refine .inr (.inl ⟨hroom, user, rfl, Nat.le_of_not_lt hslot, ?_⟩)
        simp only [register, reserveSlot, hroom, if_true, claimUserSlot, Connection.create, huser,
          Index.ids_dropIfEmpty, Index.ids_withEntry, hslot, if_false, releaseSlot,
          Nat.add_sub_cancel]
  · refine .inl ⟨Nat.le_of_not_lt hroom, ?_⟩
    simp only [register, reserveSlot, hroom, if_false]

/-- Where no user is listed without a connection, the refusal of a user takes back all but the id. -/
theorem register_cases {r : Registry} (h : r.users.Tight) (owner : Owner) (connectedAt : Instant)
    (capacity : Nat) :
    let c := Connection.create (r.lastId + 1) owner connectedAt capacity
    (r.limits.connections ≤ r.active ∧
      r.register owner connectedAt capacity =
        (r, .error (.total r.active r.limits.connections))) ∨
    (r.active < r.limits.connections ∧
      ∃ user, owner.userId = some user ∧ r.limits.perUser ≤ (r.users.ids user).size ∧
        r.register owner connectedAt capacity =
          ({ r with lastId := r.lastId + 1 },
            .error (.user user (r.users.ids user).size r.limits.perUser))) ∨
    (r.active < r.limits.connections ∧
      (∀ user, owner.userId = some user → (r.users.ids user).size < r.limits.perUser) ∧
        r.register owner connectedAt capacity = (r.enter c, .ok c)) := by
  intro c
  rcases r.register_outcomes owner connectedAt capacity with
    hfull | ⟨hroom, user, huser, hcrowded, heq⟩ | hentered
  · exact .inl hfull
  · rw [h.dropIfEmpty_withEntry] at heq
    exact .inr (.inl ⟨hroom, user, huser, hcrowded, heq⟩)
  · exact .inr (.inr hentered)

/-- A connection enters the entries of its own keys. -/
theorem index_enter (r : Registry) (c : Connection) (kind : KeyKind) :
    (r.enter c).index kind = (r.index kind).addAll (c.keys kind) c.id := by
  cases kind <;> rfl

/-- A connection that enters is held, and the others are as they were. -/
theorem handle?_enter (r : Registry) (c : Connection) (id : ConnectionId) :
    (r.enter c).handle? id = if id = c.id then some c else r.handle? id := by
  rw [handle?, enter, Table.get?_insert]
  by_cases h : id = c.id <;> simp [h, handle?]

/-- A connection that enters is found, and the others are as they were. -/
theorem get?_enter (r : Registry) (c : Connection) (id : ConnectionId) :
    (r.enter c).get? id = if id = c.id then some c else r.get? id := by
  ext d
  rw [get?_eq_some_iff, handle?_enter]
  by_cases h : id = c.id <;> simp [h, enter, get?_eq_some_iff]

/-- A connection enters under its own id. -/
theorem Stored.enter {r : Registry} (h : r.Stored) (c : Connection) : (r.enter c).Stored where
  keyed id d hd := by
    rw [handle?_enter] at hd
    split at hd
    · next hid =>
      obtain rfl := Option.some.inj hd
      exact hid.symm
    · exact h.keyed id d hd
  pooled id hid := by
    rw [handle?_enter]
    split
    · exact ⟨c, rfl⟩
    · next hne => exact h.pooled id ((Ascending.mem_insert.1 hid).resolve_left hne)

/-- Only the user of the connection has one more. -/
theorem ids_users_enter (r : Registry) (c : Connection) (user : String) :
    (r.enter c).users.ids user =
      if c.userId = some user then (r.users.ids user).insert c.id else r.users.ids user := by
  cases huser : c.userId with
  | none => simp [Registry.enter, Connection.keys, huser, Index.addAll]
  | some u =>
    simp only [Registry.enter, Connection.keys, huser, Option.toList_some, Index.addAll,
      List.foldl_cons, List.foldl_nil, Index.ids_add, Option.some.injEq]
    by_cases hu : user = u
    · simp [hu]
    · simp [hu, Ne.symm hu]

/-- An id that no connection is kept under names nothing. -/
theorem Stored.fresh {r : Registry} (h : r.Stored) {id : ConnectionId}
    (hnew : r.handle? id = none) : id ∉ r.registered ∧ r.get? id = none := by
  have hunreg : id ∉ r.registered := by
    intro hreg
    obtain ⟨d, hd⟩ := h.pooled id hreg
    rw [hnew] at hd
    cases hd
  refine ⟨hunreg, Option.eq_none_iff_forall_ne_some.2 fun d hd => ?_⟩
  exact hunreg (get?_eq_some_iff.1 hd).1

/-- An id beyond the one given out last has not been given out. -/
theorem Consistent.handle?_eq_none {r : Registry} (h : r.Consistent) {id : ConnectionId}
    (hnew : r.lastId < id) : r.handle? id = none := by
  refine Option.eq_none_iff_forall_ne_some.2 fun d hd => ?_
  exact absurd (h.le_lastId id d hd) (UInt64.not_le.2 hnew)

/-- A connection with a new id is entered where the limits leave room. -/
theorem Aligned.enter {r : Registry} (h : r.Aligned) {c : Connection}
    (hnew : r.handle? c.id = none) (hroom : r.active < r.limits.connections)
    (hslot : ∀ user, c.userId = some user → (r.users.ids user).size < r.limits.perUser) :
    (r.enter c).Aligned := by
  obtain ⟨hunreg, hnone⟩ := h.fresh hnew
  constructor
  · exact h.toStored.enter c
  · intro kind key id
    rw [index_enter, Index.mem_ids_addAll, get?_enter, h.indexed]
    by_cases hid : id = c.id
    · subst hid
      simp [hnone]
    · simp [hid]
  · intro kind
    rw [index_enter]
    exact (h.tight kind).addAll _ c.id
  · have hactive := h.active_eq
    simp only [count, Registry.enter, Ascending.size_insert hunreg] at hactive ⊢
    omega
  · exact hroom
  · intro user
    have hle := h.perUser_le user
    rw [ids_users_enter]
    -- only the user of the connection gets one more, and there was room for it
    split
    · next huser =>
      have hout : c.id ∉ r.users.ids user := by
        intro hin
        obtain ⟨d, hd, -⟩ := (h.indexed .user user c.id).1 hin
        rw [hnone] at hd
        cases hd
      rw [Ascending.size_insert hout]
      exact hslot user huser
    · exact hle

/-- Registration keeps the bookkeeping in order as long as no id is given out a second time. -/
theorem Aligned.register {r : Registry} (h : r.Aligned) (owner : Owner)
    (connectedAt : Instant) (capacity : Nat)
    (hnew : r.active < r.limits.connections → r.handle? (r.lastId + 1) = none) :
    (r.register owner connectedAt capacity).1.Aligned := by
  rcases register_cases (h.tight .user) owner connectedAt capacity with
    ⟨-, heq⟩ | ⟨-, user, -, -, heq⟩ | ⟨hroom, hslot, heq⟩
  · rw [heq]
    exact h
  · rw [heq]
    exact ⟨⟨h.keyed, h.pooled⟩, h.indexed, h.tight, h.active_eq, h.active_le, h.perUser_le⟩
  · rw [heq]
    exact h.enter (hnew hroom) hroom hslot

/-- Registration keeps ids in ascending order as long as they do not wrap around. -/
theorem Consistent.register {r : Registry} (h : r.Consistent) (owner : Owner)
    (connectedAt : Instant) (capacity : Nat)
    (hwrap : r.active < r.limits.connections → r.lastId < r.lastId + 1) :
    (r.register owner connectedAt capacity).1.Consistent := by
  have haligned := h.toAligned.register owner connectedAt capacity
    fun hroom => h.handle?_eq_none (hwrap hroom)
  refine ⟨haligned, fun id c hc => ?_⟩
  rcases register_cases (h.tight .user) owner connectedAt capacity with
    ⟨-, heq⟩ | ⟨hroom, user, -, -, heq⟩ | ⟨hroom, -, heq⟩
  · rw [heq] at hc ⊢
    exact h.le_lastId id c hc
  · rw [heq] at hc ⊢
    exact UInt64.le_trans (h.le_lastId id c hc) (UInt64.le_of_lt (hwrap hroom))
  · rw [heq] at hc ⊢
    rw [handle?_enter] at hc
    split at hc
    · next hid => exact hid ▸ UInt64.le_refl _
    · exact UInt64.le_trans (h.le_lastId id c hc) (UInt64.le_of_lt (hwrap hroom))

end Registry

end PushMesh
