import PushMesh.Proofs.Registry.Run
import PushMesh.Proofs.Registry.Scan

/-!
# The registries that can come about

The bookkeeping of a registry is in order after every run, as long as fewer than 2³² ids are handed
out. The statement says so in terms of the fields of a registry.
-/

namespace PushMesh.Registry

/-- No user has more connections than a user may have. -/
theorem Consistent.length_filter_userId_le {r : Registry} (h : r.Consistent) (user : String) :
    (r.roster.filter fun c => c.userId = some user).length ≤ r.limits.perUser := by
  rw [← size_ids_user h.toAligned]
  exact h.perUser_le user

/-- A registered connection holds a slot. -/
theorem Consistent.active_pos {r : Registry} (h : r.Consistent) {id : ConnectionId}
    (hid : id ∈ r.registered) : 0 < r.active := by
  rw [h.active_eq, count, Ascending.size]
  exact List.length_pos_of_mem (Ascending.mem_def.1 hid)

/-- The fields of a registry tell the same story: which connections are registered, under which keys
they are found, and how many slots they take. -/
structure Bookkept (limits : Limits) (r : Registry) : Prop where
  users : ∀ user id, id ∈ r.users.ids user ↔ ∃ c, r.get? id = some c ∧ c.userId = some user
  tokens : ∀ token id,
    id ∈ r.tokens.ids token ↔ ∃ c, r.get? id = some c ∧ c.accessToken = some token
  tags : ∀ tag id, id ∈ r.tags.ids tag ↔ ∃ c, r.get? id = some c ∧ tag ∈ c.tags
  /-- No entry of an index is empty, and none lists what is not registered. -/
  entries : ∀ kind key ids, (r.index kind).get? key = some ids →
    (∃ id, id ∈ ids) ∧ ∀ id ∈ ids, id ∈ r.registered
  registered : ∀ id, id ∈ r.registered ↔ ∃ c, r.get? id = some c ∧ c.id = id
  active_eq : r.active = r.roster.length
  active_le : r.active ≤ limits.connections
  /-- A connection that leaves gives back a slot that was taken. -/
  active_unregister : ∀ id ∈ r.registered,
    0 < r.active ∧ (r.unregister id).1.active + 1 = r.active
  perUser_le : ∀ user,
    (r.roster.filter fun c => c.userId = some user).length ≤ limits.perUser
  le_lastId : ∀ id ∈ r.registered, id ≤ r.lastId

/-- A registry whose bookkeeping is in order, with its limits and its counter as they should be. -/
theorem Consistent.bookkept {r : Registry} (h : r.Consistent) : r.Bookkept r.limits where
  users user id := by
    rw [show r.users = r.index .user from rfl, h.indexed]
    simp [Connection.keys]
  tokens token id := by
    rw [show r.tokens = r.index .token from rfl, h.indexed]
    simp [Connection.keys]
  tags := h.indexed .tag
  entries kind key ids hget := by
    -- an entry of the index has a member, which has the key and is registered
    refine ⟨Ascending.isEmpty_eq_false_iff.1 (h.tight kind key ids hget), fun id hid => ?_⟩
    have hlisted : id ∈ (r.index kind).ids key := by
      rw [Index.ids, hget]
      exact hid
    obtain ⟨c, hc, -⟩ := (h.indexed kind key id).1 hlisted
    exact (get?_eq_some_iff.1 hc).1
  registered id := by
    constructor
    · intro hid
      obtain ⟨c, hc⟩ := h.get? hid
      exact ⟨c, hc, h.keyed id c (get?_eq_some_iff.1 hc).2⟩
    · rintro ⟨c, hc, -⟩
      exact (get?_eq_some_iff.1 hc).1
  active_eq := by
    rw [length_roster h.toStored]
    exact h.active_eq
  active_le := h.active_le
  active_unregister id hid := by
    -- whoever is registered takes up one of the active slots
    have hpos := h.active_pos hid
    obtain ⟨c, hc⟩ := h.get? hid
    have hafter : (r.unregister id).1.active = r.active - 1 := by
      rw [Registry.unregister, hc]
    exact ⟨hpos, by omega⟩
  perUser_le := h.length_filter_userId_le
  le_lastId id hid := by
    obtain ⟨c, hc⟩ := h.pooled id hid
    exact h.le_lastId id c hc

/-- **The bookkeeping of a registry.** After every run the three indexes list exactly the registered
connections with the key, under no key that has none; the slots in use are the registered
connections, within both limits; and no id is greater than the one given out last. -/
theorem bookkept_run (nodeId : String) (limits : Limits) (half : UInt32) (actions : List Action)
    (hids : (create nodeId limits (saltOf half)).handedOut actions < 2 ^ 32) :
    ((create nodeId limits (saltOf half)).run actions).Bookkept limits := by
  have hstart := counted_create nodeId limits (saltOf half)
  have hsalt := toNat_saltOf half
  have hhalf := half.toNat_lt
  -- the lower half of the counter has room for the ids of the run
  have hrun := hstart.run actions (by omega)
  have hbook := hrun.consistent.bookkept
  rwa [hrun.limits_eq] at hbook

/-- A run that meets both refusals, sends to a connection that is lost, and sweeps and closes. -/
def strainedRun : List Action :=
  let owner : Owner := ⟨some "u", some "t", ["x", "y", "x"]⟩
  [.register owner default 1, .register owner default 1, .register ⟨none, none, ["y"]⟩ default 0,
    .register ⟨none, none, []⟩ default 1, .use (saltOf 7 + 3) .dropReceiver,
    .execute (.send (.keys .tag ["y", "x"]) ⟨none, .null, none⟩), .sweep,
    .execute (.disconnect (.user "u")), .unregister (saltOf 7 + 2), .closeAll]

/-- The bookkeeping after the strained run. -/
theorem bookkept_strainedRun :
    (create "a" ⟨2, 1⟩ (saltOf 7)).handedOut strainedRun < 2 ^ 32 ∧
      ((create "a" ⟨2, 1⟩ (saltOf 7)).run strainedRun).Bookkept ⟨2, 1⟩ := by
  have hids : (create "a" ⟨2, 1⟩ (saltOf 7)).handedOut strainedRun < 2 ^ 32 :=
    Nat.lt_of_le_of_lt (handedOut_le_length _ strainedRun) (by decide)
  exact ⟨hids, bookkept_run "a" ⟨2, 1⟩ 7 strainedRun hids⟩

end PushMesh.Registry
