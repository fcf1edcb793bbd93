import PushMesh.Proofs.Registry.Run

/-!
# Ids that are given out once

Ids are words, so their counter may wrap around, and a later id may be less than an earlier one. It
is a new one all the same while no more ids are handed out than there are words (`Numbered.fresh`),
and that is all the bookkeeping needs: what a registry knows of its connections agrees in every run
that hands out at most 2⁶⁴ ids (`Reachable.aligned`).
-/

namespace PushMesh.Registry

variable {r : Registry} {salt : ConnectionId} {n : Nat}

/-- A registry whose knowledge agrees, and that has handed out the first `n` ids after `salt`. -/
structure Numbered (salt : ConnectionId) (n : Nat) (r : Registry) : Prop extends r.Aligned where
  lastId_eq : r.lastId = salt + UInt64.ofNat n
  handed : ∀ id c, r.handle? id = some c → ∃ k, 0 < k ∧ k ≤ n ∧ id = salt + UInt64.ofNat k

/-- A new registry has given out no id. -/
theorem numbered_create (nodeId : String) (limits : Limits) (salt : ConnectionId) :
    Numbered salt 0 (create nodeId limits salt) where
  toAligned := aligned_create nodeId limits salt
  lastId_eq := (UInt64.add_zero salt).symm
  handed id c hc := by
    simp [create, handle?] at hc

/-- The counter goes on by one. -/
theorem Numbered.next_eq (h : Numbered salt n r) :
    r.lastId + 1 = salt + UInt64.ofNat (n + 1) := by
  rw [h.lastId_eq, UInt64.add_assoc]
  exact congrArg (salt + ·) (UInt64.ofNat_add n 1).symm

/-- The id that is handed out next is a new one, even where the counter wraps around. -/
theorem Numbered.fresh (h : Numbered salt n r) (hn : n + 1 ≤ 2 ^ 64) :
    r.handle? (r.lastId + 1) = none := by
  apply Option.eq_none_iff_forall_ne_some.2
  intro c hc
  obtain ⟨k, hpos, hle, hid⟩ := h.handed _ c hc
  -- two words after `salt` are the same only a whole round apart
  rw [h.next_eq, UInt64.add_right_inj] at hid
  have hmod : (n + 1) % 2 ^ 64 = k % 2 ^ 64 := by
    rw [← UInt64.toNat_ofNat', ← UInt64.toNat_ofNat', hid]
  omega

/-- A registration gives out one id if there is room, and the next one. -/
theorem Numbered.register (h : Numbered salt n r) (owner : Owner) (connectedAt : Instant)
    (capacity : Nat) (hn : n + (if r.active < r.limits.connections then 1 else 0) ≤ 2 ^ 64) :
    Numbered salt (n + if r.active < r.limits.connections then 1 else 0)
      (r.register owner connectedAt capacity).1 := by
  have haligned : (r.register owner connectedAt capacity).1.Aligned := by
    apply h.toAligned.register
    intro hroom
    rw [if_pos hroom] at hn
    exact h.fresh hn
  -- the ids that were given out before are still those of earlier numbers
  have hearlier : ∀ id c, r.handle? id = some c →
      ∃ k, 0 < k ∧ k ≤ n + 1 ∧ id = salt + UInt64.ofNat k := by
    intro id c hc
    obtain ⟨k, hpos, hle, hid⟩ := h.handed id c hc
    exact ⟨k, hpos, Nat.le_succ_of_le hle, hid⟩
  rcases register_cases (h.tight .user) owner connectedAt capacity with
    ⟨hfull, heq⟩ | ⟨hroom, user, -, -, heq⟩ | ⟨hroom, -, heq⟩
  · rw [if_neg (Nat.not_lt.2 hfull)]
    exact ⟨haligned, heq ▸ h.lastId_eq, heq ▸ h.handed⟩
  · rw [if_pos hroom]
    exact ⟨haligned, heq ▸ h.next_eq, heq ▸ hearlier⟩
  · rw [if_pos hroom]
    refine ⟨haligned, heq ▸ h.next_eq, ?_⟩
    rw [heq]
    intro id c hc
    rw [handle?_enter] at hc
    split at hc
    · next hid => exact ⟨n + 1, Nat.succ_pos n, Nat.le_refl _, hid.trans h.next_eq⟩
    · exact hearlier id c hc

/-- What one action keeps. -/
theorem Numbered.act (h : Numbered salt n r) (a : Action) (hn : n + r.handsOut a ≤ 2 ^ 64) :
    Numbered salt (n + r.handsOut a) (r.act a) := by
  cases hregister : a.isRegister with
  | true =>
    cases a with
    | register owner connectedAt capacity => exact h.register owner connectedAt capacity hn
    | _ => cases hregister
  | false =>
    -- nothing but a registration hands out an id or accepts a connection
    have hzero : r.handsOut a = 0 := by
      cases a with
      | register => cases hregister
      | _ => rfl
    have hrevised := revised_act h.toStored hregister
    rw [hzero]
    refine ⟨hrevised.aligned h.toAligned, hrevised.fixed.2.2.trans h.lastId_eq, ?_⟩
    intro id c hc
    obtain ⟨d, hd⟩ := hrevised.handle?_of_handle? hc
    exact h.handed id d hd

/-- What a run keeps: by induction on the actions, one step at a time. -/
theorem Numbered.run (h : Numbered salt n r) (actions : List Action)
    (hn : n + r.handedOut actions ≤ 2 ^ 64) :
    Numbered salt (n + r.handedOut actions) (r.run actions) := by
  induction actions generalizing r n with
  | nil => exact h
  | cons a actions ih =>
    rw [handedOut, ← Nat.add_assoc n] at hn ⊢
    exact ih (h.act a (by omega)) hn

/-- A registry keeps its name. -/
theorem Stored.nodeId_act (hr : r.Stored) (a : Action) : (r.act a).nodeId = r.nodeId := by
  cases hregister : a.isRegister with
  | false => exact (revised_act hr hregister).fixed.1
  | true =>
    cases a with
    | register owner connectedAt capacity =>
      rcases r.register_outcomes owner connectedAt capacity with
        ⟨-, heq⟩ | ⟨-, user, -, -, heq⟩ | ⟨-, -, heq⟩
      all_goals exact congrArg (·.1.nodeId) heq
    | _ => cases hregister

/-- A run does not change which node a registry belongs to. -/
theorem Stored.nodeId_run (hr : r.Stored) (actions : List Action) :
    (r.run actions).nodeId = r.nodeId := by
  induction actions generalizing r with
  | nil => rfl
  | cons a actions ih => exact (ih (hr.act a)).trans (hr.nodeId_act a)

/-- A registry that came about in any way in which no id was handed out twice. -/
def Reachable (r : Registry) : Prop :=
  ∃ nodeId limits salt actions,
    (create nodeId limits salt).handedOut actions ≤ 2 ^ 64 ∧
      r = (create nodeId limits salt).run actions

/-- The indexes of a reachable registry agree with its roster. -/
theorem Reachable.aligned (h : r.Reachable) : r.Aligned := by
  obtain ⟨nodeId, limits, salt, actions, hids, rfl⟩ := h
  have hrun := (numbered_create nodeId limits salt).run actions (by rwa [Nat.zero_add])
  exact hrun.toAligned

end PushMesh.Registry
