import PushMesh.Proofs.Registry.Distinct
import PushMesh.Proofs.Registry.Scan

/-!
# Who is admitted

A registration takes a slot of the node, then an id, then a slot of the user, and only then enters the
connection. The limits are measured by the registered connections: with room under both of them the
connection is entered (`register_of_hasRoom`) and found (`entered_enter`); over the limit on all connections
nothing changes (`register_of_full`); over the limit of a user an id is used up, and everything else that was
done on the way is taken back (`register_of_crowded`). `Admits` says all this of a registry, and it holds of
each that can come about, whatever its limits are (`admits_register`).
-/

namespace PushMesh

/-- The keys of a kind under which an owner is to be found. -/
def Owner.keys (owner : Owner) : KeyKind → List String
  | .user => owner.userId.toList
  | .token => owner.accessToken.toList
  | .tag => owner.tags

/-- A new connection has the keys of its owner. -/
theorem Connection.mem_keys_create {id : ConnectionId} {owner : Owner} {connectedAt : Instant}
    {capacity : Nat} {kind : KeyKind} {key : String} :
    key ∈ (Connection.create id owner connectedAt capacity).keys kind ↔ key ∈ owner.keys kind := by
  cases kind with
  | user | token => rfl
  | tag => exact Ascending.mem_ofList

namespace Registry

variable {r : Registry} {owner : Owner} {connectedAt : Instant} {capacity : Nat}

/-- The number of registered connections of a user. -/
def heldBy (r : Registry) (user : String) : Nat :=
  (r.roster.filter fun c => c.userId = some user).length

/-- Whether both limits leave room for a connection of an owner. -/
def HasRoom (r : Registry) (owner : Owner) : Prop :=
  r.roster.length < r.limits.connections ∧
    ∀ user, owner.userId = some user → r.heldBy user < r.limits.perUser

/-! ## Within the limits -/

/-- What the registry `s` is after a connection of an owner was entered into `r`. -/
structure Entered (r : Registry) (owner : Owner) (c : Connection) (s : Registry) : Prop where
  /-- It is found by its id. -/
  byId : s.get? c.id = some c
  /-- It is found under each key of its owner. -/
  byKey : ∀ kind, ∀ key ∈ owner.keys kind, c ∈ s.connections ((s.index kind).ids key)
  /-- However often a key was given, the connection is found once. -/
  once : ∀ kind key, ((s.connections ((s.index kind).ids key)).map (·.id)).Nodup
  /-- A tag that was given several times is kept once. -/
  tags : c.tags.toList.Nodup ∧ ∀ tag, tag ∈ c.tags ↔ tag ∈ owner.tags
  others : ∀ id, id ≠ c.id → s.get? id = r.get? id

/-- Entering a connection makes it known under its id and its keys. -/
theorem entered_enter (h : r.Stored) (id : ConnectionId) (owner : Owner) (connectedAt : Instant)
    (capacity : Nat) :
    let c := Connection.create id owner connectedAt capacity
    Entered r owner c (r.enter c) := by
  intro c
  have hself : (r.enter c).get? c.id = some c := by rw [get?_enter, if_pos rfl]
  refine ⟨hself, ?_, ?_, ?_, ?_⟩
  · intro kind key hkey
    have hlisted : c.id ∈ ((r.enter c).index kind).ids key := by
      rw [index_enter, Index.mem_ids_addAll]
      exact .inl ⟨Connection.mem_keys_create.2 hkey, rfl⟩
    exact List.mem_filterMap.2 ⟨c.id, hlisted, hself⟩
  · intro kind key
    have hids := sublist_map_id_connections (h.enter c) (((r.enter c).index kind).ids key)
    exact (Ascending.nodup _).sublist hids
  · exact ⟨c.tags.nodup, fun tag => Ascending.mem_ofList⟩
  · intro id' hne
    rw [get?_enter, if_neg hne]

/-! ## The outcomes -/

/-- The slots in use are the registered connections. -/
theorem Aligned.active_eq_length (h : r.Aligned) : r.active = r.roster.length := by
  rw [h.active_eq, length_roster h.toStored]

/-- There is no room for one of two reasons, of which the first is looked at first. -/
theorem not_hasRoom_iff : ¬r.HasRoom owner ↔ r.limits.connections ≤ r.roster.length ∨
    r.roster.length < r.limits.connections ∧
      ∃ user, owner.userId = some user ∧ r.limits.perUser ≤ r.heldBy user := by
  rw [HasRoom, ← Nat.not_lt]
  by_cases hroom : r.roster.length < r.limits.connections
  · simp [hroom]
  · simp [hroom]

/-- The limit on all connections is measured by what is registered, and never exceeded. -/
theorem Aligned.register_of_full (h : r.Aligned)
    (hfull : r.limits.connections ≤ r.roster.length) : r.register owner connectedAt capacity =
      (r, .error (.total r.limits.connections r.limits.connections)) := by
  have hactive := h.active_eq_length
  have hmax : r.active = r.limits.connections := Nat.le_antisymm h.active_le (hactive ▸ hfull)
  rcases register_cases (h.tight .user) owner connectedAt capacity with
    ⟨-, heq⟩ | ⟨hroom, -⟩ | ⟨hroom, -⟩
  · rw [heq, hmax]
  · exact absurd hmax (Nat.ne_of_lt hroom)
  · exact absurd hmax (Nat.ne_of_lt hroom)

/-- So is the limit of a user. -/
theorem Aligned.register_of_crowded (h : r.Aligned) {user : String}
    (hroom : r.roster.length < r.limits.connections) (huser : owner.userId = some user)
    (hcrowded : r.limits.perUser ≤ r.heldBy user) : r.register owner connectedAt capacity =
      ({ r with lastId := r.lastId + 1 },
        .error (.user user r.limits.perUser r.limits.perUser)) := by
  have hactive := h.active_eq_length
  have hheld : (r.users.ids user).size = r.heldBy user := size_ids_user h user
  have hmax : (r.users.ids user).size = r.limits.perUser :=
    Nat.le_antisymm (h.perUser_le user) (hheld ▸ hcrowded)
  rcases register_cases (h.tight .user) owner connectedAt capacity with
    ⟨hfull, -⟩ | ⟨-, user', huser', -, heq⟩ | ⟨-, hslot, -⟩
  · exact absurd hroom (Nat.not_lt.2 (hactive ▸ hfull))
  · obtain rfl : user = user' := Option.some.inj (huser.symm.trans huser')
    rw [heq, hmax]
  · exact absurd hmax (Nat.ne_of_lt (hslot user huser))

/-- Within both limits the connection is entered. -/
theorem Aligned.register_of_hasRoom (h : r.Aligned) (hroom : r.HasRoom owner) :
    let c := Connection.create (r.lastId + 1) owner connectedAt capacity
    r.register owner connectedAt capacity = (r.enter c, .ok c) := by
  have hactive := h.active_eq_length
  rcases register_cases (h.tight .user) owner connectedAt capacity with
    ⟨hfull, -⟩ | ⟨-, user, huser, hcrowded, -⟩ | ⟨-, -, heq⟩
  · exact absurd hroom.1 (Nat.not_lt.2 (hactive ▸ hfull))
  · rw [size_ids_user h] at hcrowded
    exact absurd (hroom.2 user huser) (Nat.not_lt.2 hcrowded)
  · exact heq

/-- Without room a registration is refused, and no index is touched. -/
theorem Aligned.register_of_not_hasRoom (h : r.Aligned) (hroom : ¬r.HasRoom owner) :
    ∃ s e, r.register owner connectedAt capacity = (s, .error e) ∧
      ∀ kind, s.index kind = r.index kind := by
  rcases not_hasRoom_iff.1 hroom with hfull | ⟨hroom, user, huser, hcrowded⟩
  · exact ⟨_, _, h.register_of_full hfull, fun _ => rfl⟩
  · refine ⟨_, _, h.register_of_crowded hroom huser hcrowded, fun kind => ?_⟩
    cases kind <;> rfl

/-- A registration is accepted iff there is room for its owner. -/
theorem Aligned.accepted_iff (h : r.Aligned) :
    (∃ c, (r.register owner connectedAt capacity).2 = .ok c) ↔ r.HasRoom owner := by
  constructor
  · rintro ⟨c, hc⟩
    by_contra hroom
    obtain ⟨s, e, heq, -⟩ := h.register_of_not_hasRoom hroom
    rw [heq] at hc
    cases hc
  · intro hroom
    rw [h.register_of_hasRoom hroom]
    exact ⟨_, rfl⟩

/-! ## All cases -/

/-- What comes of a registration. -/
structure Admits (r : Registry) (owner : Owner) (connectedAt : Instant) (capacity : Nat) : Prop where
  accepted_iff : (∃ c, (r.register owner connectedAt capacity).2 = .ok c) ↔ r.HasRoom owner
  accepted : ∀ c, (r.register owner connectedAt capacity).2 = .ok c →
    c = Connection.create (r.lastId + 1) owner connectedAt capacity ∧
      Entered r owner c (r.register owner connectedAt capacity).1
  /-- A node without a free slot stays as it is and gives out no id. -/
  full : r.limits.connections ≤ r.roster.length → r.register owner connectedAt capacity =
    (r, .error (.total r.limits.connections r.limits.connections))
  /-- For a user without a free slot an id is used up, and the slot of the node is given back. -/
  crowded : r.roster.length < r.limits.connections → ∀ user, owner.userId = some user →
    r.limits.perUser ≤ r.heldBy user → r.register owner connectedAt capacity =
      ({ r with lastId := r.lastId + 1 }, .error (.user user r.limits.perUser r.limits.perUser))
  /-- No index is left with an entry that lists nothing, which a refused user could have caused. -/
  tight : ∀ kind key ids,
    ((r.register owner connectedAt capacity).1.index kind).get? key = some ids →
      ids.isEmpty = false

/-- A registry whose indexes agree with its roster admits as `Admits` says. -/
theorem Aligned.admits (h : r.Aligned) (owner : Owner) (connectedAt : Instant) (capacity : Nat) :
    Admits r owner connectedAt capacity where
  accepted_iff := h.accepted_iff
  accepted c hc := by
    have hroom : r.HasRoom owner := h.accepted_iff.1 ⟨c, hc⟩
    rw [h.register_of_hasRoom hroom] at hc ⊢
    obtain rfl := Except.ok.inj hc
    exact ⟨rfl, entered_enter h.toStored (r.lastId + 1) owner connectedAt capacity⟩
  full := h.register_of_full
  crowded hroom user huser hcrowded := h.register_of_crowded hroom huser hcrowded
  tight kind := by
    by_cases hroom : r.HasRoom owner
    · rw [h.register_of_hasRoom hroom, index_enter]
      exact (h.tight kind).addAll _ _
    · obtain ⟨s, e, heq, hindex⟩ := h.register_of_not_hasRoom hroom
      rw [heq, hindex]
      exact h.tight kind

/-- **A registration is accepted exactly within the limits.** In every registry that can come about, a
connection is accepted if and only if fewer connections are registered than the node may have, and fewer
of its user than a user may have. Then it is found by its id and under all its keys. Over the limit on
all connections nothing changes, over the limit of a user nothing but the id given out last, and the
refusal reports as many connections as the limit allows. -/
theorem admits_register (hr : r.Reachable) (owner : Owner) (connectedAt : Instant)
    (capacity : Nat) : Admits r owner connectedAt capacity :=
  hr.aligned.admits owner connectedAt capacity

/-- A node where nobody may have a connection as a user, but anybody as no user. -/
def anonymous : Registry :=
  (create "a" ⟨2, 0⟩ (saltOf 7)).run [.register ⟨none, some "t", ["x", "x"]⟩ default 1]

/-- A user is refused where users have no slots at all, and leaves no entry behind. -/
theorem admits_register_anonymous :
    anonymous.Reachable ∧ Admits anonymous ⟨some "u", some "t", ["y", "x", "y"]⟩ default 1 ∧
      (anonymous.register ⟨some "u", some "t", ["y", "x", "y"]⟩ default 1).2 =
        .error (.user "u" 0 0) ∧
      (anonymous.register ⟨some "u", some "t", ["y", "x", "y"]⟩ default 1).1.users = ∅ := by
  have hids : (create "a" ⟨2, 0⟩ (saltOf 7)).handedOut
      [.register ⟨none, some "t", ["x", "x"]⟩ default 1] ≤ 2 ^ 64 :=
    Nat.le_trans (handedOut_le_length _ _) (by decide)
  have hr : anonymous.Reachable := ⟨"a", ⟨2, 0⟩, saltOf 7, _, hids, rfl⟩
  have hadmits := admits_register hr ⟨some "u", some "t", ["y", "x", "y"]⟩ default 1
  have hcrowded := hadmits.crowded (by decide) "u" rfl (Nat.zero_le _)
  refine ⟨hr, hadmits, ?_, ?_⟩
  · rw [hcrowded]
    rfl
  · rw [hcrowded]
    rfl

end Registry

end PushMesh
