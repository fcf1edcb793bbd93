import PushMesh.Proofs.Registry.Perform
import PushMesh.Stream.Basic

/-!
# Runs of a registry

`Action` lists everything that can be done to a registry, by its own operations, by whoever holds a
connection and by the streams that serve connections. Apart from a registration, an action only
replaces connections by twins, unregisters some and counts messages (`revised_act`), so an invariant
of a registry needs one proof for each of these and one for registration.
-/

namespace PushMesh

namespace Connection

/-- What the holders of the two ends of a connection can do with it. -/
inductive Use where
  | send (m : Message)
  | close
  | takeCloseSignal
  | receive
  | receiveAll
  | dropReceiver

/-- The connection after a use. -/
def use (c : Connection) : Use → Connection
  | .send m => (c.trySend m).1
  | .close => c.close
  | .takeCloseSignal => c.takeCloseSignal.1
  | .receive => c.receive.1
  | .receiveAll => c.receiveAll.1
  | .dropReceiver => c.dropReceiver

/-- A message that is taken leaves a twin. -/
theorem twins_receive (c : Connection) : c.receive.1.Twins c := by
  unfold receive
  split <;> exact ⟨rfl, rfl, rfl, rfl⟩

/-- So do all of them. -/
theorem twins_receiveAll (c : Connection) : c.receiveAll.1.Twins c := ⟨rfl, rfl, rfl, rfl⟩

/-- A connection that has lost its receiving end is a twin of what it was. -/
theorem twins_dropReceiver (c : Connection) : c.dropReceiver.Twins c := ⟨rfl, rfl, rfl, rfl⟩

/-- Whatever its holders do, a connection stays the one that it is. -/
theorem twins_use (c : Connection) (u : Use) : (c.use u).Twins c := by
  cases u with
  | send m => exact c.twins_trySend m
  | close => exact c.twins_close
  | takeCloseSignal => exact ⟨rfl, rfl, rfl, rfl⟩
  | receive => exact c.twins_receive
  | receiveAll => exact c.twins_receiveAll
  | dropReceiver => exact c.twins_dropReceiver

end Connection

namespace Registry

/-- Something that is done to a registry. -/
inductive Action where
  | register (owner : Owner) (connectedAt : Instant) (capacity : Nat)
  | unregister (id : ConnectionId)
  /-- An operation is run, and refused where its check fails. -/
  | execute (op : Operation)
  | sweep
  | closeAll
  /-- A connection is used by one who holds it, registered or not. -/
  | use (id : ConnectionId) (u : Connection.Use)
  /-- A stream reads what is ready, and cleans up if it ends. -/
  | readStream (s : Stream) (now : Nat)
  /-- The client of a stream goes away. -/
  | dropStream (s : Stream)

/-- The registry after an action. -/
def act (r : Registry) : Action → Registry
  | .register owner connectedAt capacity => (r.register owner connectedAt capacity).1
  | .unregister id => (r.unregister id).1
  | .execute op => (r.respond op).1
  | .sweep => r.sweep.1
  | .closeAll => r.closeAll.1
  | .use id u =>
    match r.handle? id with
    | none => r
    | some c => r.put (c.use u)
  | .readStream s now => (s.read r now).registry
  | .dropStream s => (s.drop r).2.1

/-- The registry after several actions. -/
def run (r : Registry) (actions : List Action) : Registry :=
  actions.foldl act r

/-- The number of ids that an action hands out: a registration takes one unless all slots of the node
are in use. -/
def handsOut (r : Registry) : Action → Nat
  | .register .. => if r.active < r.limits.connections then 1 else 0
  | _ => 0

/-- The number of ids that several actions hand out. -/
def handedOut : Registry → List Action → Nat
  | _, [] => 0
  | r, a :: actions => r.handsOut a + handedOut (r.act a) actions

/-- No action hands out more than one id. -/
theorem handsOut_le_one (r : Registry) (a : Action) : r.handsOut a ≤ 1 := by
  unfold handsOut
  split
  · split <;> decide
  · exact Nat.zero_le _

/-- A run hands out at most one id for each of its actions. -/
theorem handedOut_le_length (r : Registry) (actions : List Action) :
    r.handedOut actions ≤ actions.length := by
  induction actions generalizing r with
  | nil => exact Nat.le_refl _
  | cons a actions ih =>
    have hone := r.handsOut_le_one a
    have := ih (r.act a)
    rw [handedOut, List.length_cons]
    omega

/-- Two runs, one after the other, hand out the ids of both. -/
theorem handedOut_append (r : Registry) (actions actions' : List Action) :
    r.handedOut (actions ++ actions') = r.handedOut actions + (r.run actions).handedOut actions' := by
  induction actions generalizing r with
  | nil => exact (Nat.zero_add _).symm
  | cons a actions ih =>
    show r.handsOut a + (r.act a).handedOut (actions ++ actions') = _
    rw [ih, ← Nat.add_assoc]
    rfl

/-- Going on with a run hands out no fewer ids. -/
theorem handedOut_le_append (r : Registry) (actions actions' : List Action) :
    r.handedOut actions ≤ r.handedOut (actions ++ actions') := by
  rw [handedOut_append]
  exact Nat.le_add_right _ _

/-- A run can be taken up where it stopped. -/
theorem run_append (r : Registry) (actions actions' : List Action) :
    r.run (actions ++ actions') = (r.run actions).run actions' := List.foldl_append

/-- Who has left is still held by those who hold it. -/
theorem handle?_unregister (r : Registry) (id id' : ConnectionId) :
    (r.unregister id).1.handle? id' = r.handle? id' := by
  unfold unregister
  cases r.get? id <;> rfl

/-! ## What happens between registrations -/

/-- A registry in which connections were replaced by twins, unregistered, and counted as served. -/
inductive Revised (r : Registry) : Registry → Prop where
  | refl : Revised r r
  | put {s : Registry} {c d : Connection} (hs : Revised r s) (hc : s.handle? c.id = some c)
      (hd : d.Twins c) : Revised r (s.put d)
  | unregister {s : Registry} (hs : Revised r s) (id : ConnectionId) :
      Revised r (s.unregister id).1
  | meter {s : Registry} (hs : Revised r s) (n : Nat) : Revised r { s with delivered := n }

namespace Revised

variable {r s t : Registry}

/-- Revisions add up: by induction on the second one. -/
theorem trans (hs : Revised r s) (ht : Revised s t) : Revised r t := by
  induction ht with
  | refl => exact hs
  | put _ hc hd ih => exact ih.put hc hd
  | unregister _ id ih => exact ih.unregister id
  | meter _ n ih => exact ih.meter n

/-- A revision keeps what is known of connections in agreement. -/
theorem aligned (hs : Revised r s) (h : r.Aligned) : s.Aligned := by
  induction hs with
  | refl => exact h
  | put _ hc hd ih => exact ih.put hc hd
  | unregister _ id ih => exact ih.unregister id
  | meter _ n ih =>
    exact ⟨⟨ih.keyed, ih.pooled⟩, ih.indexed, ih.tight, ih.active_eq, ih.active_le, ih.perUser_le⟩

/-- A revision keeps what is stored in order. -/
theorem stored (hs : Revised r s) (h : r.Stored) : s.Stored := by
  induction hs with
  | refl => exact h
  | put _ _ _ ih => exact ih.put _
  | unregister _ id ih => exact ih.unregister id
  | meter _ n ih => exact ⟨ih.keyed, ih.pooled⟩

/-- What is never revised. -/
theorem fixed (hs : Revised r s) :
    s.nodeId = r.nodeId ∧ s.limits = r.limits ∧ s.lastId = r.lastId := by
  induction hs with
  | refl => exact ⟨rfl, rfl, rfl⟩
  | put _ _ _ ih => exact ih
  | @unregister s _ id ih =>
    have hkeep : (s.unregister id).1.nodeId = s.nodeId ∧ (s.unregister id).1.limits = s.limits ∧
        (s.unregister id).1.lastId = s.lastId := by
      unfold Registry.unregister
      cases s.get? id <;> exact ⟨rfl, rfl, rfl⟩
    exact ⟨hkeep.1.trans ih.1, hkeep.2.1.trans ih.2.1, hkeep.2.2.trans ih.2.2⟩
  | meter _ _ ih => exact ih

/-- No connection is accepted in a revision. -/
theorem handle?_of_handle? (hs : Revised r s) {id : ConnectionId} {c : Connection}
    (hc : s.handle? id = some c) : ∃ d, r.handle? id = some d := by
  induction hs generalizing c with
  | refl => exact ⟨c, hc⟩
  | @put s d e _ hd he ih =>
    rw [handle?_put, he.id] at hc
    split at hc
    · next hid => exact ih (hid.symm ▸ hd)
    · exact ih hc
  | @unregister s _ id' ih =>
    rw [handle?_unregister] at hc
    exact ih hc
  | meter _ _ ih => exact ih hc

/-- A revision keeps a registry consistent, since no connection is accepted in it. -/
theorem consistent (hs : Revised r s) (h : r.Consistent) : s.Consistent := by
  refine ⟨hs.aligned h.toAligned, fun id c hc => ?_⟩
  obtain ⟨d, hd⟩ := hs.handle?_of_handle? hc
  rw [hs.fixed.2.2]
  exact h.le_lastId id d hd

end Revised

/-- Offering a message replaces the connection by a twin. -/
theorem revised_sendOne {r : Registry} (hr : r.Stored) (id : ConnectionId) (m : Message) :
    Revised r (r.sendOne id m).1 := by
  unfold sendOne
  cases hc : r.get? id with
  | none => exact .refl
  | some c =>
    exact Revised.refl.put (hr.handle?_id (get?_eq_some_iff.1 hc).2) (c.twins_trySend m)

/-- Closing a connection takes it out and replaces it by a twin. -/
theorem revised_closeOne {r : Registry} (hr : r.Stored) (id : ConnectionId) :
    Revised r (r.closeOne id).1 := by
  cases hc : r.get? id with
  | none =>
    rw [closeOne_none hc]
    exact .refl
  | some c =>
    rw [closeOne_some hc]
    refine (Revised.refl.unregister id).put ?_ c.twins_close
    rw [handle?_unregister]
    exact hr.handle?_id (get?_eq_some_iff.1 hc).2

/-- A loop whose rounds revise a registry revises it. -/
theorem revised_each {step : Registry → ConnectionId → Registry × Bool}
    (hstep : ∀ r id, r.Stored → Revised r (step r id).1) {r : Registry} (hr : r.Stored)
    (ids : List ConnectionId) : Revised r (each step r ids).1 :=
  each_induction (P := fun s => Revised r s)
    (fun s id hs => hs.trans (hstep s id (hs.stored hr))) r ids .refl

/-- Closing several connections is a revision. -/
theorem revised_closeIds {r : Registry} (hr : r.Stored) (ids : List ConnectionId) :
    Revised r (r.closeIds ids).1 := by
  rw [closeIds_eq]
  exact revised_each (fun _ id hs => revised_closeOne hs id) hr ids

/-- Sending to several connections is a revision, with the messages counted at the end. -/
theorem revised_deliver {r : Registry} (hr : r.Stored) (ids : Ascending ConnectionId)
    (m : Message) : Revised r (r.deliver ids m).1 := by
  rw [deliver_eq]
  exact (revised_each (fun _ id hs => revised_sendOne hs id m) hr ids.toList).meter _

/-- Every operation is a revision, and those that only look change nothing. -/
theorem revised_perform {r : Registry} (hr : r.Stored) (op : Operation) :
    Revised r (r.perform op).1 := by
  cases op with
  | send audience m => exact revised_deliver hr (r.audience audience) m
  | disconnect closing => exact revised_closeIds hr (r.closing closing).toList
  | query _ _ | queryAll | listKeys _ | count => exact .refl

/-- An operation that is refused does not change anything either. -/
theorem revised_respond {r : Registry} (hr : r.Stored) (op : Operation) :
    Revised r (r.respond op).1 := by
  rw [fst_respond]
  split
  · exact revised_perform hr op
  · exact .refl

/-! ## Streams -/

/-- A stream cleans up by dropping its receiving end and closing its connection. -/
theorem revised_cleanUp {r : Registry} (hr : r.Stored) (s : Stream) : Revised r (s.cleanUp r) := by
  unfold Stream.cleanUp
  cases hc : r.handle? s.connection with
  | none => exact revised_closeOne hr s.connection
  | some c =>
    have hdrop : Revised r (r.put c.dropReceiver) :=
      Revised.refl.put (hr.handle?_id hc) c.twins_dropReceiver
    exact hdrop.trans (revised_closeOne (hdrop.stored hr) s.connection)

/-- A stream takes messages or the signal to close, and leaves a twin. -/
theorem revised_takeMessages {r : Registry} (hr : r.Stored) (s : Stream) :
    Revised r (s.takeMessages r).1 := by
  unfold Stream.takeMessages
  cases hc : r.handle? s.connection with
  | none => exact .refl
  | some c =>
    dsimp only
    split
    · exact Revised.refl.put (hr.handle?_id hc) c.twins_receiveAll
    · split
      · exact .refl
      · exact Revised.refl.put (hr.handle?_id hc) (c.twins_use .takeCloseSignal)

/-- A read takes what is there, and cleans up if that is the end. -/
theorem revised_read {r : Registry} (hr : r.Stored) (s : Stream) (now : Nat) :
    Revised r (s.read r now).registry := by
  have htake := revised_takeMessages hr s
  unfold Stream.read
  split
  · exact .refl
  · dsimp only
    split
    · next heq =>
      rw [heq] at htake
      exact htake.trans (revised_cleanUp (htake.stored hr) s)
    · next heq =>
      rw [heq] at htake
      split
      · exact htake
      · split <;> exact htake

/-- The end of a stream is a revision unless it was over before. -/
theorem revised_drop {r : Registry} (hr : r.Stored) (s : Stream) :
    Revised r (s.drop r).2.1 := by
  unfold Stream.drop
  split
  · exact .refl
  · exact revised_cleanUp hr s

/-! ## What an action does -/

/-- Whether an action asks for a new connection. -/
def Action.isRegister : Action → Bool
  | .register .. => true
  | _ => false

/-- Everything but a registration revises a registry. -/
theorem revised_act {r : Registry} (hr : r.Stored) {a : Action} (ha : a.isRegister = false) :
    Revised r (r.act a) := by
  cases a with
  | register => simp [Action.isRegister] at ha
  | unregister id => exact Revised.refl.unregister id
  | execute op => exact revised_respond hr op
  | sweep => exact revised_closeIds hr _
  | closeAll => exact revised_closeIds hr _
  | use id u =>
    simp only [act]
    cases hc : r.handle? id with
    | none => exact .refl
    | some c => exact Revised.refl.put (hr.handle?_id hc) (c.twins_use u)
  | readStream s now => exact revised_read hr s now
  | dropStream s => exact revised_drop hr s

/-! ## What a run keeps -/

/-- Registering stores nothing, or one connection under its own id. -/
theorem register_stores (r : Registry) (owner : Owner) (connectedAt : Instant) (capacity : Nat) :
    let s := (r.register owner connectedAt capacity).1
    (s.registered = r.registered ∧ s.pool = r.pool) ∨
      ∃ c : Connection, s.registered = r.registered.insert c.id ∧ s.pool = r.pool.insert c.id c := by
  intro s
  rcases r.register_outcomes owner connectedAt capacity with
    ⟨-, heq⟩ | ⟨-, user, -, -, heq⟩ | ⟨-, -, heq⟩
  · simp only [s, heq]
    exact .inl ⟨trivial, trivial⟩
  · simp only [s, heq]
    exact .inl ⟨trivial, trivial⟩
  · simp only [s, heq]
    exact .inr ⟨_, rfl, rfl⟩

/-- What a registration stores is stored under its own id. -/
theorem Stored.register {r : Registry} (h : r.Stored) (owner : Owner) (connectedAt : Instant)
    (capacity : Nat) : (r.register owner connectedAt capacity).1.Stored := by
  rcases r.register_stores owner connectedAt capacity with ⟨hreg, hpool⟩ | ⟨c, hreg, hpool⟩
  · constructor
    · intro id c hc
      rw [handle?, hpool] at hc
      exact h.keyed id c hc
    · intro id hid
      rw [hreg] at hid
      rw [handle?, hpool]
      exact h.pooled id hid
  · have henter := h.enter c
    constructor
    · intro id d hd
      rw [handle?, hpool] at hd
      exact henter.keyed id d hd
    · intro id hid
      rw [hreg] at hid
      rw [handle?, hpool]
      exact henter.pooled id hid

/-- Whatever is done to a registry, what it stores stays in order. -/
theorem Stored.act {r : Registry} (h : r.Stored) (a : Action) : (r.act a).Stored := by
  cases ha : a.isRegister with
  | false => exact (revised_act h ha).stored h
  | true =>
    cases a with
    | register owner connectedAt capacity => exact h.register owner connectedAt capacity
    | _ => cases ha

/-- What is stored stays in order in every run. -/
theorem stored_run (nodeId : String) (limits : Limits) (salt : ConnectionId)
    (actions : List Action) : ((create nodeId limits salt).run actions).Stored := by
  have hrun : ∀ r : Registry, r.Stored → (r.run actions).Stored := by
    induction actions with
    | nil => exact fun r hr => hr
    | cons a actions ih => exact fun r hr => ih (r.act a) (hr.act a)
  exact hrun _ (consistent_create nodeId limits salt).toStored

/-- The id that the ids of a registry start after: any upper half, above a counter. -/
def saltOf (half : UInt32) : ConnectionId := half.toUInt64 <<< 32

/-- A salt is a multiple of 2³². -/
theorem toNat_saltOf (half : UInt32) : (saltOf half).toNat = half.toNat * 2 ^ 32 := by
  have hlt := half.toNat_lt
  have hshift : (saltOf half).toNat = half.toNat <<< 32 % 2 ^ 64 := by
    simp [saltOf]
  rw [hshift, Nat.shiftLeft_eq]
  omega

/-- A registry that is in order, whose name and limits stand, and that has handed out `n` ids since
it started from `salt`. -/
structure Counted (nodeId : String) (limits : Limits) (salt : ConnectionId) (n : Nat)
    (r : Registry) : Prop where
  consistent : r.Consistent
  nodeId_eq : r.nodeId = nodeId
  limits_eq : r.limits = limits
  lastId_eq : r.lastId.toNat = salt.toNat + n
  /-- Every id is above the one that the ids start after. -/
  salt_lt : ∀ id c, r.handle? id = some c → salt < id

variable {nodeId : String} {limits : Limits} {salt : ConnectionId} {n : Nat} {r : Registry}

/-- A registry starts at its salt, with nothing handed out. -/
theorem counted_create (nodeId : String) (limits : Limits) (salt : ConnectionId) :
    Counted nodeId limits salt 0 (create nodeId limits salt) :=
  ⟨consistent_create nodeId limits salt, rfl, rfl, rfl, by
    intro id c hc
    simp [create, handle?] at hc⟩

/-- While the counter of ids does not overflow, the next id is greater. -/
theorem Counted.toNat_lastId_add_one (h : Counted nodeId limits salt n r)
    (hn : salt.toNat + (n + 1) < 2 ^ 64) : (r.lastId + 1).toNat = r.lastId.toNat + 1 := by
  have hlast := h.lastId_eq
  rw [UInt64.toNat_add]
  exact Nat.mod_eq_of_lt (by change r.lastId.toNat + 1 < 2 ^ 64; omega)

/-- A registration counts its id, if it hands one out: case by case. -/
theorem Counted.register (h : Counted nodeId limits salt n r) (owner : Owner)
    (connectedAt : Instant) (capacity : Nat)
    (hn : salt.toNat + (n + if r.active < r.limits.connections then 1 else 0) < 2 ^ 64) :
    Counted nodeId limits salt (n + if r.active < r.limits.connections then 1 else 0)
      (r.register owner connectedAt capacity).1 := by
  -- the next id does not wrap
  have hnext : r.active < r.limits.connections → (r.lastId + 1).toNat = r.lastId.toNat + 1 := by
    intro hroom
    rw [if_pos hroom] at hn
    exact h.toNat_lastId_add_one hn
  have hconsistent : (r.register owner connectedAt capacity).1.Consistent := by
    refine h.consistent.register owner connectedAt capacity fun hroom => ?_
    rw [UInt64.lt_iff_toNat_lt, hnext hroom]
    exact Nat.lt_succ_self _
  have hlast := h.lastId_eq
  rcases register_cases (h.consistent.tight .user) owner connectedAt capacity with
    ⟨hfull, heq⟩ | ⟨hroom, user, -, -, heq⟩ | ⟨hroom, -, heq⟩
  · rw [if_neg (Nat.not_lt.2 hfull)]
    exact ⟨hconsistent, heq ▸ h.nodeId_eq, heq ▸ h.limits_eq, heq ▸ hlast, heq ▸ h.salt_lt⟩
  · have hcount : (r.lastId + 1).toNat = salt.toNat + (n + 1) := by
      rw [hnext hroom, hlast, Nat.add_assoc]
    rw [if_pos hroom]
    exact ⟨hconsistent, heq ▸ h.nodeId_eq, heq ▸ h.limits_eq, heq ▸ hcount, heq ▸ h.salt_lt⟩
  · have hcount : (r.lastId + 1).toNat = salt.toNat + (n + 1) := by
      rw [hnext hroom, hlast, Nat.add_assoc]
    rw [if_pos hroom]
    refine ⟨hconsistent, heq ▸ h.nodeId_eq, heq ▸ h.limits_eq, heq ▸ hcount, ?_⟩
    rw [heq]
    intro id c hc
    rw [handle?_enter] at hc
    split at hc
    · next hid =>
      rw [hid, UInt64.lt_iff_toNat_lt]
      change _ < (r.lastId + 1).toNat
      omega
    · exact h.salt_lt id c hc

/-- What one action keeps. -/
theorem Counted.act (h : Counted nodeId limits salt n r) (a : Action)
    (hn : salt.toNat + (n + r.handsOut a) < 2 ^ 64) :
    Counted nodeId limits salt (n + r.handsOut a) (r.act a) := by
  -- everything but a registration revises what is stored and gives out no id
  have hrevised : a.isRegister = false → r.handsOut a = 0 →
      Counted nodeId limits salt (n + r.handsOut a) (r.act a) := by
    intro ha hzero
    have hrev := revised_act h.consistent.toStored ha
    obtain ⟨hnode, hlimits, hlast⟩ := hrev.fixed
    rw [hzero]
    refine ⟨hrev.consistent h.consistent, hnode.trans h.nodeId_eq, hlimits.trans h.limits_eq,
      hlast ▸ h.lastId_eq, ?_⟩
    intro id c hc
    obtain ⟨d, hd⟩ := hrev.handle?_of_handle? hc
    exact h.salt_lt id d hd
  cases a with
  | register owner connectedAt capacity => exact h.register owner connectedAt capacity hn
  | _ => exact hrevised rfl rfl

/-- What a run keeps: by induction on the actions, one step at a time. -/
theorem Counted.run (h : Counted nodeId limits salt n r) (actions : List Action)
    (hn : salt.toNat + (n + r.handedOut actions) < 2 ^ 64) :
    Counted nodeId limits salt (n + r.handedOut actions) (r.run actions) := by
  induction actions generalizing r n with
  | nil => exact h
  | cons a actions ih =>
    rw [handedOut, ← Nat.add_assoc n] at hn ⊢
    exact ih (h.act a (by omega)) hn

/-- A registry of a node that came about in any way in which its counter of ids did not overflow. -/
def Grown (nodeId : String) (r : Registry) : Prop :=
  ∃ limits salt actions,
    salt.toNat + (create nodeId limits salt).handedOut actions < 2 ^ 64 ∧
      r = (create nodeId limits salt).run actions

namespace Grown

/-- A registry that came about in some way has counted its ids. -/
theorem exists_counted (h : Grown nodeId r) : ∃ limits salt n, Counted nodeId limits salt n r := by
  obtain ⟨limits, salt, actions, hids, rfl⟩ := h
  exact ⟨limits, salt, _, (counted_create nodeId limits salt).run actions (by rwa [Nat.zero_add])⟩

/-- Such a registry is consistent. -/
theorem consistent (h : Grown nodeId r) : r.Consistent := by
  obtain ⟨limits, salt, n, hcounted⟩ := h.exists_counted
  exact hcounted.consistent

/-- Such a registry has the name that it was given. -/
theorem nodeId_eq (h : Grown nodeId r) : r.nodeId = nodeId := by
  obtain ⟨limits, salt, n, hcounted⟩ := h.exists_counted
  exact hcounted.nodeId_eq

/-- No connection has the id zero. -/
theorem ne_zero (h : Grown nodeId r) {id : ConnectionId} (hid : id ∈ r.registered) : id ≠ 0 := by
  obtain ⟨limits, salt, n, hcounted⟩ := h.exists_counted
  obtain ⟨c, hc⟩ := hcounted.consistent.pooled id hid
  have hlt := hcounted.salt_lt id c hc
  rintro rfl
  exact absurd hlt (Nat.not_lt_zero _)

end Grown

end Registry

end PushMesh
