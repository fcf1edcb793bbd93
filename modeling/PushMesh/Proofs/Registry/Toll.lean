import PushMesh.Proofs.Registry.Run

/-!
# What a send or a disconnect does, in numbers

A send answers with the number of messages that it queued, a disconnect with the number of
connections that it closed. `Operation.Moves` is that number as a fact about the registry before and
after, and `perform_moves` says that the answer tells it. No connection is sent more than one message
by one operation (`waiting_perform_le`).
-/

namespace PushMesh

namespace Registry

/-- The number of messages that wait on the connections of a registry. -/
def queued (r : Registry) : Nat :=
  (r.pool.values.map fun c => c.queue.length).sum

/-- The number of messages that wait on one connection. -/
def waiting (r : Registry) (id : ConnectionId) : Nat :=
  (r.handle? id).elim 0 fun c => c.queue.length

end Registry

/-- Whether an operation takes a registry to another by queueing or by closing `n`. -/
def Operation.Moves (op : Operation) (r s : Registry) (n : Nat) : Prop :=
  match op with
  | .send .. => s.queued = r.queued + n
  | .disconnect _ => r.count = s.count + n
  | _ => n = 0

/-- Whether an operation sends or disconnects. -/
def Operation.isEffect : Operation → Bool
  | .send .. => true
  | .disconnect _ => true
  | _ => false

namespace Registry

variable {r s : Registry}

/-! ## One connection -/

/-- Replacing a connection moves the number of waiting messages by the difference. -/
theorem queued_put {c d : Connection} (hd : r.handle? c.id = some d) :
    (r.put c).queued + d.queue.length = r.queued + c.queue.length :=
  Table.sum_values_insert (fun c : Connection => c.queue.length) hd

/-- A message that is accepted is one more that waits. -/
theorem queued_sendOne (r : Registry) (id : ConnectionId) (m : Message) (hr : r.Stored) :
    (r.sendOne id m).1.queued = r.queued + if (r.sendOne id m).2 then 1 else 0 := by
  unfold sendOne
  cases hc : r.get? id with
  | none => rfl
  | some c =>
    dsimp only
    have hid : (c.trySend m).1.id = c.id := (c.twins_trySend m).id
    have hpool := hr.handle?_id (get?_eq_some_iff.1 hc).2
    have hput := queued_put (r := r) (c := (c.trySend m).1) (d := c) (hid ▸ hpool)
    rw [c.queue_trySend] at hput
    rw [c.snd_trySend]
    split
    · next haccepts =>
      rw [if_pos haccepts, List.length_append, List.length_singleton] at hput
      omega
    · next haccepts =>
      rw [if_neg haccepts] at hput
      omega

/-- A connection that is closed is one less that is registered. -/
theorem count_closeOne (r : Registry) (id : ConnectionId) :
    r.count = (r.closeOne id).1.count + if (r.closeOne id).2 then 1 else 0 := by
  cases hc : r.get? id with
  | none => rw [closeOne_none hc]; rfl
  | some c =>
    have hsize := Ascending.size_erase (get?_eq_some_iff.1 hc).1
    have hafter : ((r.unregister id).1.put c.close).count = (r.registered.erase id).size := by
      rw [unregister, hc]
      rfl
    rw [closeOne_some hc, hafter, if_pos rfl, hsize, count]

/-! ## All connections -/

/-- As many messages more wait after a send as it has counted. -/
theorem queued_deliver (hr : r.Stored) (ids : Ascending ConnectionId) (m : Message) :
    (r.deliver ids m).1.queued = r.queued + (r.deliver ids m).2 := by
  rw [deliver_eq]
  exact each_moves (touches_sendOne m) (fun r s n => s.queued = r.queued + n)
    (fun _ => rfl) (fun hk hn => by omega) (fun r id hr => queued_sendOne r id m hr) hr ids.toList

/-- As many connections less are registered after a disconnect as it has counted. -/
theorem count_closeIds (hr : r.Stored) (ids : List ConnectionId) :
    r.count = (r.closeIds ids).1.count + (r.closeIds ids).2 := by
  rw [closeIds_eq]
  exact each_moves touches_closeOne (fun r s n => r.count = s.count + n)
    (fun _ => rfl) (fun hk hn => by omega) (fun r id _ => count_closeOne r id) hr ids

/-! ## Operations -/

/-- A send or a disconnect answers with the number that it moves. -/
theorem perform_moves (hr : r.Stored) {op : Operation} (hop : op.isEffect = true) :
    ∃ n, (r.perform op).2 = .count (UInt64.ofNat n) ∧ op.Moves r (r.perform op).1 n := by
  cases op with
  | send audience m => exact ⟨_, rfl, queued_deliver hr (r.audience audience) m⟩
  | disconnect closing => exact ⟨_, rfl, count_closeIds hr (r.closing closing).toList⟩
  | query _ _ | queryAll | listKeys _ | count => cases hop

/-! ## One message for each connection -/

/-- A send offers its message to the registered connections among those listed, once to each. -/
theorem handle?_deliver (hr : r.Stored) (ids : Ascending ConnectionId) (m : Message)
    (id : ConnectionId) :
    (r.deliver ids m).1.handle? id =
      if id ∈ ids.toList then ((r.get? id).map fun c => (c.trySend m).1).or (r.handle? id)
      else r.handle? id := by
  have heach := handle?_each (touches_sendOne m) hr ids.nodup id
  rw [deliver_eq]
  exact heach

/-- A disconnect closes the registered connections among those listed. -/
theorem handle?_closeIds (hr : r.Stored) (ids : Ascending ConnectionId) (id : ConnectionId) :
    (r.closeIds ids.toList).1.handle? id =
      if id ∈ ids.toList then ((r.get? id).map Connection.close).or (r.handle? id)
      else r.handle? id := by
  have heach := handle?_each touches_closeOne hr ids.nodup id
  rw [closeIds_eq]
  exact heach

/-- What is closed is registered no longer. -/
theorem registered_closeIds (hr : r.Stored) (ids : List ConnectionId) (id : ConnectionId) :
    id ∈ (r.closeIds ids).1.registered ↔ id ∈ r.registered ∧ id ∉ ids := by
  have heach := registered_each touches_closeOne hr ids id
  rw [closeIds_eq, heach]
  simp only [Bool.false_eq_true, false_or]

/-- An offer makes a queue longer by one at most. -/
theorem length_queue_trySend_le (c : Connection) (m : Message) :
    (c.trySend m).1.queue.length ≤ c.queue.length + 1 := by
  rw [c.queue_trySend]
  split
  · exact Nat.le_of_eq (List.length_append.trans (congrArg _ List.length_singleton))
  · exact Nat.le_succ _

/-- A change that queues at most one message on a registered connection. -/
theorem waiting_le_of_handle? {f : Connection → Connection}
    (hf : ∀ c, (f c).queue.length ≤ c.queue.length + 1) {id : ConnectionId}
    {ids : List ConnectionId}
    (h : s.handle? id = if id ∈ ids then ((r.get? id).map f).or (r.handle? id) else r.handle? id) :
    s.waiting id ≤ r.waiting id + 1 := by
  rw [waiting, waiting, h]
  split
  · cases hc : r.get? id with
    | none => exact Nat.le_succ _
    | some c =>
      rw [(get?_eq_some_iff.1 hc).2]
      exact hf c
  · exact Nat.le_succ _

/-- An operation sends at most one message to a connection. -/
theorem waiting_perform_le (hr : r.Stored) (op : Operation) (id : ConnectionId) :
    (r.perform op).1.waiting id ≤ r.waiting id + 1 := by
  cases op with
  | send audience m =>
    exact waiting_le_of_handle? (fun c => length_queue_trySend_le c m)
      (handle?_deliver hr (r.audience audience) m id)
  | disconnect closing =>
    exact waiting_le_of_handle? (f := Connection.close) (fun c => Nat.le_succ c.queue.length)
      (handle?_closeIds hr (r.closing closing) id)
  | query _ _ | queryAll | listKeys _ | count => exact Nat.le_succ _

end Registry

end PushMesh
