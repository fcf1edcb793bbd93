import PushMesh.Proofs.Registry.Consistent

/-!
# Sending and closing, connection by connection

A send offers its message to one connection after the other, a disconnect closes one after the
other, and both count how often they succeed. `each` is the loop that they share, and `Touches` says
what one round does to a registry: something to one connection, nothing to any other. `each` then
does to every listed connection what one round would do to it alone (`handle?_each`), and its count
is the number of connections that pass the test of a single round (`count_each`).
-/

namespace PushMesh

namespace Connection

/-- Whether a message that is offered now is accepted. -/
def accepts (c : Connection) : Bool :=
  c.isOpen && c.hasReceiver && decide (c.queue.length < c.capacity)

/-- An offer is answered with whether the message is accepted. -/
theorem snd_trySend (c : Connection) (m : Message) : (c.trySend m).2 = c.accepts := by
  unfold trySend accepts
  cases c.isOpen <;> cases c.hasReceiver <;> simp
  split <;> simp_all

/-- An offer queues the message where it is accepted, and never touches the queue elsewhere. -/
theorem queue_trySend (c : Connection) (m : Message) :
    (c.trySend m).1.queue = if c.accepts then c.queue ++ [m] else c.queue := by
  unfold trySend accepts
  cases c.isOpen <;> cases c.hasReceiver <;> simp
  split <;> rfl

end Connection

namespace Registry

/-- Runs a step for one id after the other, and counts how often it succeeds. -/
def each (step : Registry → ConnectionId → Registry × Bool) :
    Registry → List ConnectionId → Registry × Nat
  | r, [] => (r, 0)
  | r, id :: ids =>
    let (r, done) := step r id
    let (r, n) := each step r ids
    (r, if done then n + 1 else n)

/-- The loop of the definitions, which carries the count along, is `each`. -/
theorem foldl_eq_each (step : Registry → ConnectionId → Registry × Bool) (ids : List ConnectionId)
    (r : Registry) (k : Nat) :
    ids.foldl (fun (r, n) id =>
      let (r, done) := step r id
      (r, if done then n + 1 else n)) (r, k) =
      ((each step r ids).1, k + (each step r ids).2) := by
  induction ids generalizing r k with
  | nil => rfl
  | cons id ids ih =>
    -- the count that is carried along comes first, and that of the first round next to last
    rw [List.foldl_cons, ih, each]
    refine Prod.ext rfl ?_
    dsimp only
    cases (step r id).2 with
    | false => rfl
    | true => exact Nat.add_right_comm k 1 _

/-- Closing several connections is the loop. -/
theorem closeIds_eq (r : Registry) (ids : List ConnectionId) :
    r.closeIds ids = each closeOne r ids := by
  rw [closeIds, foldl_eq_each, Nat.zero_add]

/-- Sending to several connections is the loop, and then the count is added to the counter. -/
theorem deliver_eq (r : Registry) (ids : Ascending ConnectionId) (m : Message) :
    r.deliver ids m =
      ({ (each (·.sendOne · m) r ids.toList).1 with
          delivered := (each (·.sendOne · m) r ids.toList).1.delivered +
            (each (·.sendOne · m) r ids.toList).2 },
        (each (·.sendOne · m) r ids.toList).2) := by
  have h := foldl_eq_each (·.sendOne · m) ids.toList r 0
  rw [Nat.zero_add] at h
  rw [deliver, h]

/-- What every round keeps, the loop keeps. -/
theorem each_induction {step : Registry → ConnectionId → Registry × Bool} {P : Registry → Prop}
    (hstep : ∀ r id, P r → P (step r id).1) (r : Registry) (ids : List ConnectionId) (h : P r) :
    P (each step r ids).1 := by
  induction ids generalizing r with
  | nil => exact h
  | cons id ids ih => exact ih _ (hstep r id h)

/-! ## What one round does -/

/-- One round changes one connection, if it is registered, by `effect`, succeeds if that passes
`test`, and keeps it registered if `stays` holds. -/
structure Touches (step : Registry → ConnectionId → Registry × Bool) (test : Connection → Bool)
    (effect : Connection → Connection) (stays : Bool) : Prop where
  stored : ∀ r id, r.Stored → (step r id).1.Stored
  done : ∀ r id, (step r id).2 = (r.get? id).any test
  handle : ∀ r id id', r.Stored → (step r id).1.handle? id' =
    if id' = id then ((r.get? id).map effect).or (r.handle? id) else r.handle? id'
  registered : ∀ r id id', r.Stored →
    (id' ∈ (step r id).1.registered ↔ id' ∈ r.registered ∧ (stays = true ∨ id' ≠ id))

/-- One round of a send offers the message to one registered connection. -/
theorem touches_sendOne (m : Message) :
    Touches (·.sendOne · m) Connection.accepts (fun c => (c.trySend m).1) true where
  stored r id h := by
    dsimp only [sendOne]
    cases r.get? id with
    | none => exact h
    | some c => exact h.put _
  done r id := by
    dsimp only [sendOne]
    cases r.get? id with
    | none => rfl
    | some c => simp [Connection.snd_trySend]
  handle r id id' h := by
    dsimp only [sendOne]
    cases hc : r.get? id with
    | none => by_cases hid : id' = id <;> simp [hid]
    | some c =>
      have hid : (c.trySend m).1.id = id := by
        rw [(c.twins_trySend m).id]
        exact h.keyed id c (get?_eq_some_iff.1 hc).2
      simp [hid]
  registered r id id' _ := by
    dsimp only [sendOne]
    cases r.get? id <;> simp

/-- A connection that is not registered is not closed. -/
theorem closeOne_none {r : Registry} {id : ConnectionId} (h : r.get? id = none) :
    r.closeOne id = (r, false) := by
  simp only [closeOne, unregister, h]

/-- A connection that is registered leaves and is closed. -/
theorem closeOne_some {r : Registry} {id : ConnectionId} {c : Connection} (h : r.get? id = some c) :
    r.closeOne id = ((r.unregister id).1.put c.close, true) := by
  simp only [closeOne, unregister, h]

/-- One round of a disconnect closes one registered connection, which leaves. -/
theorem touches_closeOne : Touches closeOne (fun _ => true) Connection.close false where
  stored r id h := by
    cases hc : r.get? id with
    | none => rwa [closeOne_none hc]
    | some c =>
      rw [closeOne_some hc]
      exact (h.unregister id).put _
  done r id := by
    cases hc : r.get? id with
    | none => rw [closeOne_none hc]; rfl
    | some c => rw [closeOne_some hc]; rfl
  handle r id id' h := by
    cases hc : r.get? id with
    | none => by_cases hid : id' = id <;> simp [closeOne_none hc, hid]
    | some c =>
      have hid : c.close.id = id := h.keyed id c (get?_eq_some_iff.1 hc).2
      have hpool : (r.unregister id).1.handle? id' = r.handle? id' := by
        rw [unregister, hc]
        rfl
      simp [closeOne_some hc, hid, hpool]
  registered r id id' h := by
    cases hc : r.get? id with
    | none =>
      rw [closeOne_none hc]
      simp only [Bool.false_eq_true, false_or, iff_self_and]
      rintro hreg rfl
      obtain ⟨c, hc'⟩ := h.get? hreg
      rw [hc] at hc'
      cases hc'
    | some c =>
      rw [closeOne_some hc, registered_put, unregister, hc]
      simp

/-! ## What the loop does -/

section

variable {step : Registry → ConnectionId → Registry × Bool} {test : Connection → Bool}
  {effect : Connection → Connection} {stays : Bool}

/-- A round leaves the other connections as they are. -/
theorem Touches.get?_of_ne (h : Touches step test effect stays) {r : Registry} (hr : r.Stored)
    {id id' : ConnectionId} (hne : id' ≠ id) : (step r id).1.get? id' = r.get? id' := by
  ext c
  rw [get?_eq_some_iff, get?_eq_some_iff, h.registered r id id' hr, h.handle r id id' hr]
  simp [hne]

/-- The count is the number of connections that pass the test at the start. -/
theorem count_each (h : Touches step test effect stays) {r : Registry} (hr : r.Stored)
    {ids : List ConnectionId} (hids : ids.Nodup) :
    (each step r ids).2 = ids.countP fun id => (r.get? id).any test := by
  induction ids generalizing r with
  | nil => rfl
  | cons id ids ih =>
    obtain ⟨hnew, hids⟩ := List.nodup_cons.1 hids
    rw [each]
    dsimp only
    rw [ih (h.stored r id hr) hids, h.done, List.countP_cons]
    -- the connections behind the first are as they were before its round
    have hrest : (ids.countP fun id' => ((step r id).1.get? id').any test) =
        ids.countP fun id' => (r.get? id').any test := by
      refine List.countP_congr fun id' hid' => ?_
      have hne : id' ≠ id := by
        rintro rfl
        exact hnew hid'
      rw [h.get?_of_ne hr hne]
    rw [hrest]
    split <;> rfl

/-- Every listed connection that is registered is changed once, and no other. -/
theorem handle?_each (h : Touches step test effect stays) {r : Registry} (hr : r.Stored)
    {ids : List ConnectionId} (hids : ids.Nodup) (id' : ConnectionId) :
    (each step r ids).1.handle? id' =
      if id' ∈ ids then ((r.get? id').map effect).or (r.handle? id') else r.handle? id' := by
  induction ids generalizing r with
  | nil => rfl
  | cons id ids ih =>
    obtain ⟨hnew, hids⟩ := List.nodup_cons.1 hids
    rw [each]
    dsimp only
    rw [ih (h.stored r id hr) hids, h.handle r id id' hr]
    -- the first connection is not met again, and any other one is as it was
    by_cases hid : id' = id
    · subst hid
      simp [hnew]
    · simp [hid, h.get?_of_ne hr hid]

/-- Whether the listed connections stay registered depends on the step; no other is touched. -/
theorem registered_each (h : Touches step test effect stays) {r : Registry} (hr : r.Stored)
    (ids : List ConnectionId) (id' : ConnectionId) :
    id' ∈ (each step r ids).1.registered ↔ id' ∈ r.registered ∧ (stays = true ∨ id' ∉ ids) := by
  induction ids generalizing r with
  | nil => simp [each]
  | cons id ids ih =>
    rw [each]
    dsimp only
    rw [ih (h.stored r id hr), h.registered r id id' hr, List.mem_cons]
    tauto

/-- What adds up from round to round, one for each success, comes to the count in the end. -/
theorem each_moves (h : Touches step test effect stays) (moves : Registry → Registry → Nat → Prop)
    (hrefl : ∀ r, moves r r 0)
    (htrans : ∀ {r s t k n}, moves r s k → moves s t n → moves r t (k + n))
    (hstep : ∀ r id, r.Stored → moves r (step r id).1 (if (step r id).2 then 1 else 0))
    {r : Registry} (hr : r.Stored) (ids : List ConnectionId) :
    moves r (each step r ids).1 (each step r ids).2 := by
  induction ids generalizing r with
  | nil => exact hrefl r
  | cons id ids ih =>
    rw [each]
    dsimp only
    have hboth := htrans (hstep r id hr) (ih (h.stored r id hr))
    cases hdone : (step r id).2 with
    | false => simpa [hdone] using hboth
    | true => simpa [hdone, Nat.add_comm] using hboth

end

end Registry

end PushMesh
