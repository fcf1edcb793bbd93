import PushMesh.Proofs.Mesh.Calls
import PushMesh.Proofs.Registry.Toll

/-!
# What calls do to connections, in numbers

The messages that wait on all hosts, the connections that all hosts hold, and the messages that wait
on one connection. A host that serves a send or a disconnect moves these numbers, and its reply tells
by how much (`serveAt_moves`).
-/

namespace PushMesh

/-- The number of messages that wait on the connections of all hosts. -/
def queuedOn (hosts : List Host) : Nat :=
  (hosts.map (·.registry.queued)).sum

/-- The number of connections that are registered on all hosts. -/
def heldOn (hosts : List Host) : Nat :=
  (hosts.map (·.registry.count)).sum

/-- The number of messages that wait on one connection of a node. -/
def waitingOn (hosts : List Host) (node : String) (id : ConnectionId) : Nat :=
  (hosts.find? (·.self.id == node)).elim 0 (·.registry.waiting id)

/-- The number of messages that one connection of a node got more. -/
def gainOn (hosts hosts' : List Host) (node : String) (id : ConnectionId) : Nat :=
  waitingOn hosts' node id - waitingOn hosts node id

/-- The number of messages that were queued, or of connections that were closed, between two
moments. -/
def Operation.moved (op : Operation) (hosts hosts' : List Host) : Nat :=
  match op with
  | .send .. => queuedOn hosts' - queuedOn hosts
  | .disconnect _ => heldOn hosts - heldOn hosts'
  | _ => 0

/-- Whether an operation takes hosts to others by queueing or by closing `n`. -/
def Operation.MovesAll (op : Operation) (hosts hosts' : List Host) (n : Nat) : Prop :=
  match op with
  | .send .. => queuedOn hosts' = queuedOn hosts + n
  | .disconnect _ => heldOn hosts = heldOn hosts' + n
  | _ => n = 0

namespace Operation

theorem movesAll_refl (op : Operation) (hosts : List Host) : op.MovesAll hosts hosts 0 := by
  cases op <;> rfl

theorem MovesAll.trans {op : Operation} {hosts hosts' hosts'' : List Host} {k n : Nat}
    (h : op.MovesAll hosts hosts' k) (h' : op.MovesAll hosts' hosts'' n) :
    op.MovesAll hosts hosts'' (k + n) := by
  cases op <;> simp only [MovesAll] at h h' ⊢ <;> omega

/-- The number that was moved is the one measured from the hosts. -/
theorem MovesAll.moved_eq {op : Operation} {hosts hosts' : List Host} {n : Nat}
    (h : op.MovesAll hosts hosts' n) : op.moved hosts hosts' = n := by
  cases op <;> simp only [MovesAll, moved] at h ⊢ <;> omega

/-- What moves one registry moves all of them together by as much. -/
theorem Moves.movesAll {op : Operation} {g h : Host} {n : Nat}
    (hmoves : op.Moves g.registry h.registry n) (l₁ l₂ : List Host) :
    op.MovesAll (l₁ ++ g :: l₂) (l₁ ++ h :: l₂) n := by
  cases op with
  | send audience m =>
    simp only [Moves] at hmoves
    simp only [MovesAll, queuedOn, List.map_append, List.map_cons, List.sum_append, List.sum_cons]
    omega
  | disconnect closing =>
    simp only [Moves] at hmoves
    simp only [MovesAll, heldOn, List.map_append, List.map_cons, List.sum_append, List.sum_cons]
    omega
  | query _ _ | queryAll | listKeys _ | count => exact hmoves

end Operation

/-- A host that serves a send or a disconnect moves what it answers with. -/
theorem serveAt_moves_of_find? {hosts : List Host} (hids : (hosts.map (·.self.id)).Nodup)
    (hstored : ∀ h ∈ hosts, h.registry.Stored) {node : String} {h : Host}
    (hh : hosts.find? (·.self.id == node) = some h) {op : Operation} (hop : op.isEffect = true)
    (hcheck : op.check = .ok ()) :
    ∃ n, op.MovesAll hosts (serveAt node op hosts) n ∧
      (h.registry.perform op).2 = .count (UInt64.ofNat n) := by
  obtain ⟨l₁, l₂, hsplit, hserve⟩ := serveAt_of_find?_eq_some hids hh op
  obtain ⟨n, hreply, hmoves⟩ :=
    Registry.perform_moves (hstored h (List.mem_of_find?_eq_some hh)) hop
  refine ⟨n, ?_, hreply⟩
  rw [hserve, hsplit]
  refine Operation.Moves.movesAll ?_ l₁ l₂
  rw [Host.serve, Registry.fst_respond, if_pos hcheck]
  exact hmoves

/-- Serving a send or a disconnect moves what the reply tells; without a reply nothing moves. -/
theorem serveAt_moves {hosts : List Host} (hids : (hosts.map (·.self.id)).Nodup)
    (hstored : ∀ h ∈ hosts, h.registry.Stored) {c : PeerCall}
    (hop : c.operation.isEffect = true) :
    ∃ n, c.operation.MovesAll hosts (serveAt c.callee.id c.operation hosts) n ∧
      (replyOf hosts c = .ok (.count (UInt64.ofNat n)) ∨
        n = 0 ∧ ∃ e, replyOf hosts c = .error e) := by
  unfold replyOf
  cases hh : hosts.find? (·.self.id == c.callee.id) with
  | none =>
    rw [serveAt_of_find?_eq_none hh]
    exact ⟨0, c.operation.movesAll_refl hosts, .inr ⟨rfl, _, rfl⟩⟩
  | some h =>
    dsimp only
    cases hcheck : c.operation.check with
    | error e =>
      rw [serveAt_of_check hcheck]
      exact ⟨0, c.operation.movesAll_refl hosts, .inr ⟨rfl, _, rfl⟩⟩
    | ok _ =>
      obtain ⟨n, hmoves, hreply⟩ := serveAt_moves_of_find? hids hstored hh hop hcheck
      exact ⟨n, hmoves, .inl (congrArg Except.ok hreply)⟩

/-- A connection is found where it was, on the host that served as on any other. -/
theorem find?_serveAt (node node' : String) (op : Operation) (hosts : List Host) :
    (serveAt node op hosts).find? (·.self.id == node') =
      (hosts.find? (·.self.id == node')).map fun h =>
        if h.self.id == node then h.serve op else h := by
  rw [serveAt, List.find?_map]
  congr 2
  funext h
  rw [Function.comp_apply]
  split <;> rfl

/-- Serving sends a connection of the host that serves at most one message, and others none. -/
theorem gainOn_serveAt_le {hosts : List Host} (hstored : ∀ h ∈ hosts, h.registry.Stored)
    (node : String) (op : Operation) (node' : String) (id : ConnectionId) :
    gainOn hosts (serveAt node op hosts) node' id ≤ if node' = node then 1 else 0 := by
  rw [gainOn, waitingOn, waitingOn, find?_serveAt]
  cases hh : hosts.find? (·.self.id == node') with
  | none => simp
  | some h =>
    have hr : h.registry.Stored := hstored h (List.mem_of_find?_eq_some hh)
    have hid : h.self.id = node' := by simpa using List.find?_some hh
    simp only [Option.map_some, Option.elim_some, hid, beq_iff_eq]
    split
    · rw [Host.serve, Registry.fst_respond]
      dsimp only
      split
      · have hone := Registry.waiting_perform_le hr op id
        omega
      · omega
    · omega

/-- Serving sends a connection at most one message, and none unless the operation was run. -/
theorem gainOn_serveAt_le_ranBy {hosts : List Host} (hstored : ∀ h ∈ hosts, h.registry.Stored)
    (c : PeerCall) (node : String) (id : ConnectionId) :
    gainOn hosts (serveAt c.callee.id c.operation hosts) node id ≤
      if node = c.callee.id then (ranBy hosts c).length else 0 := by
  cases hh : hosts.find? (·.self.id == c.callee.id) with
  | none =>
    rw [serveAt_of_find?_eq_none hh, gainOn, Nat.sub_self]
    exact Nat.zero_le _
  | some h =>
    have hran : (ranBy hosts c).length = 1 := by
      rw [ranBy, hh]
      rfl
    rw [hran]
    exact gainOn_serveAt_le hstored c.callee.id c.operation node id

end PushMesh
