import PushMesh.Mesh.Dispatch
import PushMesh.Proofs.Gather.Accounts

/-!
# The work under way

`Mesh.work` is the part of a mesh that calls and gathers are made of. Most operations on a mesh leave
it alone, and a gather changes only through `onGather` and `cancel`. A dispatch sets up one call for
each peer (`spawnAll_frame`).
-/

namespace PushMesh

/-- A host without connections that waits five seconds for a peer and calls it once. -/
def Host.standard (id address : String) (members : List Node) : Host :=
  { self := ⟨id, address, true⟩, registry := .create id .standard 0, members,
    config := ⟨5000, false, true⟩, secret := none, bodyLimit := 2097152, channelCapacity := 32,
    heartbeatInterval := 30 }

namespace Mesh

/-- What calls and gathers are made of. -/
structure Work where
  timers : List Timer
  nextOrder : Nat
  gathers : Table Nat Gather
  journal : List CallEvent
  notices : List Gather.Notice

/-- The work under way in a mesh. -/
def work (m : Mesh) : Work :=
  ⟨m.timers, m.nextOrder, m.gathers, m.journal, m.notices⟩

variable {m m' : Mesh}

/-- The timers are part of the work. -/
theorem timers_of_work (h : m'.work = m.work) : m'.timers = m.timers := congrArg Work.timers h

/-- The order of the next timer is part of the work. -/
theorem nextOrder_of_work (h : m'.work = m.work) : m'.nextOrder = m.nextOrder :=
  congrArg Work.nextOrder h

/-- The gathers are part of the work. -/
theorem gather?_of_work (h : m'.work = m.work) (id : Nat) : m'.gather? id = m.gather? id := by
  rw [gather?, gather?, show m'.gathers = m.gathers from congrArg Work.gathers h]

/-- The journal is part of the work. -/
theorem journal_of_work (h : m'.work = m.work) : m'.journal = m.journal := congrArg Work.journal h

/-- The notices are part of the work. -/
theorem notices_of_work (h : m'.work = m.work) : m'.notices = m.notices := congrArg Work.notices h

/-- New members leave the work alone. -/
theorem work_setMembers (m : Mesh) (id : String) (members : List Node) :
    (m.setMembers id members).work = m.work := rfl

/-! ## Gathers -/

/-- Changing a gather changes no other. -/
theorem gather?_onGather (m : Mesh) (id id' : Nat) (f : Gather → Gather × List Gather.Notice) :
    (m.onGather id f).gather? id' =
      if id' = id then (m.gather? id).map fun g => (f g).1 else m.gather? id' := by
  unfold onGather
  cases hg : m.gather? id with
  | none => by_cases h : id' = id <;> simp [h, hg]
  | some g =>
    rw [gather?, Table.get?_insert]
    by_cases h : id' = id <;> simp [h, gather?]

/-- The notices of a gather are added to those before. -/
theorem notices_onGather (m : Mesh) {id : Nat} {g : Gather} (hg : m.gather? id = some g)
    (f : Gather → Gather × List Gather.Notice) :
    (m.onGather id f).notices = m.notices ++ (f g).2 := by
  rw [onGather, hg]

/-- A new gather is found under its name, and every other under its own. -/
theorem gather?_addGather (m : Mesh) (g : Gather) (id : Nat) :
    (m.addGather g).1.gather? id = if id = m.nextId then some g else m.gather? id := by
  rw [addGather, freshId, gather?, Table.get?_insert]
  by_cases h : id = m.nextId <;> simp [h, gather?]

/-- Cancelling a gather leaves the others alone. -/
theorem gather?_cancel (m : Mesh) (id id' : Nat) :
    (m.cancel id).1.gather? id' =
      if id' = id then (m.gather? id).map fun g => g.cancel.1 else m.gather? id' := by
  unfold cancel
  cases hg : m.gather? id with
  | none => by_cases h : id' = id <;> simp [h, hg]
  | some g =>
    rw [gather?, Table.get?_insert]
    by_cases h : id' = id <;> simp [h, gather?]

/-- Running callbacks and changing a gather touches gathers and notices only. -/
theorem onGather_frame (m : Mesh) (id : Nat) (f : Gather → Gather × List Gather.Notice) :
    ∃ gathers notices, m.onGather id f = { m with gathers, notices } := by
  unfold onGather
  cases m.gather? id with
  | none => exact ⟨m.gathers, m.notices, rfl⟩
  | some g => exact ⟨_, _, rfl⟩

/-! ## A dispatch -/

/-- The call to a peer that a dispatch sets up. -/
def callTo (gather : Nat) (caller : Host) (inquiry : Inquiry) (task : Nat) (peer : Node) :
    PeerCall :=
  { task, gather, caller := caller.self.id, callee := peer, operation := inquiry.operation,
    kind := inquiry.kind, timeout := caller.config.requestTimeout,
    retries := caller.config.retryOnTimeout }

/-- The calls that a dispatch sets up, their tasks numbered from `task`. -/
def callsTo (gather : Nat) (caller : Host) (inquiry : Inquiry) : Nat → List Node → List PeerCall
  | _, [] => []
  | task, peer :: peers =>
    callTo gather caller inquiry task peer :: callsTo gather caller inquiry (task + 1) peers

/-- The timers of calls that are due at once, numbered from `order`. -/
def callTimers (now : Nat) : Nat → List PeerCall → List Timer
  | _, [] => []
  | order, c :: cs => ⟨now, order, .call c⟩ :: callTimers now (order + 1) cs

/-- Sets up the calls to all peers. -/
def spawnAll (m : Mesh) (gather : Nat) (caller : Host) (inquiry : Inquiry) (peers : List Node) :
    Mesh :=
  peers.foldl (fun m peer => m.spawn gather caller inquiry peer) m

variable {gather : Nat} {caller : Host} {inquiry : Inquiry}

/-- Setting up a call sets a timer and changes the gather. -/
theorem spawn_frame (m : Mesh) (gather : Nat) (caller : Host) (inquiry : Inquiry) (peer : Node) :
    ∃ gathers, m.spawn gather caller inquiry peer =
      { m with
        nextId := m.nextId + 1
        timers := m.timers ++
          [⟨m.now, m.nextOrder, .call (callTo gather caller inquiry m.nextId peer)⟩]
        nextOrder := m.nextOrder + 1
        gathers } := by
  unfold spawn onGather
  dsimp only
  split
  · exact ⟨m.gathers, rfl⟩
  · next g _ =>
    refine ⟨m.gathers.insert gather (g.track m.nextId).1, ?_⟩
    rw [List.append_nil]
    rfl

/-- A new call is tracked by its own gather and by no other. -/
theorem gather?_spawn (m : Mesh) (id : Nat) (peer : Node) :
    (m.spawn gather caller inquiry peer).gather? id =
      if id = gather then (m.gather? gather).map fun g => (g.track m.nextId).1
      else m.gather? id := by
  unfold spawn
  rw [gather?_onGather]
  rfl

/-- What setting up the calls to all peers does to everything but the gather. -/
theorem spawnAll_frame (m : Mesh) (gather : Nat) (caller : Host) (inquiry : Inquiry)
    (peers : List Node) :
    ∃ gathers, m.spawnAll gather caller inquiry peers =
      { m with
        nextId := m.nextId + peers.length
        timers := m.timers ++
          callTimers m.now m.nextOrder (callsTo gather caller inquiry m.nextId peers)
        nextOrder := m.nextOrder + peers.length
        gathers } := by
  induction peers generalizing m with
  | nil => exact ⟨m.gathers, by simp [spawnAll, callsTo, callTimers]⟩
  | cons peer peers ih =>
    obtain ⟨gathers₁, hspawn⟩ := m.spawn_frame gather caller inquiry peer
    obtain ⟨gathers₂, hrest⟩ := ih (m.spawn gather caller inquiry peer)
    refine ⟨gathers₂, ?_⟩
    rw [spawnAll, List.foldl_cons]
    refine hrest.trans ?_
    rw [hspawn]
    simp [callsTo, callTimers, Nat.add_assoc, Nat.add_comm 1]

/-- The gather tracks the calls that are set up. -/
theorem gather?_spawnAll (m : Mesh) (id : Nat) (peers : List Node) :
    (m.spawnAll gather caller inquiry peers).gather? id =
      if id = gather then (m.gather? gather).map fun g =>
        g.takeAll ((callsTo gather caller inquiry m.nextId peers).map fun c => .track c.task)
      else m.gather? id := by
  induction peers generalizing m with
  | nil => by_cases h : id = gather <;> simp [spawnAll, callsTo, Gather.takeAll, h]
  | cons peer peers ih =>
    obtain ⟨gathers, hspawn⟩ := m.spawn_frame gather caller inquiry peer
    have hnext : (m.spawn gather caller inquiry peer).nextId = m.nextId + 1 := by rw [hspawn]
    rw [spawnAll, List.foldl_cons]
    refine (ih (m.spawn gather caller inquiry peer)).trans ?_
    rw [hnext, gather?_spawn, gather?_spawn, if_pos rfl, Option.map_map]
    by_cases h : id = gather
    · rw [if_pos h, if_pos h]
      rfl
    · rw [if_neg h, if_neg h, if_neg h]

/-- A dispatch that its own registry accepts runs it there, opens a gather and sets up the calls. -/
theorem dispatch_ok (m : Mesh) (h : Host) {inquiry : Inquiry} {r : Registry} {own : Tally}
    (hlocal : inquiry.runLocally h.registry = .ok (r, own)) :
    let local_ :=
      (m.record (·.recordDispatch inquiry.operation.name)).setRegistry h.self.id h.registry r
    let opened := local_.addGather
      (.start h.registry.nodeId own (h.peers.map (·.id)) h.config.partialOnTimeout)
    m.dispatch h inquiry = (opened.1.spawnAll m.nextId h inquiry h.peers, m.nextId) := by
  unfold dispatch
  rw [hlocal]
  rfl

/-- A dispatch that the node itself refuses keeps a gather that never starts. -/
theorem dispatch_error (m : Mesh) (h : Host) {inquiry : Inquiry} {e : Refusal}
    (he : inquiry.runLocally h.registry = .error e) :
    m.dispatch h inquiry = ((m.record (·.recordDispatch inquiry.operation.name)).record
      (·.recordLocalFailure)).addGather (.failed inquiry.kind (.refused e)) := by
  rw [dispatch, he]

/-- The gather that a dispatch opens. -/
theorem gather?_dispatch (m : Mesh) (h : Host) {inquiry : Inquiry} {r : Registry} {own : Tally}
    (hlocal : inquiry.runLocally h.registry = .ok (r, own)) :
    (m.dispatch h inquiry).1.gather? (m.dispatch h inquiry).2 =
      some ((Gather.start h.registry.nodeId own (h.peers.map (·.id))
        h.config.partialOnTimeout).takeAll
          ((callsTo m.nextId h inquiry (m.nextId + 1) h.peers).map fun c => .track c.task)) := by
  rw [m.dispatch_ok h hlocal]
  dsimp only
  rw [gather?_spawnAll, if_pos rfl, gather?_addGather]
  exact congrArg (Option.map _) (if_pos rfl)

end Mesh

end PushMesh
