import PushMesh.Proofs.Membership
import PushMesh.Proofs.Mesh.Page
import PushMesh.Proofs.Mesh.Turn

/-!
# The opening of a dispatch

A dispatch that its own node accepts leaves a mesh of which everything is known: the node has run
the operation (`dispatch_frame`), the gather awaits all peers (`gather_dispatch`), and the first
attempt at each of them is due (`page_dispatch`).
-/

namespace PushMesh

namespace Gather

/-- Tracking calls leaves books and phase as they are. -/
theorem sameBooks_tracks (g : Gather) (tasks : List Nat) :
    g.SameBooks (g.takeAll (tasks.map .track)) ∧ (g.takeAll (tasks.map .track)).phase = g.phase := by
  induction tasks generalizing g with
  | nil => exact ⟨.refl g, rfl⟩
  | cons task tasks ih =>
    obtain ⟨hbooks, hphase⟩ := g.sameBooks_track task
    obtain ⟨hbooks', hphase'⟩ := ih (g.track task).1
    exact ⟨hbooks.trans hbooks', hphase'.trans hphase⟩

end Gather

namespace Mesh

variable {gather : Nat} {caller : Host} {inquiry : Inquiry}

/-! ## The calls that are set up -/

/-- There is one call to each peer, in their order. -/
theorem callee_callsTo (gather : Nat) (caller : Host) (inquiry : Inquiry) (task : Nat)
    (peers : List Node) : (callsTo gather caller inquiry task peers).map (·.callee) = peers := by
  induction peers generalizing task with
  | nil => rfl
  | cons peer peers ih => exact congrArg (peer :: ·) (ih (task + 1))

/-- The calls that are set up are alike apart from task and callee. -/
theorem eq_callTo_of_mem {task : Nat} {peers : List Node} {c : PeerCall}
    (hc : c ∈ callsTo gather caller inquiry task peers) :
    ∃ task', c = callTo gather caller inquiry task' c.callee := by
  induction peers generalizing task with
  | nil => cases hc
  | cons peer peers ih =>
    rcases List.mem_cons.1 hc with rfl | hc
    · exact ⟨task, rfl⟩
    · exact ih hc

/-- There is one timer for each call, in their order. -/
theorem event_callTimers (now order : Nat) (calls : List PeerCall) :
    (callTimers now order calls).map (·.event) = calls.map .call := by
  induction calls generalizing order with
  | nil => rfl
  | cons c calls ih => exact congrArg (Event.call c :: ·) (ih (order + 1))

/-- The timers of calls are due at once. -/
theorem of_mem_callTimers {now order : Nat} {calls : List PeerCall} {t : Timer}
    (ht : t ∈ callTimers now order calls) : t.due = now ∧ ∃ c ∈ calls, t.event = .call c := by
  induction calls generalizing order with
  | nil => cases ht
  | cons c calls ih =>
    rcases List.mem_cons.1 ht with rfl | ht
    · exact ⟨rfl, c, List.mem_cons_self, rfl⟩
    · obtain ⟨hdue, d, hd, heq⟩ := ih ht
      exact ⟨hdue, d, List.mem_cons_of_mem _ hd, heq⟩

/-- The calls of a dispatch. -/
def callsOf (m : Mesh) (h : Host) (inquiry : Inquiry) : List PeerCall :=
  callsTo m.nextId h inquiry (m.nextId + 1) h.peers

variable {m : Mesh} {h : Host}

/-- A dispatch calls the peers of its host. -/
theorem callee_callsOf (m : Mesh) (h : Host) (inquiry : Inquiry) :
    (m.callsOf h inquiry).map (·.callee) = h.peers :=
  callee_callsTo ..

/-- A dispatch calls the ids of these peers. -/
theorem callee_id_callsOf (m : Mesh) (h : Host) (inquiry : Inquiry) :
    (m.callsOf h inquiry).map (·.callee.id) = h.peers.map (·.id) := by
  rw [← m.callee_callsOf h inquiry, List.map_map]
  rfl

/-- The calls of a dispatch go to peers. -/
theorem callee_mem_peers {inquiry : Inquiry} {c : PeerCall} (hc : c ∈ m.callsOf h inquiry) :
    c.callee ∈ h.peers := by
  rw [← m.callee_callsOf h inquiry]
  exact List.mem_map.2 ⟨c, hc, rfl⟩

/-- And every peer is called. -/
theorem exists_mem_callsOf (m : Mesh) (inquiry : Inquiry) {p : Node} (hp : p ∈ h.peers) :
    ∃ c ∈ m.callsOf h inquiry, c.callee = p := by
  rw [← m.callee_callsOf h inquiry] at hp
  exact List.mem_map.1 hp

/-- The calls of a dispatch go to different peers. -/
theorem nodup_callsOf (m : Mesh) (h : Host) (inquiry : Inquiry) :
    ((m.callsOf h inquiry).map (·.callee.id)).Nodup := by
  rw [callee_id_callsOf]
  exact (Membership.peersOf_remotePeers h.self h.members).ids

/-! ## The mesh after the opening -/

/-- What an accepted dispatch does to everything but the gather. -/
theorem dispatch_frame (hids : (m.hosts.map (·.self.id)).Nodup)
    (hh : m.hosts.find? (·.self.id == h.self.id) = some h) {r : Registry} {own : Tally}
    (hlocal : inquiry.runLocally h.registry = .ok (r, own)) :
    ∃ metrics gathers, (m.dispatch h inquiry).1 = { m with
      hosts := serveAt h.self.id inquiry.operation m.hosts
      metrics
      nextId := m.nextId + 1 + h.peers.length
      timers := m.timers ++ callTimers m.now m.nextOrder (m.callsOf h inquiry)
      nextOrder := m.nextOrder + h.peers.length
      gathers } := by
  obtain ⟨hcheck, rfl, -⟩ := Inquiry.runLocally_eq_ok_iff.1 hlocal
  rw [m.dispatch_ok h hlocal]
  obtain ⟨gathers, hspawn⟩ := spawnAll_frame _ m.nextId h inquiry h.peers
  dsimp only
  rw [hspawn, ← hosts_setRegistry hids hh hcheck]
  exact ⟨_, gathers, rfl⟩

/-- A dispatch that succeeds at home names a new gather. -/
theorem snd_dispatch {r : Registry} {own : Tally}
    (hlocal : inquiry.runLocally h.registry = .ok (r, own)) :
    (m.dispatch h inquiry).2 = m.nextId := by
  rw [m.dispatch_ok h hlocal]

/-- A dispatch gives out the name of its gather. -/
theorem nextId_lt_dispatch (m : Mesh) (h : Host) (inquiry : Inquiry) :
    m.nextId < (m.dispatch h inquiry).1.nextId := by
  cases hlocal : inquiry.runLocally h.registry with
  | error e =>
    rw [m.dispatch_error h hlocal]
    exact Nat.lt_succ_self _
  | ok result =>
    rw [m.dispatch_ok h hlocal]
    obtain ⟨gathers, heq⟩ := spawnAll_frame _ m.nextId h inquiry h.peers
    dsimp only
    rw [heq]
    show m.nextId < m.nextId + 1 + h.peers.length
    omega

/-- The gather of an accepted dispatch has the node's own answer and awaits all peers. -/
theorem gather_dispatch {r : Registry} {own : Tally}
    (hlocal : inquiry.runLocally h.registry = .ok (r, own)) :
    ∃ g, (m.dispatch h inquiry).1.gather? m.nextId = some g ∧
      g.Accounts h.registry.nodeId own (Ascending.ofList (h.peers.map (·.id))) [] ∧
      g.value = own ∧ g.outstanding = Ascending.ofList (h.peers.map (·.id)) ∧ g.failures = [] ∧
      g.phase ≠ .cancelled := by
  let start := Gather.start h.registry.nodeId own (h.peers.map (·.id)) h.config.partialOnTimeout
  have hgather := m.gather?_dispatch h hlocal
  rw [snd_dispatch hlocal] at hgather
  obtain ⟨hbooks, hphase⟩ := start.sameBooks_tracks ((m.callsOf h inquiry).map (·.task))
  have htracks : (m.callsOf h inquiry).map (fun c => Gather.Step.track c.task) =
      ((m.callsOf h inquiry).map (·.task)).map .track := by
    rw [List.map_map]
    rfl
  rw [← htracks] at hbooks hphase
  have hopen : start.phase ≠ .cancelled := Gather.phase_start_ne _ _ _ _
  exact ⟨_, hgather, (Gather.accounts_start ..).congr hbooks hphase, hbooks.value,
    hbooks.outstanding, hbooks.failures, fun hphase' => hopen (hphase.symm.trans hphase')⟩

/-- The timers of a gather after its dispatch: the first attempts are due. -/
theorem timers_dispatch (hm : m.Sound) (h : Host) (inquiry : Inquiry) :
    (m.timers ++ callTimers m.now m.nextOrder (m.callsOf h inquiry)).filter (Timer.isFor m.nextId) =
      callTimers m.now m.nextOrder (m.callsOf h inquiry) := by
  have hold : m.timers.filter (Timer.isFor m.nextId) = [] := by
    refine List.filter_eq_nil_iff.2 fun t ht hfor => ?_
    obtain ⟨c, hc, hid⟩ : ∃ c, t.event.call? = some c ∧ c.gather = m.nextId := by
      simpa [Timer.isFor, Option.any_eq_true] using hfor
    exact absurd (hm.known t ht c hc).gather_lt (by rw [hid]; exact Nat.lt_irrefl _)
  have hnew : ∀ t ∈ callTimers m.now m.nextOrder (m.callsOf h inquiry),
      Timer.isFor m.nextId t = true := by
    intro t ht
    obtain ⟨-, c, hc, heq⟩ := of_mem_callTimers ht
    obtain ⟨task, hcall⟩ := eq_callTo_of_mem hc
    rw [Timer.isFor, heq, hcall]
    simp [Event.call?, callTo]
  rw [List.filter_append, hold, List.nil_append, List.filter_eq_self.2 hnew]

/-- The pages of a gather after its dispatch: nothing happened yet. -/
theorem page_dispatch (hm : m.Sound) (hh : m.hosts.find? (·.self.id == h.self.id) = some h)
    {r : Registry} {own : Tally} (hlocal : inquiry.runLocally h.registry = .ok (r, own))
    (node : String) :
    (m.dispatch h inquiry).1.page m.nextId node =
      ⟨((m.callsOf h inquiry).filter (·.callee.id == node)).map .call, 0, 0, []⟩ := by
  obtain ⟨metrics, gathers, heq⟩ := dispatch_frame hm.hosts hh hlocal
  -- the name of the gather is new, so no event is about it
  have hjournal : m.journal.filter (CallEvent.isFor m.nextId) = [] := by
    refine List.filter_eq_nil_iff.2 fun e he hfor => ?_
    have hlt := hm.journal_lt e he
    rw [beq_iff_eq.1 hfor] at hlt
    exact Nat.lt_irrefl _ hlt
  have hdue : ((callTimers m.now m.nextOrder (m.callsOf h inquiry)).filter
      (Timer.isTo node)).map (·.event) =
        ((m.callsOf h inquiry).filter (·.callee.id == node)).map .call := by
    have hevents := event_callTimers m.now m.nextOrder (m.callsOf h inquiry)
    have hto : Timer.isTo node = (fun e : Event => e.call?.any (·.callee.id == node)) ∘ (·.event) :=
      rfl
    rw [hto, ← List.filter_map, hevents, List.filter_map]
    rfl
  rw [heq]
  unfold page
  dsimp only
  rw [timers_dispatch hm, hjournal, hdue]
  rfl

/-- The page of a peer after the dispatch: the first attempt is due. -/
theorem page_dispatch_of_mem (hm : m.Sound) (hh : m.hosts.find? (·.self.id == h.self.id) = some h)
    {r : Registry} {own : Tally} (hlocal : inquiry.runLocally h.registry = .ok (r, own))
    {c : PeerCall} (hc : c ∈ m.callsOf h inquiry) :
    (m.dispatch h inquiry).1.page m.nextId c.callee.id = ⟨[.call c], 0, 0, []⟩ := by
  -- the callees are different, so one call goes to this one
  have hone : (m.callsOf h inquiry).filter (·.callee.id == c.callee.id) = [c] := by
    have hnodup := m.nodup_callsOf h inquiry
    obtain ⟨l₁, l₂, hsplit⟩ := List.append_of_mem hc
    rw [hsplit, List.map_append, List.map_cons, List.nodup_append, List.nodup_cons] at hnodup
    obtain ⟨-, ⟨hback, -⟩, hfront⟩ := hnodup
    have hnone : ∀ l : List PeerCall, c.callee.id ∉ l.map (·.callee.id) →
        l.filter (·.callee.id == c.callee.id) = [] := by
      intro l hl
      refine List.filter_eq_nil_iff.2 fun d hd heq => hl ?_
      exact List.mem_map.2 ⟨d, hd, beq_iff_eq.1 heq⟩
    rw [hsplit, List.filter_append, List.filter_cons_of_pos (by simp), hnone l₂ hback,
      hnone l₁ fun hin => hfront _ hin _ (List.mem_cons_self ..) rfl, List.nil_append]
  rw [page_dispatch hm hh hlocal, hone]
  rfl

end Mesh

end PushMesh
