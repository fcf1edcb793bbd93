import PushMesh.Api.Serve
import PushMesh.Proofs.Mesh.Own
import PushMesh.Proofs.Registry.Looking

/-!
# Looking leaves no trace

An operation that is not marked as mutating can be run again after a timeout, and a peer may be asked
for it twice. `Looks` says what comes of that in a mesh: no registry changes while it is dispatched,
whichever of its calls are made, arrive late or are made again, and what registries become in a run is
what they become without it (`looks_everywhere`).
-/

namespace PushMesh.Mesh

variable {m m' : Mesh} {op : Operation} {h : Host} {node : String} {t : Turn}

/-! ## What is left alone -/

/-- What a mesh holds is what it held: the registry of every node, and so what a call would bring. -/
structure Unmoved (m m' : Mesh) : Prop where
  registry : ∀ node, m'.registryAt node = m.registryAt node
  replies : ∀ c, replyOf m'.hosts c = replyOf m.hosts c

/-- The reply to a call is read off the registry of the callee. -/
theorem replyOf_eq (m : Mesh) (c : PeerCall) : replyOf m.hosts c =
    match m.registryAt c.callee.id with
    | none => .error (.unreachable ("connect failed: " ++ c.callee.address ++ " refused"))
    | some r =>
      match c.operation.check with
      | .error e => .error (.domain e.text)
      | .ok () => .ok (r.perform c.operation).2 := by
  unfold replyOf registryAt host?
  cases m.hosts.find? (·.self.id == c.callee.id) <;> rfl

/-- A turn that does nothing but look leaves everything as it is. -/
theorem unmoved_turn (hm : m.Sound) (hlooks : ∀ node, ∀ a ∈ m.deeds node t, a.looks = true) :
    Unmoved m (m.turn t) := by
  have hregistry : ∀ node, (m.turn t).registryAt node = m.registryAt node := by
    intro node
    rw [registryAt_turn hm]
    simp only [Registry.run_of_looks (hlooks node)]
    exact Option.map_id'
  exact ⟨hregistry, fun c => by rw [replyOf_eq, replyOf_eq, hregistry]⟩

/-! ## Serving -/

/-- To put the registry of a node where it was changes nothing but metrics. -/
theorem setRegistry_self (hids : (m.hosts.map (·.self.id)).Nodup) (hh : h ∈ m.hosts) :
    ∃ metrics, m.setRegistry h.self.id h.registry h.registry = { m with metrics } := by
  have hhosts : (m.hosts.map fun k =>
      if k.self.id == h.self.id then { k with registry := h.registry } else k) = m.hosts := by
    refine (List.map_congr_left fun k hk => ?_).trans (List.map_id m.hosts)
    split
    · next hid =>
      obtain rfl := eq_of_find?_eq_some hids (find?_of_mem hids hh) hk hid
      rfl
    · rfl
  rw [setRegistry, modifyHost, hhosts]
  exact ⟨_, rfl⟩

/-- To serve an operation that only looks is noted in the metrics, and nowhere else. -/
theorem serve_of_looks (hids : (m.hosts.map (·.self.id)).Nodup) (hh : h ∈ m.hosts)
    (hop : op.isMutating = false) : ∃ metrics, (m.serve h op).1 = { m with metrics } := by
  obtain ⟨metrics, hset⟩ := setRegistry_self hids hh
  unfold serve
  dsimp only
  rw [Registry.fst_respond_of_looks hop, hset]
  exact ⟨_, rfl⟩

/-- What comes of an operation that only looks in a mesh. -/
structure Looks (m : Mesh) (op : Operation) : Prop where
  /-- A node that serves it any number of times changes nothing but metrics, and answers what it
  answered at first. -/
  served : ∀ h ∈ m.hosts, ∀ n, ∃ metrics,
    Nat.repeat (fun s => (s.serve h op).1) n m = { m with metrics } ∧
      (Mesh.serve { m with metrics } h op).2 = (m.serve h op).2
  /-- When it is dispatched nothing changes, nor does it whenever a timer of the dispatch goes off. -/
  dispatched : ∀ h ∈ m.hosts, ∀ inquiry, inquiry.operation = op →
    Unmoved m (m.turn (.dispatch h.self.id inquiry)) ∧ ∀ turns t,
      ((m.turn (.dispatch h.self.id inquiry)).run turns).isOwn m.nextId t = true →
        Unmoved ((m.turn (.dispatch h.self.id inquiry)).run turns)
          (((m.turn (.dispatch h.self.id inquiry)).run turns).turn t)
  /-- Whatever goes on, registries become what they become if nobody looks at them. -/
  omitted : ∀ turns node, (m.run turns).registryAt node =
    (m.registryAt node).map (·.run ((deedsIn node m turns).filter fun a => !a.looks))

/-- An operation that only looks leaves a sound mesh as `Looks` says. -/
theorem Sound.looks (hm : m.Sound) (hop : op.isMutating = false) : m.Looks op where
  served h hh n := by
    -- by induction on how often it is served; only the metrics change
    induction n with
    | zero => exact ⟨m.metrics, rfl, rfl⟩
    | succ n ih =>
      obtain ⟨metrics, hrepeat, -⟩ := ih
      rw [Nat.repeat, hrepeat]
      obtain ⟨metrics', hserve⟩ := serve_of_looks (m := { m with metrics }) hm.hosts hh hop
      exact ⟨metrics', hserve, rfl⟩
  dispatched h hh inquiry hinquiry := by
    have hhost : m.host? h.self.id = some h := find?_of_mem hm.hosts hh
    have hlooks : ∀ a : Registry.Action, a = .execute inquiry.operation → a.looks = true := by
      rintro a rfl
      rw [hinquiry, Registry.Action.looks, hop]
      rfl
    refine ⟨unmoved_turn hm fun node a ha => ?_, fun turns t hown => ?_⟩
    · exact hlooks a (m.eq_execute_of_dispatch h.self.id inquiry node a ha)
    · have hdispatched := hm.turn (.dispatch h.self.id inquiry)
      have hid := lt_nextId_dispatch hm hhost inquiry
      -- a turn of the gather executes the same operation, which only looks
      have hbound := (bound_dispatch hm hhost inquiry).run hdispatched hid turns
      refine unmoved_turn (hdispatched.run turns) fun node a ha => hlooks a ?_
      exact eq_execute_of_own hbound (hdispatched.run turns)
        (lt_nextId_run hdispatched hid turns) hown node a ha
  omitted turns node := by
    rw [registryAt_run hm]
    simp only [Registry.run_filter_looks]

/-- **Looking leaves no trace.** Take an operation that is not marked as mutating. Every registry is
left as it is by it, field by field, whether it is run or refused. Asked for it any number of times among
other operations, a registry gives the same answer each time, and to the others the answers that it gives
if it is not asked. In a mesh whose registries can come about, after any turns, it can be served to peers
and dispatched, with calls that time out and are made again: no registry changes by it, nor do the
replies to calls, and registries become in a run what they become without it. The mark itself is right:
of the operations that are in order and name somebody, those have it that change some registry. -/
theorem looks_everywhere {hosts : List Host} (hids : (hosts.map (·.self.id)).Nodup)
    (hreachable : ∀ h ∈ hosts, h.registry.Reachable) (links : Table String (List Link))
    (turns : List Turn) (hop : op.isMutating = false) :
    (∀ r, op.Looks r) ∧ ((create hosts links).run turns).Looks op ∧
      ∀ op' : Operation, ¬op'.Flawed → op'.isAddressed = true →
        (op'.isMutating = true ↔ ∃ r : Registry, r.Reachable ∧ (r.respond op').1 ≠ r) := by
  have hm : (create hosts links).Sound :=
    sound_create hids (fun h hh => (hreachable h hh).aligned.toStored) links
  exact ⟨Operation.looks_of_isMutating hop, (hm.run turns).looks hop,
    fun _ => Registry.isMutating_iff⟩

/-- A node that makes calls again once they have timed out, and its peer. -/
def askers : List Host :=
  [{ Host.standard "a" "host:1" [.peer "b" "host:2"] with config := ⟨5000, true, true⟩ },
    .standard "b" "host:2" []]

/-- The peer runs at once what it is asked, and its answers come too late. -/
def lateAnswers : Table String (List Link) :=
  (∅ : Table String (List Link)).insert "b" [⟨6000, .runs, true⟩]

/-- The peer has a connection and is asked for its users, once more after the timeout. -/
def askedTwice : List Turn :=
  [.operate "b" (.register ⟨some "u", none, []⟩ default 1), .dispatch "a" (.listKeys .user),
    .fire 0, .fire 1, .fire 2]

/-- Of the three things that are done to the registry of the peer, two are left out. -/
theorem looks_everywhere_askedTwice :
    (Operation.listKeys .user).isMutating = false ∧ (∀ h ∈ askers, h.registry.Reachable) ∧
      (deedsIn "b" (create askers lateAnswers) askedTwice).length = 3 ∧
      ((deedsIn "b" (create askers lateAnswers) askedTwice).filter fun a => !a.looks).length = 1 ∧
      (∀ r, (Operation.listKeys .user).Looks r) ∧
      ((create askers lateAnswers).run askedTwice).Looks (.listKeys .user) := by
  have hop : (Operation.listKeys .user).isMutating = false := rfl
  have hreachable : ∀ h ∈ askers, h.registry.Reachable := by
    intro h hh
    refine ⟨h.self.id, .standard, 0, [], Nat.zero_le _, ?_⟩
    simp only [askers, List.mem_cons, List.not_mem_nil, or_false] at hh
    rcases hh with rfl | rfl <;> rfl
  obtain ⟨hlooks, hmesh, -⟩ := looks_everywhere (by decide) hreachable lateAnswers askedTwice hop
  exact ⟨hop, hreachable, by decide, by decide, hlooks, hmesh⟩

end PushMesh.Mesh
