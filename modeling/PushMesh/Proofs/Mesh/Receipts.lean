import PushMesh.Api.Serve
import PushMesh.Mesh.Shutdown
import PushMesh.Proofs.Mesh.Deeds
import PushMesh.Proofs.Mesh.Waiting
import PushMesh.Proofs.Registry.Receipt

/-!
# Messages of a mesh reach those who receive them

A message can come to a connection from its own node, from any other node by a call, from one who holds
the connection, and from a node that goes away. All of these are turns of a mesh, and so what holds of
every run of a registry holds of the queues of a mesh, whatever else goes on in it
(`receipted_everywhere`).
-/

namespace PushMesh.Mesh

variable {m m' : Mesh} {node : String} {h : Host}

/-! ## Ways to a connection -/

/-- What a registry becomes does not depend on what is answered. -/
theorem onRegistry_congr {α β : Type} {f : Registry → Registry × α} {g : Registry → Registry × β}
    (hsame : ∀ r, (f r).1 = (g r).1) (m : Mesh) (node : String) :
    (m.onRegistry node f).1 = (m.onRegistry node g).1 := by
  unfold onRegistry
  cases m.host? node with
  | none => rfl
  | some h =>
    dsimp only
    rw [hsame]

/-- The notice of a node that goes away is a send to all of its connections. -/
theorem notify_eq_turn (m : Mesh) (node : String) (message : Message) :
    (m.notify node message).1 = m.turn (.operate node (.execute (.send .all message))) := by
  unfold notify
  split
  next told n htold =>
    refine (congrArg Prod.fst htold).symm.trans (onRegistry_congr (fun r => ?_) m node)
    show _ = (r.respond (.send .all message)).1
    rw [Registry.respond, Registry.execute]
    cases r.send .all message <;> rfl

/-- A shutdown is some turns, and the first sends the notice. -/
theorem exists_turns_shutdown (hm : m.Sound) (node : String) (config : ShutdownConfig)
    (reason : String) : ∃ turns, (m.shutdown node config reason).1 =
      m.run (.operate node (.execute (.send .all (config.notice reason))) :: turns) := by
  let told := (m.notify node (config.notice reason)).1
  let flushed := if 0 < (m.notify node (config.notice reason)).2 then told.advance config.flush
    else told
  have htold : told = m.turn (.operate node (.execute (.send .all (config.notice reason)))) :=
    m.notify_eq_turn node _
  have hsound : told.Sound := htold ▸ hm.turn _
  -- the pause lets nothing but timers go on
  have hticks : Ticks told flushed := by
    unfold flushed
    split
    · exact ticks_waitFor hsound _ _
    · exact .refl told
  obtain ⟨turns, -, hrun⟩ := hticks
  -- then the sweepers are told to stop, and everything is closed
  have hclose : (m.shutdown node config reason).1 =
      (flushed.turn (.finishSweepers node)).turn (.operate node .closeAll) := by
    have hsame : ∀ r : Registry, r.closeAll.1 = (r.act .closeAll, ()).1 := fun _ => rfl
    exact onRegistry_congr hsame (flushed.finishSweepers node) node
  refine ⟨turns ++ [.finishSweepers node, .operate node .closeAll], ?_⟩
  rw [hclose, ← hrun, htold]
  show _ = (m.turn _).run (turns ++ _)
  rw [run_append]
  rfl

/-- Serving a peer does to registries what running its operation does. -/
theorem registryAt_serve (hh : m.host? h.self.id = some h) (op : Operation) (node : String) :
    (m.serve h op).1.registryAt node =
      (m.turn (.operate h.self.id (.execute op))).registryAt node := by
  have hturn : m.turn (.operate h.self.id (.execute op)) =
      m.setRegistry h.self.id h.registry (h.registry.respond op).1 := by
    rw [turn, onRegistry, hh]
    rfl
  rw [hturn]
  exact registryAt_of_hosts rfl node

/-- What comes to a connection otherwise than by a turn of its own. -/
structure Paths (m : Mesh) : Prop where
  serve : ∀ h op, m.host? h.self.id = some h → ∀ node, (m.serve h op).1.registryAt node =
    (m.turn (.operate h.self.id (.execute op))).registryAt node
  shutdown : ∀ node config reason, ∃ turns, (m.shutdown node config reason).1 =
    m.run (.operate node (.execute (.send .all (config.notice reason))) :: turns)

/-- Whatever else is done to a sound mesh, it reaches the registries by turns. -/
theorem Sound.paths (hm : m.Sound) : m.Paths where
  serve _ op hh := registryAt_serve hh op
  shutdown node config reason := exists_turns_shutdown hm node config reason

/-! ## Every connection -/

/-- What becomes of a connection that had come to `c` when more actions follow. -/
structure Goes (r s : Registry) (id : ConnectionId) (later : List Registry.Action) (c : Connection) :
    Prop where
  /-- It is known from then on, and has room for as many messages. -/
  known : ∃ d, s.handle? id = some d ∧ d.capacity = c.capacity
  /-- Once messages cannot reach its client, no more are accepted. -/
  silent : c.isAlive = false → r.heard id later = []
  /-- It never comes back to life. -/
  dead : c.isAlive = false → ∀ d, s.handle? id = some d → d.isAlive = false

/-- In a run messages go from those that send them to the one that receives them. -/
theorem goes_run {salt : ConnectionId} {n : Nat} {r : Registry} (hr : Registry.Numbered salt n r)
    {later : List Registry.Action} (hn : n + r.handedOut later ≤ 2 ^ 64) {id : ConnectionId}
    {c : Connection} (hc : r.handle? id = some c) : Goes r (r.run later) id later c := by
  obtain ⟨d, hd, hmoved⟩ := hr.moved_run later hn hc
  constructor
  · exact ⟨d, hd, hmoved.capacity⟩
  · exact fun hdead => (hmoved.dead hdead).1
  · intro hdead d' hd'
    obtain rfl := Option.some.inj (hd.symm.trans hd')
    exact (hmoved.dead hdead).2

/-- **Messages are neither lost nor doubled nor put out of order.** In a mesh that starts with empty
registries, let any turns go on, and then others. As long as no id is handed out twice, this is so at
each node after the first turns. Sends tell how many connections accept their message, and offers
whether it is accepted. What has been received from a connection and what waits on it is, in this order,
what has been accepted on it, unless its receiving end was dropped, and then what has been received is
the beginning of that. The queue is no longer than its capacity, which stays what it is, and the counter
of the connection counts the messages accepted. If messages cannot reach the client any more, the turns
that follow get none accepted and do not bring the connection back to life. Serving a peer and shutting
a node down are turns like any others. -/
theorem receipted_everywhere {hosts : List Host} (hids : (hosts.map (·.self.id)).Nodup)
    (hempty : ∀ h ∈ hosts, ∃ limits salt, h.registry = .create h.self.id limits salt)
    (links : Table String (List Link)) (turns later : List Turn) (hh : h ∈ hosts)
    (hhanded : h.registry.handedOut (deedsIn h.self.id (create hosts links) (turns ++ later)) ≤
      2 ^ 64) :
    let m := create hosts links
    (m.run turns).Paths ∧ ∃ r s, (m.run turns).registryAt h.self.id = some r ∧
      (m.run (turns ++ later)).registryAt h.self.id = some s ∧ r.Reports ∧
      ∀ id c, r.handle? id = some c → h.registry.Receipted id (deedsIn h.self.id m turns) c ∧
        Goes r s id (deedsIn h.self.id (m.run turns) later) c := by
  intro m
  have hm : m.Sound := by
    refine sound_create hids (fun k hk => ?_) links
    obtain ⟨limits, salt, heq⟩ := hempty k hk
    rw [heq]
    exact (Registry.aligned_create k.self.id limits salt).toStored
  obtain ⟨limits, salt, hregistry⟩ := hempty h hh
  -- the registry starts without connections, so no id has been given out
  have hnumbered : Registry.Numbered salt 0 h.registry := by
    rw [hregistry]
    exact Registry.numbered_create h.self.id limits salt
  have hstart : m.registryAt h.self.id = some h.registry := registryAt_of_mem hm hh
  -- the ids of the first turns and of those after them are enough together
  have hhanded : h.registry.handedOut (deedsIn h.self.id m turns) +
      (h.registry.run (deedsIn h.self.id m turns)).handedOut
        (deedsIn h.self.id (m.run turns) later) ≤ 2 ^ 64 := by
    rwa [deedsIn_append, Registry.handedOut_append] at hhanded
  have hrun := hnumbered.run (deedsIn h.self.id m turns) (by omega)
  refine ⟨(hm.run turns).paths, h.registry.run (deedsIn h.self.id m turns),
    h.registry.run (deedsIn h.self.id m (turns ++ later)), ?_, ?_,
    Registry.reports_of_aligned hrun.toAligned, fun id c hc => ⟨?_, ?_⟩⟩
  · rw [registryAt_run hm, hstart]
    rfl
  · rw [registryAt_run hm, hstart]
    rfl
  · refine hnumbered.receipted_run (deedsIn h.self.id m turns) (by omega) ?_ hc
    rw [hregistry]
    simp [Registry.create, Registry.handle?]
  · rw [deedsIn_append, Registry.run_append]
    exact goes_run hrun (by omega) hc

/-- A message with an id and nothing else. -/
def numbered (id : String) : Message := ⟨none, .null, some id⟩

/-- Two connections are sent messages in three ways. One has no room for the second of them; the other is
closed while a message waits. Then the receiving end of the first is dropped. -/
def crowdedRun : List Turn :=
  [.operate "a" (.register ⟨some "u", none, []⟩ default 1),
    .operate "a" (.register ⟨some "v", none, []⟩ default 2),
    .dispatch "b" (.send .all (numbered "1")), .fire 0, .operate "a" (.use 1 (.send (numbered "2"))),
    .dispatch "a" (.send .all (numbered "3")), .operate "a" (.use 2 .receive),
    .operate "a" (.use 2 .close), .operate "a" (.use 1 .dropReceiver)]

/-- The ids of messages. -/
def idsOf (messages : List Message) : List (Option String) :=
  messages.map (·.id)

/-- What was received and what waits, after a run in which messages are refused and lost. -/
theorem receipted_everywhere_crowded :
    let a := Host.standard "a" "host:1" []
    let hosts := [a, .standard "b" "host:2" [.peer "a" "host:1"]]
    let m := create hosts ∅
    let deeds := deedsIn "a" m crowdedRun
    let later : List Turn := [.operate "a" (.execute (.send .all (numbered "4")))]
    [1, 2].map (fun id => idsOf (a.registry.heard id deeds)) = [[some "1"], [some "1", some "3"]] ∧
      [1, 2].map (fun id => idsOf (a.registry.received id deeds)) = [[], [some "1"]] ∧
      ∃ r s, (m.run crowdedRun).registryAt "a" = some r ∧
        (m.run (crowdedRun ++ later)).registryAt "a" = some s ∧ r.Reports ∧
        ∀ id c, r.handle? id = some c → a.registry.Receipted id deeds c ∧
          Goes r s id (deedsIn "a" (m.run crowdedRun) later) c := by
  intro a hosts m deeds later
  have hempty : ∀ h ∈ hosts, ∃ limits salt, h.registry = .create h.self.id limits salt := by
    intro h hh
    simp only [hosts, List.mem_cons, List.not_mem_nil, or_false] at hh
    rcases hh with rfl | rfl
    · exact ⟨_, _, rfl⟩
    · exact ⟨_, _, rfl⟩
  have hhanded : a.registry.handedOut (deedsIn a.self.id m (crowdedRun ++ later)) ≤ 2 ^ 64 := by
    decide
  have hall := receipted_everywhere (by decide) hempty ∅ crowdedRun later List.mem_cons_self hhanded
  exact ⟨by decide, by decide, hall.2⟩

end PushMesh.Mesh
