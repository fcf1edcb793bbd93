import PushMesh.Proofs.Mesh.Opening
import PushMesh.Proofs.Registry.Distinct

/-!
# What turns do to registries

A registry in a mesh is changed by what its own node does, by calls that other nodes make to it, by
the sweeper and by streams. `deeds` lists all of that as actions of the registry, in their order. So
each registry of a mesh goes through a run of its own (`registryAt_run`), and what holds of all runs of
a registry holds of the registries of a mesh.
-/

namespace PushMesh.Mesh

/-- The registry of a node. -/
def registryAt (m : Mesh) (node : String) : Option Registry :=
  (m.host? node).map (·.registry)

/-- The operations that calls ran on a node, by what was noted of the calls. -/
def ranOn (node : String) (events : List CallEvent) : List Registry.Action :=
  events.filterMap fun
    | .ran c => if c.callee.id = node then some (.execute c.operation) else none
    | _ => none

/-- What a turn does to the registry of a node. -/
def deeds (m : Mesh) (node : String) : Turn → List Registry.Action
  | .dispatch node' inquiry => if node' = node then [.execute inquiry.operation] else []
  | .fire order => (m.timer? order).elim [] fun t =>
    match t.event with
    | .sweep s => if s.node = node ∧ m.isFinished s = false then [.sweep] else []
    | _ => ranOn node ((m.fire t).journal.drop m.journal.length)
  | .operate node' a => if node' = node then [a] else []
  | .openStream node' owner connectedAt =>
    if node' = node then
      (m.host? node).toList.map fun h => .register owner connectedAt (max h.channelCapacity 1)
    else []
  | .readStream id => (m.streams.get? id).elim [] fun s =>
    if s.nodeId = node then [.readStream s m.now] else []
  | .dropStream id => (m.streams.get? id).elim [] fun s =>
    if s.nodeId = node then [.dropStream s] else []
  | _ => []

/-- What several turns do to the registry of a node. -/
def deedsIn (node : String) : Mesh → List Turn → List Registry.Action
  | _, [] => []
  | m, t :: turns => m.deeds node t ++ deedsIn node (m.turn t) turns

variable {m m' s : Mesh} {node node' : String} {events events' : List CallEvent}

/-! ## Putting a registry in its place -/

/-- Where the hosts stay the same, so do their registries. -/
theorem registryAt_of_hosts (h : m'.hosts = m.hosts) (node : String) :
    m'.registryAt node = m.registryAt node := by
  rw [registryAt, registryAt, host?, host?, h]

/-- The registry of a host is found under its id. -/
theorem registryAt_of_mem (hm : m.Sound) {h : Host} (hh : h ∈ m.hosts) :
    m.registryAt h.self.id = some h.registry := by
  rw [registryAt, host?, find?_of_mem hm.hosts hh]
  rfl

/-- What the registries of all hosts count, node by node. -/
theorem sum_registries_eq (hm : m.Sound) (count : Registry → Nat) :
    (m.hosts.map fun h => count h.registry).sum =
      ((m.hosts.map (·.self.id)).map fun node => (m.registryAt node).elim 0 count).sum := by
  rw [List.map_map]
  congr 1
  refine List.map_congr_left fun h hh => ?_
  rw [Function.comp_apply, registryAt_of_mem hm hh]
  rfl

/-- A host is found where it was, if ids are what they were. -/
theorem host?_map {f : Host → Host} (hf : ∀ h, (f h).self.id = h.self.id)
    (hhosts : m'.hosts = m.hosts.map f) (node : String) : m'.host? node = (m.host? node).map f := by
  rw [host?, hhosts, List.find?_map, host?]
  congr 2
  funext h
  rw [Function.comp_apply, hf]

/-- Setting the registry of one node leaves the others alone. -/
theorem registryAt_setRegistry {h : Host} (hh : m.host? node' = some h) (before after : Registry)
    (node : String) : (m.setRegistry node' before after).registryAt node =
      if node' = node then some after else m.registryAt node := by
  have hids : ∀ k : Host,
      (if k.self.id == node' then { k with registry := after } else k).self.id = k.self.id := by
    intro k
    split <;> rfl
  rw [registryAt, registryAt, host?_map (m := m) hids rfl]
  by_cases hnode : node' = node
  · subst hnode
    have hid := self_of_host? hh
    simp [hh, hid]
  · rw [if_neg hnode]
    cases hk : m.host? node with
    | none => rfl
    | some k =>
      have hid := self_of_host? hk
      simp [hid, Ne.symm hnode]

/-- Where hosts are what they were nothing is done to a registry. -/
theorem registryAt_unchanged (h : m'.hosts = m.hosts) (node : String) :
    m'.registryAt node = (m.registryAt node).map (·.run []) := by
  rw [registryAt_of_hosts h]
  exact Option.map_id'.symm

/-- What a node that is no host would do to its registry is nothing. -/
theorem registryAt_of_none (hnone : m.host? node' = none) (actions : List Registry.Action)
    (node : String) : m.registryAt node =
      (m.registryAt node).map (·.run (if node' = node then actions else [])) := by
  by_cases hnode : node' = node
  · rw [registryAt, ← hnode, hnone]
    rfl
  · rw [if_neg hnode]
    exact Option.map_id'.symm

/-- The registry of a node is what was put in its place, and no other one changes. -/
theorem registryAt_put {h : Host} (hh : m.host? node' = some h) (before : Registry)
    {after : Registry} {actions : List Registry.Action} (hafter : after = h.registry.run actions)
    (node : String) : (m.setRegistry node' before after).registryAt node =
      (m.registryAt node).map (·.run (if node' = node then actions else [])) := by
  rw [registryAt_setRegistry hh, hafter]
  by_cases hnode : node' = node
  · rw [if_pos hnode, if_pos hnode, registryAt, ← hnode, hh]
    rfl
  · rw [if_neg hnode, if_neg hnode]
    exact Option.map_id'.symm

/-- What is run on the registry of a node is done to that one and to no other. -/
theorem registryAt_onRegistry {α : Type} (m : Mesh) (node' : String) {f : Registry → Registry × α}
    {actions : List Registry.Action} (hf : ∀ r, (f r).1 = r.run actions) (node : String) :
    (m.onRegistry node' f).1.registryAt node =
      (m.registryAt node).map (·.run (if node' = node then actions else [])) := by
  unfold onRegistry
  cases hh : m.host? node' with
  | none => exact registryAt_of_none hh actions node
  | some h => exact registryAt_put hh h.registry (hf h.registry) node

/-- What is done to one registry by actions is done to no other. -/
theorem registryAt_of_onRegistry {α : Type} {f : Registry → Registry × α} {m' : Mesh} {o : Option α}
    (heq : m.onRegistry node' f = (m', o)) {actions : List Registry.Action}
    (hf : ∀ r, (f r).1 = r.run actions) (node : String) : m'.registryAt node =
      (m.registryAt node).map (·.run (if node' = node then actions else [])) := by
  have hset := m.registryAt_onRegistry node' hf node
  rwa [heq] at hset

theorem hosts_setStream (m : Mesh) (id : Nat) (before after : Stream) :
    (m.setStream id before after).hosts = m.hosts := by
  unfold setStream
  dsimp only
  split <;> rfl

/-- Serving changes the registry of the node that serves. -/
theorem registryAt_of_serveAt {op : Operation} (hhosts : m'.hosts = serveAt node' op m.hosts)
    (node : String) : m'.registryAt node =
      (m.registryAt node).map (·.run (if node' = node then [.execute op] else [])) := by
  have hids : ∀ k : Host, (if k.self.id == node' then k.serve op else k).self.id = k.self.id := by
    intro k
    split <;> rfl
  rw [registryAt, registryAt, host?_map (m := m) hids hhosts]
  cases hh : m.host? node with
  | none => rfl
  | some h =>
    have hid := self_of_host? hh
    by_cases hnode : node' = node
    · simp [hid, hnode, Host.serve, Registry.run, Registry.act]
    · simp [hid, hnode, Ne.symm hnode, Registry.run]

/-! ## Calls -/

/-- What was noted of calls tells what has been done to every registry. -/
structure Ran (m m' : Mesh) (events : List CallEvent) : Prop where
  journal : m'.journal = m.journal ++ events
  ids : m'.hosts.map (·.self.id) = m.hosts.map (·.self.id)
  registry : ∀ node, m'.registryAt node = (m.registryAt node).map (·.run (ranOn node events))

theorem Ran.trans (h : Ran m m' events) (h' : Ran m' s events') : Ran m s (events ++ events') := by
  refine ⟨?_, h'.ids.trans h.ids, fun node => ?_⟩
  · rw [h'.journal, h.journal, List.append_assoc]
  · rw [h'.registry, h.registry, Option.map_map, ranOn, ranOn, ranOn, List.filterMap_append]
    congr 1
    funext r
    exact List.foldl_append.symm

/-- Where hosts are what they were nothing was run. -/
theorem ran_of_hosts (hhosts : m'.hosts = m.hosts) (hjournal : m'.journal = m.journal ++ events)
    (hnone : ∀ node, ranOn node events = []) : Ran m m' events := by
  refine ⟨hjournal, by rw [hhosts], fun node => ?_⟩
  rw [registryAt_of_hosts hhosts, hnone]
  exact Option.map_id'.symm

/-- Serving a call runs its operation on the callee, and that is noted. -/
theorem ran_serve {c : PeerCall} (hhosts : m'.hosts = serveAt c.callee.id c.operation m.hosts)
    (hjournal : m'.journal = m.journal ++ events)
    (hran : ∀ node, ranOn node events = ranOn node (ranBy m.hosts c)) : Ran m m' events := by
  refine ⟨hjournal, ?_, fun node => ?_⟩
  · rw [hhosts, serveAt, List.map_map]
    apply List.map_congr_left
    intro h _
    rw [Function.comp_apply]
    split <;> rfl
  · rw [registryAt_of_serveAt hhosts, hran]
    cases hh : m.host? node with
    | none => rw [registryAt, hh]; rfl
    | some h =>
      -- the note is there if the callee is, and it is about the callee alone
      have hnoted : ranOn node (ranBy m.hosts c) =
          if c.callee.id = node then [.execute c.operation] else [] := by
        unfold ranOn ranBy
        by_cases hnode : c.callee.id = node
        · have hsome : m.hosts.find? (·.self.id == c.callee.id) = some h := by
            rw [hnode]
            exact hh
          rw [hsome]
          simp [hnode]
        · split <;> simp [hnode]
      rw [hnoted]

theorem ranOn_append (node : String) (events events' : List CallEvent) :
    ranOn node (events ++ events') = ranOn node events ++ ranOn node events' :=
  List.filterMap_append

/-- The start of a call does what is noted of it. -/
theorem ran_begin (hids : (m.hosts.map (·.self.id)).Nodup) (c : PeerCall) :
    ∃ events, Ran m (m.begin c).1 events := by
  obtain ⟨m', ⟨hbegin, hhosts, hnoted⟩ | ⟨hbegin, hhosts, hnoted⟩, -⟩ := begin_cases hids c
  · rw [hbegin]
    exact ⟨_, ran_serve hhosts hnoted.journal fun node => ranOn_append node _ _⟩
  · rw [hbegin]
    exact ⟨_, ran_of_hosts hhosts hnoted.journal fun _ => rfl⟩

/-- The arrival of a call does what is noted of it. -/
theorem ran_arrive (hids : (m.hosts.map (·.self.id)).Nodup) (c : PeerCall) (link : Link)
    (early : Option Reply) : ∃ events, Ran m (m.arrive c link early).1 events := by
  obtain ⟨m', ⟨r, -, harrive, hhosts, hnoted⟩ | ⟨-, harrive, hhosts, hnoted⟩, -⟩ :=
    arrive_cases hids c link early
  · rw [harrive]
    exact ⟨_, ran_of_hosts hhosts hnoted.journal fun _ => rfl⟩
  · rw [harrive]
    refine ⟨_, ran_serve hhosts hnoted.journal fun node => ?_⟩
    rw [ranOn_append]
    exact List.append_nil _

/-- A mesh in which nothing but timers and the like has changed. -/
theorem Ran.refl_of_hosts (hhosts : m'.hosts = m.hosts) (hjournal : m'.journal = m.journal) :
    Ran m m' [] :=
  ran_of_hosts hhosts (by rw [hjournal, List.append_nil]) fun _ => rfl

/-- An attempt does what is noted of it. -/
theorem ran_attempt (hids : (m.hosts.map (·.self.id)).Nodup) (c : PeerCall) (isSecond : Bool) :
    ∃ events, Ran m (m.attempt c isSecond).1 events := by
  obtain ⟨events, hbegin⟩ := ran_begin hids c
  unfold attempt
  dsimp only
  split
  · obtain ⟨events', harrive⟩ := ran_arrive (hbegin.ids ▸ hids) c (m.begin c).2.1 (m.begin c).2.2
    exact ⟨_, hbegin.trans harrive⟩
  · exact ⟨_, hbegin.trans (.refl_of_hosts rfl rfl)⟩

/-- The end of a call does nothing to a registry. -/
theorem ran_conclude (m : Mesh) (c : PeerCall) (r : Reply) : Ran m (m.conclude c r) [] := by
  unfold conclude
  split
  all_goals
    obtain ⟨gathers, notices, heq⟩ := onGather_frame _ c.gather _
    rw [heq]
    exact .refl_of_hosts rfl rfl

/-- What follows an attempt does what is noted of it. -/
theorem ran_afterAttempt (hids : (m.hosts.map (·.self.id)).Nodup) (c : PeerCall) (isSecond : Bool)
    (r : Reply) : ∃ events, Ran m (m.afterAttempt c isSecond r) events := by
  unfold afterAttempt
  split
  · obtain ⟨events, hattempt⟩ := ran_attempt hids c true
    split
    · next m' r' heq =>
      rw [heq] at hattempt
      exact ⟨_, hattempt.trans (ran_conclude m' c r')⟩
    · next m' heq =>
      rw [heq] at hattempt
      exact ⟨_, hattempt⟩
  · exact ⟨_, ran_conclude m c r⟩

/-- A timer of a call does to registries what is noted of the call. -/
theorem ran_fire (hids : (m.hosts.map (·.self.id)).Nodup) {t : Timer} {c : PeerCall}
    (hc : t.event.call? = some c) : ∃ events, Ran m (m.fire t) events := by
  let popped : Mesh := { m with
    timers := m.timers.filter (·.order != t.order), now := max m.now t.due }
  have hpopped : Ran m popped [] := .refl_of_hosts rfl rfl
  have hfire : m.fire t = popped.perform t.event := rfl
  rw [hfire]
  cases hevent : t.event with
  | call c' =>
    obtain ⟨events, hattempt⟩ := ran_attempt (m := popped) hids c' false
    rw [perform]
    split
    · next m' r heq =>
      rw [heq] at hattempt
      obtain ⟨events', hafter⟩ := ran_afterAttempt (hattempt.ids ▸ hids) c' false r
      exact ⟨_, (hpopped.trans hattempt).trans hafter⟩
    · next m' heq =>
      rw [heq] at hattempt
      exact ⟨_, hpopped.trans hattempt⟩
  | arrival c' isSecond link early =>
    obtain ⟨events, harrive⟩ := ran_arrive (m := popped) hids c' link early
    rw [perform]
    obtain ⟨events', hafter⟩ := ran_afterAttempt (harrive.ids ▸ hids) c' isSecond
      (popped.arrive c' link early).2
    exact ⟨_, (hpopped.trans harrive).trans hafter⟩
  | sweeperStart _ | sweep _ =>
    rw [hevent] at hc
    cases hc

/-! ## Every turn -/

/-- A sweeper that goes off sweeps the registry of its node, unless it was told to stop. -/
theorem registryAt_sweep (m : Mesh) (t : Timer) {w : Sweeper} (ht : t.event = .sweep w)
    (node : String) : (m.fire t).registryAt node = (m.registryAt node).map
      (·.run (if w.node = node ∧ m.isFinished w = false then [.sweep] else [])) := by
  let popped : Mesh := { m with
    timers := m.timers.filter (·.order != t.order), now := max m.now t.due }
  have hfire : m.fire t = popped.runSweep w := by
    unfold fire
    rw [ht]
    rfl
  have hfinished : popped.isFinished w = m.isFinished w := rfl
  rw [hfire, runSweep, hfinished]
  cases m.isFinished w with
  | true =>
    have hsame := registryAt_of_hosts (show popped.hosts = m.hosts from rfl) node
    simp [hsame, Registry.run]
  | false =>
    have hsweep : ∀ r : Registry, (r.sweep).1 = r.run [.sweep] := fun _ => rfl
    have hset := popped.registryAt_onRegistry w.node hsweep node
    rw [if_neg Bool.false_ne_true]
    simp only [and_true]
    exact (registryAt_of_hosts rfl node).trans hset

/-- A dispatch executes its operation on its own node and on no other. -/
theorem registryAt_dispatch (hm : m.Sound) {h : Host} (hh : m.host? node' = some h)
    (inquiry : Inquiry) (node : String) :
    (m.dispatch h inquiry).1.registryAt node = (m.registryAt node).map
      (·.run (if node' = node then [.execute inquiry.operation] else [])) := by
  have hid := self_of_host? hh
  cases hlocal : inquiry.runLocally h.registry with
  | ok result =>
    have hfind := find?_of_host? hh
    obtain ⟨metrics, gathers, hframe⟩ := dispatch_frame hm.hosts hfind hlocal
    rw [← hid]
    exact registryAt_of_serveAt (by rw [hframe]) node
  | error e =>
    -- what is refused changes no registry, so it does not matter that it is not run at all
    have hrefused : ∀ r : Registry, r.run [.execute inquiry.operation] = r := by
      intro r
      show (r.respond inquiry.operation).1 = r
      rw [Registry.fst_respond, Inquiry.runLocally_eq_error_iff.1 hlocal]
      exact if_neg nofun
    have hsame : ∀ r : Registry,
        r.run (if node' = node then [.execute inquiry.operation] else []) = r := by
      intro r
      split
      · exact hrefused r
      · rfl
    rw [registryAt_of_hosts (by rw [m.dispatch_error h hlocal])]
    simp only [hsame]
    exact Option.map_id'.symm

/-- A timer that goes off does to each registry what its deeds say. -/
theorem registryAt_fire (hm : m.Sound) (order : Nat) (node : String) :
    (m.turn (.fire order)).registryAt node =
      (m.registryAt node).map (·.run (m.deeds node (.fire order))) := by
  dsimp only [turn, deeds]
  cases ht : m.timer? order with
  | none => exact registryAt_unchanged rfl node
  | some t =>
    dsimp only [Option.elim_some]
    cases hevent : t.event with
    | sweep w => exact registryAt_sweep m t hevent node
    | sweeperStart w =>
      have hfire : (m.fire t).hosts = m.hosts ∧ (m.fire t).journal = m.journal := by
        unfold fire
        rw [hevent, perform]
        split <;> exact ⟨rfl, rfl⟩
      dsimp only
      rw [hfire.2, List.drop_length]
      exact registryAt_unchanged hfire.1 node
    | call c | arrival c _ _ _ =>
      obtain ⟨events, hran⟩ := ran_fire hm.hosts (t := t) (c := c) (by rw [hevent]; rfl)
      dsimp only
      rw [hran.journal, List.drop_left]
      exact hran.registry node

/-- Opening a stream leaves the hosts with what the registration made of the registry. -/
theorem hosts_openStream (m : Mesh) (h : Host) (owner : Owner) (connectedAt : Instant) :
    (m.openStream h owner connectedAt).1.hosts = (m.setRegistry h.self.id h.registry
      (h.registry.register owner connectedAt (max h.channelCapacity 1)).1).hosts := by
  unfold openStream
  dsimp only
  split <;> rfl

/-- Opening a stream registers a connection at its node and at no other. -/
theorem registryAt_openStream {h : Host} (hh : m.host? node' = some h) (owner : Owner)
    (connectedAt : Instant) (node : String) : (m.openStream h owner connectedAt).1.registryAt node =
      (m.registryAt node).map (·.run (m.deeds node (.openStream node' owner connectedAt))) := by
  let arrives : Registry.Action := .register owner connectedAt (max h.channelCapacity 1)
  have hdeeds : m.deeds node (.openStream node' owner connectedAt) =
      if node' = node then [arrives] else [] := by
    rw [deeds]
    split
    · next hnode => rw [← hnode, hh]; rfl
    · rfl
  have hrun : (h.registry.register owner connectedAt (max h.channelCapacity 1)).1 =
      h.registry.run [arrives] := rfl
  rw [registryAt_of_hosts (m.hosts_openStream h owner connectedAt), self_of_host? hh, hdeeds]
  exact registryAt_put hh h.registry hrun node

/-- Reading a stream is done to the registry of its node and to no other. -/
theorem registryAt_readStream (m : Mesh) (id : Nat) (node : String) :
    (m.turn (.readStream id)).registryAt node =
      (m.registryAt node).map (·.run (m.deeds node (.readStream id))) := by
  dsimp only [turn, deeds, readStream]
  cases m.streams.get? id with
  | none => exact registryAt_unchanged rfl node
  | some s =>
    dsimp only [Option.elim_some]
    cases hh : m.host? s.nodeId with
    | none => exact registryAt_of_none hh _ node
    | some h =>
      have hrun : (s.read h.registry m.now).registry = h.registry.run [.readStream s m.now] := rfl
      dsimp only
      rw [registryAt_of_hosts (hosts_setStream ..)]
      exact registryAt_put hh h.registry hrun node

/-- Dropping a stream is done to the registry of its node and to no other. -/
theorem registryAt_dropStream (m : Mesh) (id : Nat) (node : String) :
    (m.turn (.dropStream id)).registryAt node =
      (m.registryAt node).map (·.run (m.deeds node (.dropStream id))) := by
  dsimp only [turn, deeds, dropStream]
  cases m.streams.get? id with
  | none => exact registryAt_unchanged rfl node
  | some s =>
    dsimp only [Option.elim_some]
    split
    · next m' after heq =>
      rw [registryAt_of_hosts (hosts_setStream ..)]
      exact registryAt_of_onRegistry heq (fun _ => rfl) node
    · next m' heq => exact registryAt_of_onRegistry heq (fun _ => rfl) node

/-- Other members are none of the registries' business. -/
theorem registryAt_setMembers (m : Mesh) (node' : String) (members : List Node) (node : String) :
    (m.turn (.setMembers node' members)).registryAt node =
      (m.registryAt node).map (·.run []) := by
  have hids : ∀ k : Host,
      (if k.self.id == node' then { k with members } else k).self.id = k.self.id := by
    intro k
    split <;> rfl
  rw [turn, registryAt, registryAt, host?_map (m := m) hids rfl, Option.map_map, Option.map_map]
  congr 1
  funext k
  rw [Function.comp_apply]
  split <;> rfl

/-- What a turn does to the registry of a node are its deeds. -/
theorem registryAt_turn (hm : m.Sound) (t : Turn) (node : String) :
    (m.turn t).registryAt node = (m.registryAt node).map (·.run (m.deeds node t)) := by
  cases t with
  | dispatch node' inquiry =>
    dsimp only [turn, deeds]
    cases hh : m.host? node' with
    | none => exact registryAt_of_none hh _ node
    | some h => exact registryAt_dispatch hm hh inquiry node
  | fire order => exact registryAt_fire hm order node
  | operate node' a =>
    have hact : ∀ r : Registry, (r.act a, ()).1 = r.run [a] := fun _ => rfl
    exact m.registryAt_onRegistry node' hact node
  | openStream node' owner connectedAt =>
    rw [turn]
    cases hh : m.host? node' with
    | none => exact registryAt_of_none hh _ node
    | some h => exact registryAt_openStream hh owner connectedAt node
  | readStream id => exact m.registryAt_readStream id node
  | dropStream id => exact m.registryAt_dropStream id node
  | cancel id =>
    refine registryAt_unchanged ?_ node
    dsimp only [turn, cancel]
    split <;> rfl
  | onComplete id label =>
    obtain ⟨gathers, notices, heq⟩ := m.onGather_frame id (·.onComplete label)
    refine registryAt_unchanged ?_ node
    rw [turn, heq]
  | setMembers node' members => exact m.registryAt_setMembers node' members node
  | pass _ | setLinks _ _ | addSweeper _ _ | finishSweepers _ => exact registryAt_unchanged rfl node

/-- What several turns do to the registry of a node are their deeds: by induction on the turns. -/
theorem registryAt_run (hm : m.Sound) (turns : List Turn) (node : String) :
    (m.run turns).registryAt node = (m.registryAt node).map (·.run (deedsIn node m turns)) := by
  induction turns generalizing m with
  | nil => exact Option.map_id'.symm
  | cons t turns ih =>
    have hrest := ih (hm.turn t)
    rw [registryAt_turn hm, Option.map_map] at hrest
    refine hrest.trans ?_
    congr 1
    funext r
    exact List.foldl_append.symm

/-- A host was there before any turns, and its registry has come of its deeds in them. -/
theorem exists_host_of_mem_run (hm : m.Sound) (turns : List Turn) {h : Host}
    (hh : h ∈ (m.run turns).hosts) : ∃ k ∈ m.hosts, k.self.id = h.self.id ∧
      h.registry = k.registry.run (deedsIn h.self.id m turns) := by
  have hregistry := registryAt_of_mem (hm.run turns) hh
  rw [registryAt_run hm] at hregistry
  obtain ⟨r, hr, heq⟩ := Option.map_eq_some_iff.1 hregistry
  obtain ⟨k, hk, rfl⟩ := Option.map_eq_some_iff.1 hr
  exact ⟨k, host?_mem hk, self_of_host? hk, heq.symm⟩

/-- A registry bears the name of its node. -/
theorem Reached.nodeId_eq (hm : m.Reached) {h : Host} (hh : h ∈ m.hosts) :
    h.registry.nodeId = h.self.id := by
  induction hm generalizing h with
  | create _ hregistries _ =>
    obtain ⟨limits, salt, actions, heq⟩ := hregistries h hh
    rw [heq, (Registry.aligned_create h.self.id limits salt).toStored.nodeId_run]
    rfl
  | @turn m hm t ih =>
    obtain ⟨k, hk, hid, heq⟩ := exists_host_of_mem_run hm.sound [t] hh
    rw [heq, (hm.sound.stored k hk).nodeId_run, ih hk, hid]

theorem deedsIn_append (m : Mesh) (node : String) (turns turns' : List Turn) :
    deedsIn node m (turns ++ turns') = deedsIn node m turns ++ deedsIn node (m.run turns) turns' := by
  induction turns generalizing m with
  | nil => rfl
  | cons t turns ih =>
    rw [List.cons_append, deedsIn, deedsIn, ih (m.turn t), List.append_assoc]
    rfl

end PushMesh.Mesh
