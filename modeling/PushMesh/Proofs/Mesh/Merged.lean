import PushMesh.Proofs.Mesh.Healthy

/-!
# A healthy mesh is one merged registry

Where a node knows all others, the links to them are prompt and nothing else goes on, a dispatch
results in what one registry would answer that held the connections of all nodes (`merged_run`). It
runs as any healthy dispatch does. What is left is that the callees are all nodes but the one that
asks (`Host.KnowsAll.perm_peers`), that a dispatch starts healthy (`healthy_dispatch`), and that the
answers of its end are merged to the right one (`Healthy.merged`).
-/

namespace PushMesh

/-- Whether the members that a host knows are the nodes of a mesh, in any order and any number of
times, with all others among them. -/
structure Host.KnowsAll (h : Host) (hosts : List Host) : Prop where
  flags : ∀ n ∈ h.members, n.isSelf = false
  known : ∀ n ∈ h.members, ∃ k ∈ hosts,
    n.id = k.self.id ∧ n.endpointKey = k.self.endpointKey
  lists : ∀ k ∈ hosts, k.self.id ≠ h.self.id → ∃ n ∈ h.members,
    n.id = k.self.id ∧ n.endpointKey = k.self.endpointKey

/-- The peers of a host that knows all are all other nodes. -/
theorem Host.KnowsAll.perm_peers {h : Host} {hosts : List Host} (hknows : h.KnowsAll hosts)
    (hh : h ∈ hosts) (hids : (hosts.map (·.self.id)).Nodup)
    (hendpoints : (hosts.map (·.self.endpointKey)).Nodup) :
    (h.self.id :: h.peers.map (·.id)).Perm (hosts.map (·.self.id)) := by
  have hpeers := Membership.peersOf_remotePeers h.self h.members
  have hendpoint : ∀ {k k' : Host}, k ∈ hosts → k' ∈ hosts →
      k.self.endpointKey = k'.self.endpointKey → k = k' :=
    fun hk hk' heq => List.inj_on_of_nodup_map hendpoints hk hk' heq
  -- both lists are free of repetitions, so it is enough that they have the same members
  refine (List.perm_ext_iff_of_nodup (List.nodup_cons.2 ⟨hpeers.away, hpeers.ids⟩) hids).2 fun i => ?_
  rw [List.mem_cons]
  constructor
  · rintro (rfl | hi)
    · exact List.mem_map.2 ⟨h, hh, rfl⟩
    · obtain ⟨p, hp, rfl⟩ := List.mem_map.1 hi
      obtain ⟨k, hk, hid, -⟩ := hknows.known p (hpeers.mem p hp)
      exact List.mem_map.2 ⟨k, hk, hid.symm⟩
  · intro hi
    obtain ⟨k, hk, rfl⟩ := List.mem_map.1 hi
    by_cases hself : k.self.id = h.self.id
    · exact .inl hself
    · -- another node is listed, so it is a peer or a peer stands for it
      refine .inr ?_
      obtain ⟨n, hn, hid, hkey⟩ := hknows.lists k hk hself
      have hother : n.sameEndpoint h.self = false := by
        refine beq_eq_false_iff_ne.2 fun heq => hself ?_
        rw [hendpoint hk hh (hkey.symm.trans heq)]
      obtain ⟨p, hp, hsame⟩ := hpeers.covers n hn (hknows.flags n hn) (hid ▸ hself) hother
      refine List.mem_map.2 ⟨p, hp, ?_⟩
      rcases hsame with hsame | hsame
      · exact hsame.trans hid
      · -- a peer with the endpoint of a node is that node
        obtain ⟨k', hk', hid', hkey'⟩ := hknows.known p (hpeers.mem p hp)
        rw [hid', hendpoint hk' hk (hkey'.symm.trans ((beq_iff_eq.1 hsame).trans hkey))]

namespace Mesh

/-- What a healthy dispatch of an inquiry from a host results in. -/
structure Merged (hosts : List Host) (h : Host) (inquiry : Inquiry) (r : Gathered) : Prop where
  failures : r.failures = []
  pending : r.pending = []
  isPartial : r.isPartial = false
  responded : ∃ others, r.responded = h.self.id :: others ∧
    (h.self.id :: others).Perm (hosts.map (·.self.id))
  /-- The value is the answer of all nodes together. -/
  value : inquiry.Answers hosts r.value
  /-- A count of keys counts a key once, however many nodes it is in use on. -/
  distinct : ∀ kind (keys : List String), inquiry = .countKeys kind → keys.Nodup →
    (∀ key, key ∈ keys ↔ Inquiry.InUse kind hosts key) → r.value.size = keys.length

variable {x : Setup} {hosts : List Host} {g : Gather} {answers : List (String × Tally)}
  {ran : String → Bool} {left : Nat} {m s : Mesh} {h : Host} {inquiry : Inquiry} {own : Tally}

/-! ## The start -/

/-- A dispatch is healthy at the start, with two steps left for each call. -/
theorem healthy_dispatch (hm : m.Sound) (hh : m.hosts.find? (·.self.id == h.self.id) = some h)
    {r : Registry} (hlocal : inquiry.runLocally h.registry = .ok (r, own))
    (hnode : h.registry.nodeId = h.self.id)
    (hlinks : ∀ p ∈ h.peers, ∀ l ∈ linksTo m.links p.id, l.Prompt h.config.requestTimeout) :
    ∃ g ran, Healthy (m.setupOf h inquiry own) m.hosts g [] ran (2 * h.peers.length)
      (m.dispatch h inquiry).1 := by
  obtain ⟨metrics, gathers, heq⟩ := dispatch_frame hm.hosts hh hlocal
  obtain ⟨g, hkept, -, hfailures, hout⟩ := kept_dispatch hm hh hlocal
  have hpage := fun c hc => page_dispatch_of_mem hm hh hlocal (c := c) hc
  refine ⟨g, (· == h.self.id), ⟨hkept, hfailures, ?_, ?_, ?_, nofun⟩, ?_, ?_⟩
  · rw [heq]
    rfl
  · exact beq_iff_eq.2 hnode
  · intro c hc l hl
    rw [heq] at hl
    exact hlinks c.callee (callee_mem_peers hc) l hl
  · intro c hc
    show Place _ _ g _ c ((m.dispatch h inquiry).1.page m.nextId c.callee.id).due
    rw [hpage c hc]
    have hpeers := Membership.peersOf_remotePeers h.self h.members
    have hother := (hpeers.other c.callee (callee_mem_peers hc)).2.1
    exact .queued (hout c hc) (beq_eq_false_iff_ne.2 hother)
  · show _ = ((m.callsOf h inquiry).map fun c =>
      stepsOf ((m.dispatch h inquiry).1.page m.nextId c.callee.id).due).sum
    -- each call is queued, and a queued call has two steps left
    have htwo : ∀ c ∈ m.callsOf h inquiry,
        stepsOf ((m.dispatch h inquiry).1.page m.nextId c.callee.id).due = 2 := by
      intro c hc
      rw [hpage c hc]
      rfl
    rw [List.map_congr_left htwo, List.map_const', List.sum_replicate_nat,
      ← m.callee_callsOf h inquiry, List.length_map, Nat.mul_comm]

/-- The calls of a healthy dispatch go to nodes that are there and accept them. -/
theorem sane_setupOf (hm : m.Sound) {r : Registry}
    (hlocal : inquiry.runLocally h.registry = .ok (r, own))
    (hnode : h.registry.nodeId = h.self.id)
    (hpeers : (h.self.id :: h.peers.map (·.id)).Perm (m.hosts.map (·.self.id))) :
    (m.setupOf h inquiry own).Sane m.hosts := by
  have hcallee : ∀ c ∈ m.callsOf h inquiry, c.callee.id ∈ h.peers.map (·.id) :=
    fun c hc => List.mem_map.2 ⟨c.callee, callee_mem_peers hc, rfl⟩
  refine ⟨m.valid_setupOf h inquiry own, hm.hosts, (Inquiry.runLocally_eq_ok_iff.1 hlocal).1, ?_, ?_,
    ?_, fun k _ => inquiry.exists_ofOutput k.registry⟩
  · intro c hc
    have hmem := hpeers.mem_iff.1 (List.mem_cons_of_mem _ (hcallee c hc))
    exact List.mem_map.1 hmem
  · intro c hc heq
    have hnew := (List.nodup_cons.1 (hpeers.nodup_iff.2 hm.hosts)).1
    have hsame : h.self.id = c.callee.id := hnode.symm.trans heq
    exact hnew (hsame ▸ hcallee c hc)
  · show Ascending.ofList (h.peers.map (·.id)) = .ofList ((m.callsOf h inquiry).map (·.callee.id))
    rw [callee_id_callsOf]

/-! ## The end -/

/-- Nobody but a callee is awaited. -/
theorem Kept.exists_call (h : Kept x g answers m) (hx : x.Sane hosts) {node : String}
    (hout : node ∈ g.outstanding) : ∃ c ∈ x.calls, c.callee.id = node := by
  have haway : x.node ∉ x.peers := by
    rw [hx.peers, Ascending.mem_ofList]
    intro hmem
    obtain ⟨c, hc, heq⟩ := List.mem_map.1 hmem
    exact hx.away c hc heq.symm
  have hpeer := h.accounts.mem_peers haway hout
  rw [hx.peers, Ascending.mem_ofList] at hpeer
  exact List.mem_map.1 hpeer

/-- While a healthy dispatch runs, a timer of it has still to go off. -/
theorem Healthy.exists_timer (hx : x.Sane hosts) (h : Healthy x hosts g answers ran left m)
    (hrunning : g.isDone = false) : ∃ t ∈ m.timers, Timer.isFor x.id t = true := by
  have hempty : g.outstanding.isEmpty = false := by
    rw [← Bool.not_eq_true, ← h.accounts.completed_iff]
    intro hphase
    rw [Gather.isDone, hphase] at hrunning
    cases hrunning
  obtain ⟨node, hout⟩ := Ascending.isEmpty_eq_false_iff.1 hempty
  obtain ⟨c, hc, rfl⟩ := h.toKept.exists_call hx hout
  have hdue : (m.page x.id c.callee.id).due ≠ [] := by
    have hplace := h.place c hc
    generalize (m.page x.id c.callee.id).due = due at hplace ⊢
    cases hplace with
    | queued _ _ | trying _ _ _ => exact List.cons_ne_nil _ _
    | settled hsettled _ => exact absurd hout hsettled
  obtain ⟨t, ht, hfor, -⟩ := exists_timer_of_due hdue
  exact ⟨t, ht, hfor⟩

/-- A healthy dispatch that is done has run on every callee. -/
theorem Healthy.ran_callee (h : Healthy x hosts g answers ran left m) (hdone : g.isDone = true)
    {c : PeerCall} (hc : c ∈ x.calls) : ran c.callee.id = true := by
  have hnobody := (h.toKept.completed hdone).2
  have hplace := h.place c hc
  generalize (m.page x.id c.callee.id).due = due at hplace
  cases hplace with
  | queued hout _ | trying hout _ _ => exact absurd hout (hnobody _)
  | settled _ hran => exact hran

/-- In a healthy dispatch that is done all nodes have responded. -/
theorem Healthy.perm_responded (hx : (m.setupOf h inquiry own).Sane hosts)
    (hnode : h.registry.nodeId = h.self.id)
    (hpeers : (h.self.id :: h.peers.map (·.id)).Perm (hosts.map (·.self.id)))
    (hhealthy : Healthy (m.setupOf h inquiry own) hosts g answers ran left s)
    (hdone : g.isDone = true) :
    (h.self.id :: answers.map (·.1)).Perm (hosts.map (·.self.id)) := by
  have hnobody : g.outstanding.toList = [] :=
    List.eq_nil_iff_forall_not_mem.2 (hhealthy.toKept.completed hdone).2
  have hplaces := hhealthy.accounts.places
  rw [hhealthy.accounts.responded, hhealthy.failures, hnobody, List.map_nil, List.append_nil,
    List.append_nil] at hplaces
  have hpeersOf : (Ascending.ofList (h.peers.map (·.id))).toList.Perm (h.peers.map (·.id)) :=
    Ascending.perm_ofList (List.nodup_cons.1 (hpeers.nodup_iff.2 hx.ids)).2
  rw [← hnode] at hpeers ⊢
  exact (hplaces.trans (hpeersOf.cons _)).trans hpeers

/-- The answers of a healthy dispatch, with the nodes that gave them. -/
theorem Faring.exists_hosts (h : Faring x hosts g answers ran m) :
    ∃ l : List (Host × Tally), l.map (fun a => (a.1.self.id, a.2)) = answers ∧
      ∀ a ∈ l, a.1 ∈ hosts ∧
        Tally.ofOutput x.kind (a.1.registry.perform x.operation).2 = .ok a.2 := by
  have hanswers := h.answers
  clear h
  induction answers with
  | nil => exact ⟨[], rfl, nofun⟩
  | cons a answers ih =>
    obtain ⟨⟨k, hk, hid, ht⟩, hrest⟩ := List.forall_mem_cons.1 hanswers
    obtain ⟨l, hl, hall⟩ := ih hrest
    refine ⟨(k, a.2) :: l, ?_, List.forall_mem_cons.2 ⟨⟨hk, ht⟩, hall⟩⟩
    rw [List.map_cons, hl, hid]

/-- A list of hosts is one of all nodes as soon as the ids are. -/
theorem perm_of_perm_ids (hids : (hosts.map (·.self.id)).Nodup) {l : List Host}
    (hl : ∀ k ∈ l, k ∈ hosts) (hperm : (l.map (·.self.id)).Perm (hosts.map (·.self.id))) :
    l.Perm hosts := by
  have hnodup : l.Nodup := (hperm.nodup_iff.2 hids).of_map
  refine (List.perm_ext_iff_of_nodup hnodup hids.of_map).2 fun k => ⟨hl k, fun hk => ?_⟩
  obtain ⟨k', hk', hid⟩ := List.mem_map.1 (hperm.mem_iff.2 (List.mem_map.2 ⟨k, hk, rfl⟩))
  have hsame : k' = k := List.inj_on_of_nodup_map hids (hl k' hk') hk hid
  exact hsame ▸ hk'

/-- The nodes that answered in a healthy dispatch that is done, with their answers: all nodes but the
one that asked. -/
theorem Healthy.exists_nodes (hids : (hosts.map (·.self.id)).Nodup) (hh : h ∈ hosts)
    (hhealthy : Healthy (m.setupOf h inquiry own) hosts g answers ran left s)
    (hall : (h.self.id :: answers.map (·.1)).Perm (hosts.map (·.self.id))) :
    ∃ l : List (Host × Tally), (h :: l.map (·.1)).Perm hosts ∧
      g.value = own.mergeAll (l.map (·.2)) ∧ ∀ a ∈ l, a.1 ∈ hosts ∧
        Tally.ofOutput inquiry.kind (a.1.registry.perform inquiry.operation).2 = .ok a.2 := by
  obtain ⟨l, hl, hfrom⟩ := hhealthy.toFaring.exists_hosts
  refine ⟨l, perm_of_perm_ids hids ?_ ?_, ?_, hfrom⟩
  · intro k hk
    rcases List.mem_cons.1 hk with rfl | hk
    · exact hh
    · obtain ⟨a, ha, rfl⟩ := List.mem_map.1 hk
      exact (hfrom a ha).1
  · rw [← hl, List.map_map] at hall
    rw [List.map_cons, List.map_map]
    exact hall
  · rw [hhealthy.accounts.value, ← hl, List.foldl_map, Tally.mergeAll, List.foldl_map]
    rfl

/-- What the nodes of a healthy dispatch bring together. -/
theorem Healthy.merged (hx : (m.setupOf h inquiry own).Sane hosts) (hh : h ∈ hosts)
    (hgrown : ∀ k ∈ hosts, k.registry.Grown k.self.id)
    (hapart : hosts.Pairwise fun h k => ∀ id ∈ h.registry.registered, id ∉ k.registry.registered)
    {r : Registry} (hlocal : inquiry.runLocally h.registry = .ok (r, own))
    (hpeers : (h.self.id :: h.peers.map (·.id)).Perm (hosts.map (·.self.id)))
    (hhealthy : Healthy (m.setupOf h inquiry own) hosts g answers ran left s)
    (hdone : g.isDone = true) : Merged hosts h inquiry g.snapshot := by
  have hnode : h.registry.nodeId = h.self.id := (hgrown h hh).nodeId_eq
  have hall := hhealthy.perm_responded hx hnode hpeers hdone
  obtain ⟨l, hnodes, hvalue, hfrom⟩ := hhealthy.exists_nodes hx.ids hh hall
  have hfit := Inquiry.held_lt hgrown hapart
  have hanswer : ∀ k ∈ hosts, ∀ t,
      Tally.ofOutput inquiry.kind (k.registry.perform inquiry.operation).2 = .ok t →
        inquiry.Answers [k] t := by
    intro k hk t ht
    refine Inquiry.answers_of_host (hgrown k hk).consistent.toAligned (hgrown k hk).nodeId_eq ?_ ht
    exact Nat.lt_of_le_of_lt (Inquiry.length_roster_le_held hk) hfit
  -- the order in which the answers came is forgotten only here
  have hanswers : inquiry.Answers hosts g.value := by
    have hown := hanswer h hh own (Inquiry.runLocally_eq_ok_iff.1 hlocal).2.2
    rw [hvalue]
    refine (Inquiry.answers_mergeAll hown (fun a ha => ?_) ?_ ?_).perm hnodes
    · exact hanswer a.1 (hfrom a ha).1 a.2 (hfrom a ha).2
    · exact (hnodes.map _).nodup_iff.2 hx.ids
    · exact (Inquiry.held_perm hnodes).trans_lt hfit
  have hfailures : g.snapshot.failures = [] := hhealthy.failures
  have hpending : g.snapshot.pending = [] :=
    List.eq_nil_iff_forall_not_mem.2 (hhealthy.toKept.completed hdone).2
  refine ⟨hfailures, hpending, ?_, ⟨answers.map (·.1), ?_, hall⟩, hanswers, ?_⟩
  · rw [Gathered.isPartial, hpending, hfailures]
    rfl
  · rw [← hnode]
    exact hhealthy.accounts.responded
  · rintro kind keys rfl hkeys hmem
    exact hanswers.size_countKeys hkeys hmem

/-- A healthy dispatch that is done has run the operation on every node. -/
theorem Healthy.hosts_eq_map (hnode : h.registry.nodeId = h.self.id)
    (hpeers : (h.self.id :: h.peers.map (·.id)).Perm (hosts.map (·.self.id)))
    (hhealthy : Healthy (m.setupOf h inquiry own) hosts g answers ran left s)
    (hdone : g.isDone = true) : s.hosts = hosts.map (·.serve inquiry.operation) := by
  rw [hhealthy.hosts_eq]
  refine List.map_congr_left fun k hk => if_pos ?_
  have hid : k.self.id ∈ h.self.id :: h.peers.map (·.id) :=
    hpeers.mem_iff.2 (List.mem_map.2 ⟨k, hk, rfl⟩)
  rcases List.mem_cons.1 hid with hself | hpeer
  · rw [hself, ← hnode]
    exact hhealthy.ran_node
  · rw [← m.callee_id_callsOf h inquiry] at hpeer
    obtain ⟨c, hc, heq⟩ := List.mem_map.1 hpeer
    rw [← heq]
    exact hhealthy.ran_callee hdone hc

/-- A healthy dispatch that is done has the gather's books as its outcome. -/
theorem Healthy.outcome_eq (h : Healthy x hosts g answers ran left m) (hdone : g.isDone = true) :
    m.outcome x.id = .ok g.snapshot := by
  have hphase := (h.toKept.completed hdone).1
  rw [outcome, h.gather]
  simp only [Gather.expired, Gather.outcome?, hphase]

/-- A dispatch is done iff its gather is. -/
theorem Healthy.isDone_eq (h : Healthy x hosts g answers ran left m) : m.isDone x.id = g.isDone := by
  rw [isDone, h.gather]
  rfl

/-! ## The result -/

/-- **A healthy mesh is one merged registry.** Let the nodes of a mesh have different ids and
endpoints, and registries that came about in any way but have no connection id in common. Let a node
that knows all others dispatch an operation that it accepts, over links that let calls through in
time, and let nothing but the calls of the dispatch go on, their timers going off in any order. Then
at most two timers go off for each peer, and one is left until the dispatch is done. Once it is done
every node has run the operation, nobody failed, nobody is awaited, all have responded, and the value
is the answer of all nodes together. -/
theorem merged_run (hm : m.Reached) (hgrown : ∀ k ∈ m.hosts, k.registry.Grown k.self.id)
    (hapart : m.hosts.Pairwise fun h k => ∀ id ∈ h.registry.registered, id ∉ k.registry.registered)
    (hendpoints : (m.hosts.map (·.self.endpointKey)).Nodup) {node : String}
    (hh : m.host? node = some h) (hknows : h.KnowsAll m.hosts)
    (hlinks : ∀ p ∈ h.peers, ∀ l ∈ linksTo m.links p.id, l.Prompt h.config.requestTimeout)
    {r : Registry} (hlocal : inquiry.runLocally h.registry = .ok (r, own)) {after : List Turn} :
    let id := (m.dispatch h inquiry).2
    let start := m.turn (.dispatch node inquiry)
    let s := start.run after
    AttendsAll id start after →
      fired id start after ≤ 2 * h.peers.length ∧
      (s.isDone id = false → ∃ t ∈ s.timers, Timer.isFor id t = true) ∧
      (s.isDone id = true → s.hosts = m.hosts.map (·.serve inquiry.operation) ∧
        ∃ result, s.outcome id = .ok result ∧ Merged m.hosts h inquiry result) := by
  intro id start s hafter
  have hm : m.Sound := hm.sound
  have hmem : h ∈ m.hosts := host?_mem hh
  have hnode : h.registry.nodeId = h.self.id := (hgrown h hmem).nodeId_eq
  have hfind : m.hosts.find? (·.self.id == h.self.id) = some h := find?_of_mem hm.hosts hmem
  have hstart : start = (m.dispatch h inquiry).1 := turn_dispatch hh inquiry
  have hid : id = m.nextId := snd_dispatch hlocal
  have hpeers := hknows.perm_peers hmem hm.hosts hendpoints
  have hsane := sane_setupOf hm hlocal hnode hpeers
  -- a healthy dispatch stays so through its own turns, which use up its steps
  obtain ⟨g₀, ran₀, hhealthy₀⟩ := healthy_dispatch hm hfind hlocal hnode hlinks
  rw [← hstart] at hhealthy₀
  rw [hid] at hafter ⊢
  obtain ⟨g, answers, ran, left, hhealthy, hfired⟩ := hhealthy₀.run hsane (hm.turn _) hafter
  have hdone : s.isDone m.nextId = g.isDone := hhealthy.isDone_eq
  rw [hdone]
  refine ⟨Nat.le_trans (Nat.le_add_right _ left) hfired, hhealthy.exists_timer hsane, fun hg => ?_⟩
  exact ⟨hhealthy.hosts_eq_map hnode hpeers hg, g.snapshot, hhealthy.outcome_eq hg,
    hhealthy.merged hsane hmem hgrown hapart hlocal hpeers hg⟩

/-- A mesh of two nodes, where a client is connected to the second one and calls to it take a while.
The first one lists the second one twice, and itself. -/
def pair : Mesh :=
  let client : Registry.Action := .register ⟨some "u", none, ["x"]⟩ default 8
  let registry := (Registry.create "b" .standard (Registry.saltOf 7)).run [client]
  create
    [.standard "a" "host:1" [.peer "b" "host:2", .peer "a" "host:1", .peer "b" "host:2"],
      { Host.standard "b" "host:2" [] with registry }]
    ((∅ : Table String (List Link)).insert "b" [⟨40, .runs, true⟩])

/-- The first node finds the client of the second one. -/
theorem merged_run_pair :
    let a := Host.standard "a" "host:1"
      [.peer "b" "host:2", .peer "a" "host:1", .peer "b" "host:2"]
    let inquiry : Inquiry := .query .user "u"
    let after : List Turn := [.fire 0, .pass 7, .fire 1]
    let id := (pair.dispatch a inquiry).2
    let start := pair.turn (.dispatch "a" inquiry)
    pair.Reached ∧ (∀ k ∈ pair.hosts, k.registry.Grown k.self.id) ∧
      (pair.hosts.Pairwise fun h k =>
        ∀ id ∈ h.registry.registered, id ∉ k.registry.registered) ∧
      (pair.hosts.map (·.self.endpointKey)).Nodup ∧ pair.host? "a" = some a ∧
      a.KnowsAll pair.hosts ∧
      (∀ p ∈ a.peers, ∀ l ∈ linksTo pair.links p.id, l.Prompt a.config.requestTimeout) ∧
      inquiry.runLocally a.registry = .ok (a.registry, .connections ∅) ∧
      AttendsAll id start after ∧ (start.run after).isDone id = true ∧
      ((start.run after).hosts = pair.hosts.map (·.serve inquiry.operation) ∧
        ∃ result, (start.run after).outcome id = .ok result ∧
          Merged pair.hosts a inquiry result) := by
  intro a inquiry after id start
  have hids : (pair.hosts.map (·.self.id)).Nodup := by decide
  have hgrown : ∀ k ∈ pair.hosts, k.registry.Grown k.self.id := by
    intro k hk
    simp only [pair, create, List.mem_cons, List.not_mem_nil, or_false] at hk
    rcases hk with rfl | rfl
    · exact ⟨.standard, 0, [], by decide, rfl⟩
    · exact ⟨.standard, Registry.saltOf 7, [.register ⟨some "u", none, ["x"]⟩ default 8],
        by decide, rfl⟩
  have hm : pair.Reached := by
    refine .create hids (fun k hk => ?_) _
    obtain ⟨limits, salt, actions, -, heq⟩ := hgrown k hk
    exact ⟨limits, salt, actions, heq⟩
  -- the first node holds nobody, so there is no id to share
  have hapart : pair.hosts.Pairwise fun h k =>
      ∀ id ∈ h.registry.registered, id ∉ k.registry.registered := by
    refine List.pairwise_cons.2 ⟨fun _ _ id hid => ?_, List.pairwise_singleton _ _⟩
    exact absurd hid Ascending.not_mem_empty
  have hendpoints : (pair.hosts.map (·.self.endpointKey)).Nodup := by decide
  have hh : pair.host? "a" = some a := rfl
  have hknows : a.KnowsAll pair.hosts := ⟨by decide, by decide, by decide⟩
  -- the only other node is reached by the one link that is set up
  have hlinks : ∀ p ∈ a.peers, ∀ l ∈ linksTo pair.links p.id, l.Prompt a.config.requestTimeout := by
    have hpeers : a.peers = [.peer "b" "host:2"] := by decide
    have hlink : linksTo pair.links "b" = [⟨40, .runs, true⟩] := rfl
    rw [hpeers]
    intro p hp l hl
    obtain rfl := List.mem_singleton.1 hp
    obtain rfl := List.mem_singleton.1 (hlink ▸ hl)
    exact ⟨rfl, by decide⟩
  have hlocal : inquiry.runLocally a.registry = .ok (a.registry, .connections ∅) := rfl
  have hafter : AttendsAll id start after := ⟨rfl, trivial, rfl, trivial⟩
  have hdone : (start.run after).isDone id = true := by decide
  exact ⟨hm, hgrown, hapart, hendpoints, hh, hknows, hlinks, hlocal, hafter, hdone,
    (merged_run hm hgrown hapart hendpoints hh hknows hlinks hlocal hafter).2.2 hdone⟩

end Mesh

end PushMesh
