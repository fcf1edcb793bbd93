import PushMesh.Proofs.Mesh.Own
import PushMesh.Proofs.Registry.Issued
import Mathlib.Data.List.Dedup

/-!
# Ids that are unique in a mesh

The ids of a node start from a half of a word that no other node has, and as long as each node uses up
fewer than 2³² of them they stay within that half. So no id is used up twice in the whole mesh, and
whichever node is asked, and when, an id stands for one connection of one node (`unique_run`). An
inquiry that goes to connections by their ids runs its operation on every node, and still changes
nothing but these connections (`mem_of_own`). A connection that it closed is gone for good, so it
closes no more of them than it names (`closedIn_le_filter`).
-/

namespace PushMesh

/-- The ids that an inquiry names, if it goes to connections by their ids. -/
def Inquiry.ids? : Inquiry → Option (List ConnectionId)
  | .send (.connection id) _ => some [id]
  | .disconnect (.connection id) => some [id]
  | .disconnect (.connections ids) => some ids
  | _ => none

/-- An inquiry by ids concerns no connection but those that it names. -/
theorem Inquiry.mem_of_concerns {inquiry : Inquiry} {ids : List ConnectionId}
    (hids : inquiry.ids? = some ids) {c : Connection}
    (hc : inquiry.operation.concerns c = true) : c.id ∈ ids := by
  cases inquiry with
  | send a m =>
    cases a with
    | connection id =>
      obtain rfl := Option.some.inj hids
      exact List.mem_singleton.2 (beq_iff_eq.1 hc)
    | key _ _ | keys _ _ | all => cases hids
  | disconnect a =>
    have hcovers : a.covers c = true := by rwa [← a.covers_normalized c]
    cases a with
    | connection id =>
      obtain rfl := Option.some.inj hids
      exact List.mem_singleton.2 (beq_iff_eq.1 hcovers)
    | connections _ =>
      obtain rfl := Option.some.inj hids
      exact List.contains_iff_mem.1 hcovers
    | user _ | token _ => cases hids
  | query _ _ | queryAll | listKeys _ | countKeys _ | count => cases hids

namespace Mesh

variable {m m' : Mesh} {id : ConnectionId} {gather : Nat} {node : String} {turns : List Turn}
  {l : List ConnectionId} {place : ConnectionId → String}

/-- The connection that an id stands for at a node, registered or not. -/
def connectionAt (m : Mesh) (node : String) (id : ConnectionId) : Option Connection :=
  (m.registryAt node).bind (·.handle? id)

/-- All that is known of an id at a node. -/
def entryAt (m : Mesh) (node : String) (id : ConnectionId) :
    Option (Option Connection × Option Connection) :=
  (m.registryAt node).map (·.entry id)

/-- Whether a connection was registered at a node once and is so no more. -/
def goneAt (m : Mesh) (node : String) (id : ConnectionId) : Bool :=
  (m.registryAt node).any fun r => (r.handle? id).isSome && !r.registered.contains id

/-- A connection is gone at a node iff it is gone in its registry. -/
theorem goneAt_iff : m.goneAt node id = true ↔ ∃ r, m.registryAt node = some r ∧ r.Gone id := by
  have hregistered : ∀ r : Registry, r.registered.contains id = false ↔ id ∉ r.registered := by
    intro r
    rw [← Bool.not_eq_true, Ascending.contains_iff]
  simp only [goneAt, Option.any_eq_true, Bool.and_eq_true, Bool.not_eq_true', hregistered]
  rfl

/-! ## As long as ids are new -/

/-- Whether there are enough ids for some turns, so that none of them comes up again. -/
def Roomy (m : Mesh) (turns : List Turn) : Prop :=
  ∀ node r, m.registryAt node = some r →
    ∃ salt n, Registry.Numbered salt n r ∧ n + r.handedOut (deedsIn node m turns) ≤ 2 ^ 64

/-- Enough ids for several turns are enough for those after the first. -/
theorem Roomy.turn {t : Turn} (h : m.Roomy (t :: turns)) (hm : m.Sound) :
    (m.turn t).Roomy turns := by
  intro node s hs
  rw [registryAt_turn hm] at hs
  obtain ⟨r, hr, rfl⟩ := Option.map_eq_some_iff.1 hs
  obtain ⟨salt, n, hnumbered, hn⟩ := h node r hr
  rw [deedsIn, Registry.handedOut_append, ← Nat.add_assoc] at hn
  exact ⟨salt, _, hnumbered.run _ (by omega), hn⟩

/-- Enough ids for several turns are enough for those at the end. -/
theorem Roomy.run {past : List Turn} (h : m.Roomy (past ++ turns)) (hm : m.Sound) :
    (m.run past).Roomy turns := by
  induction past generalizing m with
  | nil => exact h
  | cons t past ih => exact ih (h.turn hm) (hm.turn t)

/-- What is known of a node's registry before a turn holds after it, in its registry then. -/
theorem Roomy.exists_registryAt {t : Turn} (h : m.Roomy (t :: turns)) (hm : m.Sound) {r : Registry}
    (hr : m.registryAt node = some r) : ∃ salt n, Registry.Numbered salt n r ∧
      n + r.handedOut (m.deeds node t) ≤ 2 ^ 64 ∧
      (m.turn t).registryAt node = some (r.run (m.deeds node t)) := by
  obtain ⟨salt, n, hnumbered, hn⟩ := h node r hr
  rw [deedsIn, Registry.handedOut_append] at hn
  refine ⟨salt, n, hnumbered, by omega, ?_⟩
  rw [registryAt_turn hm, hr]
  rfl

/-- A connection stays known in a turn, with the same id and owner. -/
theorem Roomy.exists_twin_turn {t : Turn} (h : m.Roomy (t :: turns)) (hm : m.Sound) {c : Connection}
    (hc : m.connectionAt node id = some c) :
    ∃ d, (m.turn t).connectionAt node id = some d ∧ d.Twins c := by
  obtain ⟨r, hr, hc⟩ := Option.bind_eq_some_iff.1 hc
  obtain ⟨salt, n, hnumbered, hn, hafter⟩ := h.exists_registryAt hm hr
  obtain ⟨d, hd, htwins⟩ := hnumbered.exists_twin_run _ hn hc
  refine ⟨d, ?_, htwins⟩
  rw [connectionAt, hafter]
  exact hd

/-- An id stands for the same connection at all later moments: by induction on the turns. -/
theorem Roomy.exists_twin {past : List Turn} (h : m.Roomy (past ++ turns)) (hm : m.Sound)
    {c : Connection} (hc : m.connectionAt node id = some c) :
    ∃ d, (m.run past).connectionAt node id = some d ∧ d.Twins c := by
  induction past generalizing m c with
  | nil => exact ⟨c, hc, .refl c⟩
  | cons t past ih =>
    obtain ⟨d, hd, htwins⟩ := h.exists_twin_turn hm hc
    obtain ⟨e, he, htwins'⟩ := ih (h.turn hm) (hm.turn t) hd
    exact ⟨e, he, htwins'.trans htwins⟩

/-- A connection that is gone stays so in a turn. -/
theorem Roomy.goneAt_turn {t : Turn} (h : m.Roomy (t :: turns)) (hm : m.Sound)
    (hgone : m.goneAt node id = true) : (m.turn t).goneAt node id = true := by
  obtain ⟨r, hr, hgone⟩ := goneAt_iff.1 hgone
  obtain ⟨salt, n, hnumbered, hn, hafter⟩ := h.exists_registryAt hm hr
  exact goneAt_iff.2 ⟨_, hafter, hnumbered.gone_run _ hn hgone⟩

/-- Who is not gone yet has not been gone before. -/
theorem Roomy.not_goneAt {t : Turn} (h : m.Roomy (t :: turns)) (hm : m.Sound)
    (hnot : (!(m.turn t).goneAt node id) = true) : (!m.goneAt node id) = true := by
  cases hgone : m.goneAt node id with
  | false => rfl
  | true =>
    rw [h.goneAt_turn hm hgone] at hnot
    cases hnot

/-! ## Connections that leave in a turn -/

/-- The connections that are registered at a node of a mesh and no longer in another mesh. -/
def leaversAt (m m' : Mesh) (node : String) : List ConnectionId :=
  ((m.registryAt node).elim [] (·.registered.toList)).filter fun id =>
    !(m'.registryAt node).any (·.registered.contains id)

/-- The connections that are registered in a mesh and no longer in another one, node by node. -/
def leavers (m m' : Mesh) : List ConnectionId :=
  (m.hosts.map (·.self.id)).flatMap (m.leaversAt m')

/-- What leaves a node is registered there before and not after. -/
theorem mem_leaversAt : id ∈ m.leaversAt m' node ↔ ∃ r, m.registryAt node = some r ∧
    id ∈ r.registered ∧ ∀ s, m'.registryAt node = some s → id ∉ s.registered := by
  have hleft : (!(m'.registryAt node).any (·.registered.contains id)) = true ↔
      ∀ s, m'.registryAt node = some s → id ∉ s.registered := by
    cases m'.registryAt node with
    | none => simp
    | some s =>
      rw [Option.any_some, Bool.not_eq_true', ← Bool.not_eq_true, Ascending.contains_iff]
      simp
  rw [leaversAt, List.mem_filter, hleft]
  cases m.registryAt node with
  | none => simp
  | some r => simp [Ascending.mem_def]

/-- No connection leaves twice at once. -/
theorem nodup_leaversAt (m m' : Mesh) (node : String) : (m.leaversAt m' node).Nodup := by
  apply List.Nodup.filter
  cases m.registryAt node with
  | none => exact List.nodup_nil
  | some r => exact Ascending.nodup _

/-- Connections that are missing after a turn are among those that left in it. -/
theorem heldOn_le_leavers (hm : m.Sound) (t : Turn) :
    heldOn m.hosts ≤ heldOn (m.turn t).hosts + (m.leavers (m.turn t)).length := by
  rw [heldOn_eq hm, heldOn_eq (hm.turn t), (evolved_turn hm t).ids, leavers, List.length_flatMap,
    ← List.sum_map_add]
  apply List.sum_le_sum
  intro node hnode
  obtain ⟨h, hh, rfl⟩ := List.mem_map.1 hnode
  rw [leaversAt, registryAt_turn hm, registryAt_of_mem hm hh]
  simp only [Option.elim_some, Option.map_some, Option.any_some]
  generalize h.registry.run (m.deeds h.self.id t) = s
  -- whoever is registered is so still, or is one of those that left
  have hsplit := List.length_eq_length_filter_add (l := h.registry.registered.toList)
    fun id => s.registered.contains id
  have hstays : (h.registry.registered.toList.filter fun id => s.registered.contains id).length ≤
      s.registered.toList.length := by
    apply ((Ascending.nodup _).filter _).subperm ?_ |>.length_le
    intro id hid
    exact Ascending.mem_def.1 (Ascending.contains_iff.1 (List.mem_filter.1 hid).2)
  simp only [Registry.count, Ascending.size]
  omega

/-- Where a turn changes nothing but what is known of certain ids, each at one node, whatever leaves in
it has one of these ids, and is gone only then. -/
theorem leaves_of_mem {t : Turn} (h : m.Roomy (t :: turns)) (hm : m.Sound)
    (hchanged : ∀ node id, (m.turn t).entryAt node id ≠ m.entryAt node id →
      id ∈ l ∧ node = place id) (hid : id ∈ m.leaversAt (m.turn t) node) :
    id ∈ l ∧ node = place id ∧ m.goneAt node id = false ∧ (m.turn t).goneAt node id = true := by
  obtain ⟨r, hr, hid, hleft⟩ := mem_leaversAt.1 hid
  obtain ⟨salt, n, hnumbered, hn, hafter⟩ := h.exists_registryAt hm hr
  obtain ⟨c, hc⟩ := hnumbered.pooled id hid
  obtain ⟨d, hd, -⟩ := hnumbered.exists_twin_run _ hn hc
  have hdiffers : (m.turn t).entryAt node id ≠ m.entryAt node id := by
    rw [entryAt, entryAt, hafter, hr]
    intro hsame
    have hget : (r.run (m.deeds node t)).get? id = r.get? id :=
      congrArg Prod.snd (Option.some.inj hsame)
    rw [Registry.get?_eq_some_iff.2 ⟨hid, hc⟩] at hget
    exact hleft _ hafter (Registry.get?_eq_some_iff.1 hget).1
  obtain ⟨hmem, hplace⟩ := hchanged node id hdiffers
  refine ⟨hmem, hplace, ?_, ?_⟩
  · rw [← Bool.not_eq_true, goneAt_iff]
    rintro ⟨s, hs, hgone⟩
    obtain rfl := Option.some.inj (hr.symm.trans hs)
    exact hgone.2 hid
  · exact goneAt_iff.2 ⟨_, hafter, by rw [hd]; rfl, hleft _ hafter⟩

/-- What leaves in such a turn makes the ids fewer that are not gone yet. -/
theorem length_leavers_le {t : Turn} (h : m.Roomy (t :: turns)) (hm : m.Sound) (hl : l.Nodup)
    (hchanged : ∀ node id, (m.turn t).entryAt node id ≠ m.entryAt node id →
      id ∈ l ∧ node = place id) :
    (m.leavers (m.turn t)).length + (l.filter fun id => !(m.turn t).goneAt (place id) id).length ≤
      (l.filter fun id => !m.goneAt (place id) id).length := by
  have hleaves : ∀ node id, id ∈ m.leaversAt (m.turn t) node → id ∈ l ∧ node = place id ∧
      m.goneAt node id = false ∧ (m.turn t).goneAt node id = true :=
    fun node id hid => leaves_of_mem h hm hchanged hid
  have hnodup : (m.leavers (m.turn t)).Nodup := by
    rw [leavers, List.nodup_flatMap]
    refine ⟨fun node _ => m.nodup_leaversAt _ node, hm.hosts.imp fun hne id hid hid' => hne ?_⟩
    -- an id leaves at its place, so no two nodes have one in common
    exact (hleaves _ id hid).2.1.trans (hleaves _ id hid').2.1.symm
  have hapart : ∀ id ∈ m.leavers (m.turn t), id ∉ l.filter fun id =>
      !(m.turn t).goneAt (place id) id := by
    intro id hid hstays
    obtain ⟨node, -, hid⟩ := List.mem_flatMap.1 hid
    obtain ⟨-, rfl, -, hgone⟩ := hleaves node id hid
    have hnot := (List.mem_filter.1 hstays).2
    rw [hgone] at hnot
    cases hnot
  rw [← List.length_append]
  refine (List.subperm_of_subset ?_ ?_).length_le
  · exact hnodup.append (hl.filter _) hapart
  · intro id hid
    rcases List.mem_append.1 hid with hid | hid
    · obtain ⟨node, -, hid⟩ := List.mem_flatMap.1 hid
      obtain ⟨hmem, rfl, hnot, -⟩ := hleaves node id hid
      exact List.mem_filter.2 ⟨hmem, by rw [hnot]; rfl⟩
    · obtain ⟨hmem, hnot⟩ := List.mem_filter.1 hid
      exact List.mem_filter.2 ⟨hmem, h.not_goneAt hm hnot⟩

/-- The turns of a gather close no more connections than are not gone yet, where they change nothing
else: by induction on the turns, as nobody who is gone comes back. -/
theorem closedIn_le_filter (hm : m.Sound) (h : m.Roomy turns) (hl : l.Nodup)
    (hchanged : ∀ done t, done ++ [t] <+: turns → (m.run done).isOwn gather t = true →
      ∀ node id, (m.run (done ++ [t])).entryAt node id ≠ (m.run done).entryAt node id →
        id ∈ l ∧ node = place id) :
    closedIn gather m turns ≤ (l.filter fun id => !m.goneAt (place id) id).length := by
  induction turns generalizing m with
  | nil => exact Nat.zero_le _
  | cons t turns ih =>
    have hrest := ih (hm.turn t) (h.turn hm) fun done u hdone hown =>
      hchanged (t :: done) u (List.cons_prefix_cons.2 ⟨rfl, hdone⟩) hown
    rw [closedIn, overOwn]
    cases hown : m.isOwn gather t with
    | true =>
      have hfirst := length_leavers_le h hm hl
        (hchanged [] t (List.cons_prefix_cons.2 ⟨rfl, List.nil_prefix⟩) hown)
      have hheld := heldOn_le_leavers hm t
      rw [closedIn] at hrest
      rw [if_pos rfl]
      omega
    | false =>
      have hfewer : (l.filter fun id => !(m.turn t).goneAt (place id) id).length ≤
          (l.filter fun id => !m.goneAt (place id) id).length := by
        rw [← List.countP_eq_length_filter, ← List.countP_eq_length_filter]
        exact List.countP_mono_left fun id _ => h.not_goneAt hm
      rw [if_neg Bool.false_ne_true, Nat.zero_add]
      exact Nat.le_trans hrest hfewer

/-! ## The turns of an inquiry by ids -/

/-- A turn of a dispatch does nothing to registries but run the operation that was dispatched. -/
theorem eq_execute_of_prefix (hm : m.Sound) {h : Host} (hh : m.host? node = some h)
    {inquiry : Inquiry} {later done : List Turn} {t : Turn}
    (hdone : done ++ [t] <+: .dispatch node inquiry :: later)
    (hown : (m.run done).isOwn m.nextId t = true) (node' : String) :
    ∀ a ∈ (m.run done).deeds node' t, a = .execute inquiry.operation := by
  cases done with
  | nil =>
    obtain ⟨rfl, -⟩ := List.cons_prefix_cons.1 hdone
    exact m.eq_execute_of_dispatch node inquiry node'
  | cons u done =>
    obtain ⟨rfl, -⟩ := List.cons_prefix_cons.1 hdone
    -- the dispatch binds its gather to the operation, and the turns since then leave it so
    have hs : (m.turn (.dispatch node inquiry)).Sound := hm.turn _
    have hlt := lt_nextId_dispatch hm hh inquiry
    have hbound := (bound_dispatch hm hh inquiry).run hs hlt done
    exact eq_execute_of_own hbound (hs.run done) (lt_nextId_run hs hlt done) hown node'

/-- A turn of an inquiry by ids changes only what is known of these ids, and only where they stand for
a connection. -/
theorem mem_of_own (hm : m.Sound) {h : Host} (hh : m.host? node = some h) {inquiry : Inquiry}
    {ids : List ConnectionId} (hids : inquiry.ids? = some ids) {later done : List Turn} {t : Turn}
    (hroomy : m.Roomy (.dispatch node inquiry :: later))
    (hdone : done ++ [t] <+: .dispatch node inquiry :: later)
    (hown : (m.run done).isOwn m.nextId t = true) {node' : String}
    (hchanged : (m.run (done ++ [t])).entryAt node' id ≠ (m.run done).entryAt node' id) :
    id ∈ ids ∧ ∃ c, (m.run done).connectionAt node' id = some c := by
  have hs : (m.run done).Sound := hm.run done
  have hrun : m.run (done ++ [t]) = (m.run done).turn t := List.foldl_append
  have hexecute := eq_execute_of_prefix hm hh hdone hown node'
  obtain ⟨rest, hrest⟩ := hdone
  have hleft : (m.run done).Roomy (t :: rest) := by
    apply Roomy.run _ hm
    rwa [List.append_cons, hrest]
  rw [hrun] at hchanged
  cases hr : (m.run done).registryAt node' with
  | none => exact absurd (by rw [entryAt, entryAt, registryAt_turn hs, hr]; rfl) hchanged
  | some r =>
    obtain ⟨salt, n, hnumbered, -, hafter⟩ := hleft.exists_registryAt hs hr
    by_contra hnone
    -- otherwise the operation concerns no connection of this id
    have hfree : ∀ c, r.get? id = some c → inquiry.operation.concerns c = false := by
      intro c hc
      have hknown := (Registry.get?_eq_some_iff.1 hc).2
      rw [← Bool.not_eq_true]
      intro hconcerns
      have hmem := Inquiry.mem_of_concerns hids hconcerns
      rw [hnumbered.keyed id c hknown] at hmem
      exact hnone ⟨hmem, c, by rw [connectionAt, hr]; exact hknown⟩
    apply hchanged
    rw [entryAt, entryAt, hafter, hr]
    exact congrArg some (Registry.entry_run_execute hnumbered.toAligned hexecute hfree)

/-! ## From the start on -/

/-- Hosts that start without connections, each from the start of a half of a word of its own. -/
structure Apart (hosts : List Host) : Prop where
  ids : (hosts.map (·.self.id)).Nodup
  empty : ∀ h ∈ hosts, ∃ limits salt, h.registry = .create h.self.id limits salt
  halves : ∀ h ∈ hosts, 2 ^ 32 ∣ h.registry.lastId.toNat
  salts : (hosts.map (·.registry.lastId)).Nodup

/-- The ids that turns use up at a host. -/
def issuedIn (m : Mesh) (turns : List Turn) (h : Host) : List ConnectionId :=
  (h.registry.along Registry.issued (deedsIn h.self.id m turns)).flatten

/-- What the turns of an inquiry by ids do, from its dispatch on. -/
structure Pinpoints (m : Mesh) (turns : List Turn) (ids : List ConnectionId) : Prop where
  /-- Each of them changes nothing but what is known of the ids, and of each id at one node alone. -/
  place : ∃ place : ConnectionId → String, ∀ done t, done ++ [t] <+: turns →
    (m.run done).isOwn m.nextId t = true → ∀ node id,
      (m.run (done ++ [t])).entryAt node id ≠ (m.run done).entryAt node id →
        id ∈ ids ∧ node = place id
  /-- Together they close no more connections than there are different ids. -/
  closed : closedIn m.nextId m turns ≤ ids.dedup.length

/-- What is known of the ids of connections after any turns from the start on. -/
structure Unique (hosts : List Host) (links : Table String (List Link)) (turns : List Turn) :
    Prop where
  /-- The ids of a node follow its salt one by one, and never wrap around. -/
  counted : ∀ h ∈ hosts, ((create hosts links).issuedIn turns h).map (·.toNat) =
    List.range' (h.registry.lastId.toNat + 1)
      (h.registry.handedOut (deedsIn h.self.id (create hosts links) turns))
  /-- No id is used up twice, be it at one node or at two. -/
  distinct : (hosts.flatMap ((create hosts links).issuedIn turns)).Nodup
  /-- Whoever joins has an id of its own among them. -/
  joined : ∀ h ∈ hosts,
    ((h.registry.along Registry.joined (deedsIn h.self.id (create hosts links) turns)).flatten).Sublist
      ((create hosts links).issuedIn turns h)
  /-- Wherever and whenever an id stands for a connection, it is the same one. -/
  owner : ∀ past past' node node' id c c', past <+: turns → past' <+: turns →
    ((create hosts links).run past).connectionAt node id = some c →
    ((create hosts links).run past').connectionAt node' id = some c' → node = node' ∧ c.Twins c'
  inquiries : ∀ past node inquiry later ids h, past ++ .dispatch node inquiry :: later = turns →
    ((create hosts links).run past).host? node = some h → inquiry.ids? = some ids →
    ((create hosts links).run past).Pinpoints (.dispatch node inquiry :: later) ids

variable {hosts : List Host} {links : Table String (List Link)}

/-- A new mesh of hosts with different ids is sound. -/
theorem Apart.sound (h : Apart hosts) (links : Table String (List Link)) :
    (create hosts links).Sound := by
  refine sound_create h.ids (fun g hg => ?_) links
  obtain ⟨limits, salt, heq⟩ := h.empty g hg
  rw [heq]
  exact (Registry.aligned_create g.self.id limits salt).toStored

/-- The registry of a node at any moment is that of a host after a run. -/
theorem Apart.exists_host (h : Apart hosts) {past : List Turn} {r : Registry}
    (hr : ((create hosts links).run past).registryAt node = some r) :
    ∃ g ∈ hosts, g.self.id = node ∧
      r = g.registry.run (deedsIn node (create hosts links) past) := by
  rw [registryAt_run (h.sound links)] at hr
  obtain ⟨r₀, hr₀, rfl⟩ := Option.map_eq_some_iff.1 hr
  obtain ⟨g, hg, rfl⟩ := Option.map_eq_some_iff.1 hr₀
  exact ⟨g, host?_mem hg, self_of_host? hg, rfl⟩

/-- The registry of a host starts from its salt. -/
theorem Apart.counted (h : Apart hosts) {g : Host} (hg : g ∈ hosts) : ∃ limits,
    Registry.Counted g.self.id limits g.registry.lastId 0 g.registry ∧
      Registry.Numbered g.registry.lastId 0 g.registry := by
  obtain ⟨limits, salt, heq⟩ := h.empty g hg
  rw [heq]
  exact ⟨limits, Registry.counted_create .., Registry.numbered_create ..⟩

/-- There is room for fewer than 2³² ids after a salt. -/
theorem Apart.salt_add_lt (h : Apart hosts) {g : Host} (hg : g ∈ hosts) {n : Nat}
    (hn : n < 2 ^ 32) : g.registry.lastId.toNat + n < 2 ^ 64 := by
  obtain ⟨half, hhalf⟩ := h.halves g hg
  have hlt := g.registry.lastId.toNat_lt
  omega

/-- Two hosts that have ids of the same half are the same. -/
theorem Apart.eq_of_half (h : Apart hosts) {g g' : Host} (hg : g ∈ hosts) (hg' : g' ∈ hosts)
    (hlt : g.registry.lastId.toNat < id.toNat) (hle : id.toNat < g.registry.lastId.toNat + 2 ^ 32)
    (hlt' : g'.registry.lastId.toNat < id.toNat)
    (hle' : id.toNat < g'.registry.lastId.toNat + 2 ^ 32) : g = g' := by
  apply List.inj_on_of_nodup_map h.salts hg hg'
  apply UInt64.toNat_inj.1
  obtain ⟨half, hhalf⟩ := h.halves g hg
  obtain ⟨half', hhalf'⟩ := h.halves g' hg'
  omega

variable {turns : List Turn}

/-- Whoever hands out fewer than 2³² ids has room for them at every moment. -/
theorem Apart.roomy (h : Apart hosts)
    (hhanded : ∀ g ∈ hosts,
      g.registry.handedOut (deedsIn g.self.id (create hosts links) turns) < 2 ^ 32) :
    (create hosts links).Roomy turns := by
  intro node r hr
  have hstart : ((create hosts links).run []).registryAt node = some r := hr
  obtain ⟨g, hg, rfl, rfl⟩ := h.exists_host hstart
  obtain ⟨limits, -, hnumbered⟩ := h.counted hg
  have hn := hhanded g hg
  exact ⟨_, 0, hnumbered, by rw [Nat.zero_add]; exact Nat.le_trans (Nat.le_of_lt hn) (by decide)⟩

/-- An id that stands for a connection at a node is of the half of that node. -/
theorem Apart.bounds (h : Apart hosts)
    (hhanded : ∀ g ∈ hosts,
      g.registry.handedOut (deedsIn g.self.id (create hosts links) turns) < 2 ^ 32)
    {past : List Turn} (hpast : past <+: turns) {c : Connection}
    (hc : ((create hosts links).run past).connectionAt node id = some c) :
    ∃ g ∈ hosts, g.self.id = node ∧ g.registry.lastId.toNat < id.toNat ∧
      id.toNat < g.registry.lastId.toNat + 2 ^ 32 := by
  obtain ⟨r, hr, hc⟩ := Option.bind_eq_some_iff.1 hc
  obtain ⟨g, hg, rfl, rfl⟩ := h.exists_host hr
  obtain ⟨limits, hcounted, -⟩ := h.counted hg
  obtain ⟨later, rfl⟩ := hpast
  have hn := hhanded g hg
  rw [deedsIn_append, Registry.handedOut_append] at hn
  have hroom := h.salt_add_lt hg hn
  have hrun := hcounted.run (deedsIn g.self.id (create hosts links) past) (by omega)
  have hlt := UInt64.lt_iff_toNat_lt.1 (hrun.salt_lt id c hc)
  have hle := UInt64.le_iff_toNat_le.1 (hrun.consistent.le_lastId id c hc)
  rw [hrun.lastId_eq] at hle
  exact ⟨g, hg, rfl, hlt, by omega⟩

/-- The ids that turns use up at a host are of its half. -/
theorem Apart.bounds_issuedIn (h : Apart hosts) {g : Host} (hg : g ∈ hosts)
    (hhanded : g.registry.handedOut (deedsIn g.self.id (create hosts links) turns) < 2 ^ 32)
    (hid : id ∈ (create hosts links).issuedIn turns g) :
    g.registry.lastId.toNat < id.toNat ∧ id.toNat < g.registry.lastId.toNat + 2 ^ 32 := by
  obtain ⟨limits, hcounted, -⟩ := h.counted hg
  have hroom := h.salt_add_lt hg hhanded
  have hbounds := hcounted.mem_issued_run (by rwa [Nat.zero_add]) hid
  omega

/-- An id stands for one connection at all nodes and at all moments. -/
theorem Apart.owner (h : Apart hosts)
    (hhanded : ∀ g ∈ hosts,
      g.registry.handedOut (deedsIn g.self.id (create hosts links) turns) < 2 ^ 32)
    {past past' : List Turn} (hpast : past <+: turns) (hpast' : past' <+: turns) {node' : String}
    {c c' : Connection} (hc : ((create hosts links).run past).connectionAt node id = some c)
    (hc' : ((create hosts links).run past').connectionAt node' id = some c') :
    node = node' ∧ c.Twins c' := by
  obtain ⟨g, hg, rfl, hlt, hle⟩ := h.bounds hhanded hpast hc
  obtain ⟨g', hg', rfl, hlt', hle'⟩ := h.bounds hhanded hpast' hc'
  obtain rfl := h.eq_of_half hg hg' hlt hle hlt' hle'
  refine ⟨rfl, ?_⟩
  -- the earlier of the two connections is still there at the later moment
  have hlater : ∀ {before after : List Turn} {d e : Connection}, before <+: after →
      after <+: turns → ((create hosts links).run before).connectionAt g.self.id id = some d →
      ((create hosts links).run after).connectionAt g.self.id id = some e → e.Twins d := by
    rintro before after d e ⟨mid, rfl⟩ ⟨rest, rfl⟩ hd he
    have hroomy := h.roomy hhanded
    rw [List.append_assoc] at hroomy
    obtain ⟨e', he', htwins⟩ := (hroomy.run (h.sound links)).exists_twin
      ((h.sound links).run before) hd
    rw [← run_append] at he'
    obtain rfl := Option.some.inj (he.symm.trans he')
    exact htwins
  rcases List.prefix_or_prefix_of_prefix hpast hpast' with hbefore | hafter
  · exact (hlater hbefore hpast' hc hc').symm
  · exact hlater hafter hpast hc' hc

/-- Where an id stands for a connection at one node only, an inquiry by ids does at most one thing for
each of them. -/
theorem Apart.pinpoints (h : Apart hosts)
    (hhanded : ∀ g ∈ hosts,
      g.registry.handedOut (deedsIn g.self.id (create hosts links) turns) < 2 ^ 32)
    {past later : List Turn} {inquiry : Inquiry} (hturns : past ++ .dispatch node inquiry :: later = turns)
    {g : Host} (hh : ((create hosts links).run past).host? node = some g)
    {ids : List ConnectionId} (hids : inquiry.ids? = some ids) :
    ((create hosts links).run past).Pinpoints (.dispatch node inquiry :: later) ids := by
  have hm := (h.sound links).run past
  have hroomy : ((create hosts links).run past).Roomy (.dispatch node inquiry :: later) := by
    apply Roomy.run _ (h.sound links)
    rw [hturns]
    exact h.roomy hhanded
  -- the place of an id is the node where it ever stands for a connection
  have hplaces : ∀ id : ConnectionId, ∃ place : String, ∀ past' node' c, past' <+: turns →
      ((create hosts links).run past').connectionAt node' id = some c → node' = place := by
    intro id
    by_cases hknown : ∃ past' node' c, past' <+: turns ∧
        ((create hosts links).run past').connectionAt node' id = some c
    · obtain ⟨past', node', c, hpast, hc⟩ := hknown
      exact ⟨node', fun _ _ _ hpast' hc' => (h.owner hhanded hpast' hpast hc' hc).1⟩
    · exact ⟨"", fun past' node' c hpast hc => absurd ⟨past', node', c, hpast, hc⟩ hknown⟩
  choose place hplace using hplaces
  have hown : ∀ done t, done ++ [t] <+: .dispatch node inquiry :: later →
      (((create hosts links).run past).run done).isOwn ((create hosts links).run past).nextId t =
        true → ∀ node' id,
      (((create hosts links).run past).run (done ++ [t])).entryAt node' id ≠
        (((create hosts links).run past).run done).entryAt node' id →
      id ∈ ids ∧ node' = place id := by
    intro done t hdone hown node' id hchanged
    obtain ⟨hmem, c, hc⟩ := mem_of_own hm hh hids hroomy hdone hown hchanged
    rw [← run_append] at hc
    refine ⟨hmem, hplace id _ node' c ?_ hc⟩
    rw [← hturns, List.prefix_append_right_inj]
    exact (List.prefix_append done [t]).trans hdone
  have hclosed : closedIn ((create hosts links).run past).nextId ((create hosts links).run past)
      (.dispatch node inquiry :: later) ≤ (ids.dedup.filter fun id =>
        !((create hosts links).run past).goneAt (place id) id).length := by
    refine closedIn_le_filter hm hroomy ids.nodup_dedup fun done t hdone ht node' id hchanged => ?_
    obtain ⟨hmem, hnode⟩ := hown done t hdone ht node' id hchanged
    exact ⟨List.mem_dedup.2 hmem, hnode⟩
  exact ⟨⟨place, hown⟩, Nat.le_trans hclosed (List.length_filter_le _ _)⟩

/-- **Ids are unique in a mesh and over time.** Let nodes start without connections, each from the
start of a half of a word of its own, and let anything happen to them in any order: clients come and go
and are refused, inquiries are dispatched and run by peers, calls are lost and repeated. If no node
uses up 2³² ids, an id is used up once in the whole mesh, those of a node go up one by one, and an id
stands for one connection of one node whenever it stands for any. A send or a disconnect by an id
touches that connection alone, and a disconnect by several ids closes no more connections than there
are different ids among them. -/
theorem unique_run (h : Apart hosts) (links : Table String (List Link)) (turns : List Turn)
    (hhanded : ∀ g ∈ hosts,
      g.registry.handedOut (deedsIn g.self.id (create hosts links) turns) < 2 ^ 32) :
    Unique hosts links turns where
  counted g hg := by
    obtain ⟨limits, hcounted, -⟩ := h.counted hg
    exact hcounted.issued_run _ (by rw [Nat.zero_add]; exact h.salt_add_lt hg (hhanded g hg))
  distinct := by
    rw [List.nodup_flatMap]
    constructor
    · intro g hg
      obtain ⟨limits, hcounted, -⟩ := h.counted hg
      apply List.Nodup.of_map (·.toNat)
      rw [issuedIn, hcounted.issued_run _
        (by rw [Nat.zero_add]; exact h.salt_add_lt hg (hhanded g hg))]
      exact List.nodup_range'
    · -- the ids of two nodes lie in different halves
      refine (List.Nodup.of_map _ h.ids).imp_of_mem fun hg hg' hne id hid hid' => hne ?_
      obtain ⟨hlt, hle⟩ := h.bounds_issuedIn hg (hhanded _ hg) hid
      obtain ⟨hlt', hle'⟩ := h.bounds_issuedIn hg' (hhanded _ hg') hid'
      exact h.eq_of_half hg hg' hlt hle hlt' hle'
  joined g hg := by
    obtain ⟨limits, hcounted, -⟩ := h.counted hg
    exact hcounted.joined_sublist_run _
      (by rw [Nat.zero_add]; exact h.salt_add_lt hg (hhanded g hg))
  owner _ _ _ _ _ _ _ hpast hpast' hc hc' := h.owner hhanded hpast hpast' hc hc'
  inquiries _ _ _ _ _ _ hturns hh hids := h.pinpoints hhanded hturns hh hids

/-- Clients of two nodes that come, are refused, leave and come again, and then a message and a farewell
by their ids, some of them repeated or nobody's. -/
def revolvingDoor : List Turn :=
  [.operate "a" (.register ⟨some "u", none, []⟩ default 1),
    .operate "a" (.register ⟨some "u", none, []⟩ default 1),
    .operate "b" (.register ⟨some "u", none, []⟩ default 1), .operate "a" (.unregister 1),
    .operate "a" (.register ⟨some "u", none, []⟩ default 1),
    .dispatch "a" (.send (.connection (Registry.saltOf 1 + 1)) ⟨none, .null, none⟩), .fire 0,
    .dispatch "b" (.disconnect (.connections [3, Registry.saltOf 1 + 1, 3, 7])), .fire 1]

/-- Ids that are used up at two nodes, one of them in vain. -/
theorem unique_run_revolvingDoor :
    let a := { Host.standard "a" "host:1" [.peer "b" "host:2"] with
      registry := .create "a" ⟨8, 1⟩ (Registry.saltOf 0) }
    let b := { Host.standard "b" "host:2" [.peer "a" "host:1"] with
      registry := .create "b" ⟨8, 1⟩ (Registry.saltOf 1) }
    let m := create [a, b] ∅
    Apart [a, b] ∧
      (∀ h ∈ [a, b], h.registry.handedOut (deedsIn h.self.id m revolvingDoor) < 2 ^ 32) ∧
      [a, b].map (m.issuedIn revolvingDoor) = [[1, 2, 3], [Registry.saltOf 1 + 1]] ∧
      closedIn 2 m revolvingDoor = 2 ∧ Unique [a, b] ∅ revolvingDoor := by
  intro a b m
  have hapart : Apart [a, b] := by
    refine ⟨by decide, fun h hh => ?_, by decide, by decide⟩
    simp only [List.mem_cons, List.not_mem_nil, or_false] at hh
    rcases hh with rfl | rfl
    · exact ⟨_, _, rfl⟩
    · exact ⟨_, _, rfl⟩
  have hhanded : ∀ h ∈ [a, b],
      h.registry.handedOut (deedsIn h.self.id m revolvingDoor) < 2 ^ 32 := by
    intro h hh
    simp only [List.mem_cons, List.not_mem_nil, or_false] at hh
    rcases hh with rfl | rfl
    · decide
    · decide
  exact ⟨hapart, hhanded, by decide, by decide, unique_run hapart ∅ revolvingDoor hhanded⟩

end Mesh

end PushMesh
