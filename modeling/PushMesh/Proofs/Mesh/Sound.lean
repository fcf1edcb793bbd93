import PushMesh.Proofs.Mesh.Calls
import PushMesh.Proofs.Registry.Run

/-!
# Sound meshes

`Sound` says that the names in a mesh mean something: hosts have different ids, timers different
orders, and the calls under way, the journal and the gathers agree on which call is whose.

Everything that happens to a mesh is made of a few kinds of small changes, which `Evolved` lists. It
also says whose calls and gathers they touch. So two facts follow for all of them at once: a sound
mesh stays sound (`Evolved.sound`), and a gather that is not touched is left alone, with its calls
(`Evolved.undisturbed`).
-/

namespace PushMesh

/-- The call that something due belongs to. -/
def Event.call? : Event → Option PeerCall
  | .call c => some c
  | .arrival c .. => some c
  | .sweeperStart _ => none
  | .sweep _ => none

/-- Whether a timer belongs to a call of a gather. -/
def Timer.isFor (id : Nat) (t : Timer) : Bool :=
  t.event.call?.any (·.gather == id)

/-- A timer is for a gather iff it is that of one of its calls. -/
theorem Timer.isFor_iff {id : Nat} {t : Timer} :
    Timer.isFor id t = true ↔ ∃ c, t.event.call? = some c ∧ c.gather = id := by
  simp [Timer.isFor, Option.any_eq_true]

/-- Whether something happened to a call of a gather. -/
def CallEvent.isFor (id : Nat) (e : CallEvent) : Bool :=
  e.call.gather == id

namespace Mesh

/-- Whether a call is one of its gather: its names have been given out, and no other gather tracks
its task. -/
structure Knows (m : Mesh) (c : PeerCall) : Prop where
  gather_lt : c.gather < m.nextId
  task_lt : c.task < m.nextId
  home : ∀ id g, m.gather? id = some g → c.task ∈ g.tasks → id = c.gather

/-- The names in a mesh mean something. -/
structure Sound (m : Mesh) : Prop where
  hosts : (m.hosts.map (·.self.id)).Nodup
  stored : ∀ h ∈ m.hosts, h.registry.Stored
  orders : (m.timers.map (·.order)).Nodup
  order_lt : ∀ t ∈ m.timers, t.order < m.nextOrder
  known : ∀ t ∈ m.timers, ∀ c, t.event.call? = some c → m.Knows c
  journal_lt : ∀ e ∈ m.journal, e.call.gather < m.nextId
  task_lt : ∀ id g, m.gather? id = some g → ∀ task ∈ g.tasks, task < m.nextId

/-- What an operation that has nothing to do with calls and gathers does to a mesh. -/
structure Quiet (m m' : Mesh) : Prop where
  work : m'.work = m.work
  nextId : m.nextId ≤ m'.nextId
  links : ∀ node, linksTo m'.links node ⊆ linksTo m.links node
  hosts : m'.hosts.map (·.self.id) = m.hosts.map (·.self.id)
  stored : (∀ h ∈ m.hosts, h.registry.Stored) → ∀ h ∈ m'.hosts, h.registry.Stored

/-- What has become of a mesh by small changes, where the gathers that are touched, or whose calls are,
have the property `p`, and links that are new the property `q`. -/
inductive Evolved (p : Nat → Prop) (q : Link → Prop) (m : Mesh) : Mesh → Prop where
  | refl : Evolved p q m m
  | quiet {s s' : Mesh} (hs : Evolved p q m s) (h : Quiet s s') : Evolved p q m s'
  | setLinks {s : Mesh} (hs : Evolved p q m s) (callee : String) {links : List Link}
      (h : ∀ l ∈ links, q l) : Evolved p q m (s.setLinks callee links)
  | note {s : Mesh} (hs : Evolved p q m s) {e : CallEvent} (he : s.Knows e.call)
      (hp : p e.call.gather) : Evolved p q m (s.note e)
  /-- Something becomes due. -/
  | schedule {s : Mesh} (hs : Evolved p q m s) (delay : Nat) {event : Event}
      (h : ∀ c, event.call? = some c → s.Knows c ∧ p c.gather) :
      Evolved p q m (s.schedule delay event)
  /-- Time passes, and timers go. -/
  | filter {s : Mesh} (hs : Evolved p q m s) (now : Nat) (keep : Timer → Bool)
      (h : ∀ t ∈ s.timers, keep t = false → ∀ c, t.event.call? = some c → p c.gather) :
      Evolved p q m { s with timers := s.timers.filter keep, now }
  /-- A gather changes, but tracks no more calls. -/
  | onGather {s : Mesh} (hs : Evolved p q m s) {id : Nat}
      {f : Gather → Gather × List Gather.Notice} (hf : ∀ g, (f g).1.tasks ⊆ g.tasks)
      (hp : p id ∨ ∀ g, g.SameBooks (f g).1 ∧ (f g).1.phase = g.phase) :
      Evolved p q m (s.onGather id f)
  | addGather {s : Mesh} (hs : Evolved p q m s) {g : Gather} (hg : g.tasks = []) :
      Evolved p q m (s.addGather g).1
  /-- A call is set up. -/
  | spawn {s : Mesh} (hs : Evolved p q m s) {id : Nat} (hp : p id) (hid : id < s.nextId)
      (caller : Host) (inquiry : Inquiry) (peer : Node) :
      Evolved p q m (s.spawn id caller inquiry peer)

namespace Evolved

variable {p : Nat → Prop} {q : Link → Prop} {m m' s : Mesh}

theorem trans (hm : Evolved p q m m') (hs : Evolved p q m' s) : Evolved p q m s := by
  induction hs with
  | refl => exact hm
  | quiet _ h ih => exact ih.quiet h
  | setLinks _ callee h ih => exact ih.setLinks callee h
  | note _ he hp ih => exact ih.note he hp
  | schedule _ delay h ih => exact ih.schedule delay h
  | filter _ now keep h ih => exact ih.filter now keep h
  | onGather _ hf hp ih => exact ih.onGather hf hp
  | addGather _ hg ih => exact ih.addGather hg
  | spawn _ hp hid caller inquiry peer ih => exact ih.spawn hp hid caller inquiry peer

/-- No name is given out twice. -/
theorem nextId_le (hs : Evolved p q m s) : m.nextId ≤ s.nextId := by
  induction hs with
  | refl => exact Nat.le_refl _
  | quiet _ h ih => exact Nat.le_trans ih h.nextId
  | setLinks _ _ _ ih => exact ih
  | note _ _ _ ih => exact ih
  | schedule _ _ _ ih => exact ih
  | filter _ _ _ _ ih => exact ih
  | @onGather s _ id f _ _ ih =>
    obtain ⟨gathers, notices, heq⟩ := s.onGather_frame id f
    rw [heq]
    exact ih
  | addGather _ _ ih => exact Nat.le_succ_of_le ih
  | @spawn s _ id _ _ caller inquiry peer ih =>
    obtain ⟨gathers, heq⟩ := s.spawn_frame id caller inquiry peer
    rw [heq]
    exact Nat.le_succ_of_le ih

end Evolved

/-! ## Names given out stay -/

/-- A known call stays known while no gather comes to track its task. -/
theorem Knows.mono {m m' : Mesh} {c : PeerCall} (h : m.Knows c) (hle : m.nextId ≤ m'.nextId)
    (htasks : ∀ id g', m'.gather? id = some g' → c.task ∈ g'.tasks →
      id = c.gather ∨ ∃ g, m.gather? id = some g ∧ c.task ∈ g.tasks) : m'.Knows c where
  gather_lt := Nat.lt_of_lt_of_le h.gather_lt hle
  task_lt := Nat.lt_of_lt_of_le h.task_lt hle
  home id g' hg' htask := by
    rcases htasks id g' hg' htask with rfl | ⟨g, hg, hmem⟩
    · rfl
    · exact h.home id g hg hmem

/-- A known call stays known where gathers are what they were. -/
theorem Knows.of_gathers {m m' : Mesh} {c : PeerCall} (h : m.Knows c) (hle : m.nextId ≤ m'.nextId)
    (hgathers : ∀ id, m'.gather? id = m.gather? id) : m'.Knows c := by
  refine h.mono hle fun id g' hg' htask => .inr ⟨g', ?_, htask⟩
  rw [← hgathers]
  exact hg'

/-- Where a gather is changed, the tasks that gathers track are old ones. -/
theorem tasks_onGather {m : Mesh} {id : Nat} {f : Gather → Gather × List Gather.Notice}
    (hf : ∀ g, (f g).1.tasks ⊆ g.tasks) {id' : Nat} {g' : Gather} {task : Nat}
    (hg' : (m.onGather id f).gather? id' = some g') (htask : task ∈ g'.tasks) :
    ∃ g, m.gather? id' = some g ∧ task ∈ g.tasks := by
  rw [gather?_onGather] at hg'
  split at hg'
  · next hid =>
    subst hid
    obtain ⟨g, hg, rfl⟩ := Option.map_eq_some_iff.1 hg'
    exact ⟨g, hg, hf g htask⟩
  · exact ⟨g', hg', htask⟩

/-- Where a gather without calls is added, the tasks that gathers track are old ones. -/
theorem tasks_addGather {m : Mesh} {g : Gather} (hg : g.tasks = []) {id' : Nat} {g' : Gather}
    {task : Nat} (hg' : (m.addGather g).1.gather? id' = some g') (htask : task ∈ g'.tasks) :
    m.gather? id' = some g' := by
  rw [gather?_addGather] at hg'
  split at hg'
  · obtain rfl := Option.some.inj hg'
    rw [hg] at htask
    cases htask
  · exact hg'

/-- Where a call is set up, its own gather alone tracks a new task. -/
theorem tasks_spawn {m : Mesh} {id : Nat} {caller : Host} {inquiry : Inquiry} {peer : Node}
    {id' : Nat} {g' : Gather} {task : Nat}
    (hg' : (m.spawn id caller inquiry peer).gather? id' = some g') (htask : task ∈ g'.tasks) :
    (id' = id ∧ task = m.nextId) ∨ ∃ g, m.gather? id' = some g ∧ task ∈ g.tasks := by
  rw [gather?_spawn] at hg'
  split at hg'
  · next hid =>
    subst hid
    obtain ⟨g, hg, rfl⟩ := Option.map_eq_some_iff.1 hg'
    have htracked : (g.track m.nextId).1.tasks ⊆ g.tasks ++ [m.nextId] := by
      unfold Gather.track
      split
      · exact fun _ h => h
      · exact List.subset_append_left ..
      · exact List.subset_append_left ..
    rcases List.mem_append.1 (htracked htask) with hold | hnew
    · exact .inr ⟨g, hg, hold⟩
    · exact .inl ⟨rfl, List.mem_singleton.1 hnew⟩
  · exact .inr ⟨g', hg', htask⟩

/-- A call stays one of its gather. -/
theorem Evolved.knows {p : Nat → Prop} {q : Link → Prop} {m s : Mesh} {c : PeerCall}
    (hs : Evolved p q m s) (h : m.Knows c) : s.Knows c := by
  induction hs with
  | refl => exact h
  | quiet _ hq ih => exact ih.of_gathers hq.nextId fun id => gather?_of_work hq.work id
  | setLinks _ _ _ ih => exact ih.of_gathers (Nat.le_refl _) fun _ => rfl
  | note _ _ _ ih => exact ih.of_gathers (Nat.le_refl _) fun _ => rfl
  | schedule _ _ _ ih => exact ih.of_gathers (Nat.le_refl _) fun _ => rfl
  | filter _ _ _ _ ih => exact ih.of_gathers (Nat.le_refl _) fun _ => rfl
  | @onGather s _ id f hf _ ih =>
    obtain ⟨gathers, notices, heq⟩ := s.onGather_frame id f
    have hnext : (s.onGather id f).nextId = s.nextId := by rw [heq]
    refine ih.mono (Nat.le_of_eq hnext.symm) fun id' g' hg' htask => .inr ?_
    exact tasks_onGather hf hg' htask
  | addGather _ hg ih =>
    refine ih.mono (Nat.le_succ _) fun id' g' hg' htask => .inr ?_
    exact ⟨g', tasks_addGather hg hg' htask, htask⟩
  | @spawn s _ id _ _ caller inquiry peer ih =>
    obtain ⟨gathers, heq⟩ := s.spawn_frame id caller inquiry peer
    refine ih.mono (by rw [heq]; exact Nat.le_succ _) fun id' g' hg' htask => .inr ?_
    rcases tasks_spawn hg' htask with ⟨-, hnew⟩ | hold
    · exact absurd (hnew ▸ ih.task_lt) (Nat.lt_irrefl _)
    · exact hold

/-! ## Sound meshes stay sound -/

namespace Sound

variable {m m' : Mesh}

/-- A step that has nothing to do with calls keeps a mesh sound. -/
theorem quiet (h : m.Sound) (hq : Quiet m m') : m'.Sound where
  hosts := hq.hosts ▸ h.hosts
  stored := hq.stored h.stored
  orders := by
    rw [timers_of_work hq.work]
    exact h.orders
  order_lt := by
    rw [timers_of_work hq.work, nextOrder_of_work hq.work]
    exact h.order_lt
  known t ht c hc := by
    rw [timers_of_work hq.work] at ht
    exact (h.known t ht c hc).of_gathers hq.nextId fun id => gather?_of_work hq.work id
  journal_lt e he := by
    rw [journal_of_work hq.work] at he
    exact Nat.lt_of_lt_of_le (h.journal_lt e he) hq.nextId
  task_lt id g hg task htask := by
    rw [gather?_of_work hq.work] at hg
    exact Nat.lt_of_lt_of_le (h.task_lt id g hg task htask) hq.nextId

/-- New links keep a mesh sound. -/
theorem setLinks (h : m.Sound) (callee : String) (links : List Link) :
    (m.setLinks callee links).Sound where
  hosts := h.hosts
  stored := h.stored
  orders := h.orders
  order_lt := h.order_lt
  known t ht c hc := (h.known t ht c hc).of_gathers (Nat.le_refl _) fun _ => rfl
  journal_lt := h.journal_lt
  task_lt := h.task_lt

/-- A note on a call that the mesh knows keeps a mesh sound. -/
theorem note (h : m.Sound) {e : CallEvent} (he : m.Knows e.call) : (m.note e).Sound where
  hosts := h.hosts
  stored := h.stored
  orders := h.orders
  order_lt := h.order_lt
  known t ht c hc := (h.known t ht c hc).of_gathers (Nat.le_refl _) fun _ => rfl
  journal_lt e' he' := by
    rcases List.mem_append.1 he' with hold | hnew
    · exact h.journal_lt e' hold
    · rw [List.mem_singleton.1 hnew]
      exact he.gather_lt
  task_lt := h.task_lt

/-- A timer that is set gets an order of its own. -/
theorem orders_append (h : m.Sound) {t : Timer} (ht : t.order = m.nextOrder) :
    ((m.timers ++ [t]).map (·.order)).Nodup ∧ ∀ u ∈ m.timers ++ [t], u.order < m.nextOrder + 1 := by
  have hlt : ∀ u ∈ m.timers ++ [t], u.order < m.nextOrder + 1 := by
    intro u hu
    rcases List.mem_append.1 hu with hold | hnew
    · exact Nat.lt_succ_of_lt (h.order_lt u hold)
    · rw [List.mem_singleton.1 hnew, ht]
      exact Nat.lt_succ_self m.nextOrder
  refine ⟨?_, hlt⟩
  rw [List.map_append, List.map_singleton, List.nodup_append]
  refine ⟨h.orders, List.nodup_singleton _, ?_⟩
  intro a ha b hb
  obtain ⟨u, hu, rfl⟩ := List.mem_map.1 ha
  rw [List.mem_singleton.1 hb, ht]
  exact Nat.ne_of_lt (h.order_lt u hu)

/-- A timer for a call that the mesh knows keeps a mesh sound. -/
theorem schedule (h : m.Sound) (delay : Nat) {event : Event}
    (hevent : ∀ c, event.call? = some c → m.Knows c) : (m.schedule delay event).Sound where
  hosts := h.hosts
  stored := h.stored
  orders := (h.orders_append rfl).1
  order_lt := (h.orders_append rfl).2
  known t ht c hc := by
    have hknown : m.Knows c := by
      rcases List.mem_append.1 ht with hold | hnew
      · exact h.known t hold c hc
      · rw [List.mem_singleton.1 hnew] at hc
        exact hevent c hc
    exact hknown.of_gathers (Nat.le_refl _) fun _ => rfl
  journal_lt := h.journal_lt
  task_lt := h.task_lt

/-- A timer of a sound mesh is the only one of its order. -/
theorem eq_of_order (h : m.Sound) {t u : Timer} (ht : t ∈ m.timers) (hu : u ∈ m.timers)
    (heq : t.order = u.order) : t = u :=
  List.inj_on_of_nodup_map h.orders ht hu heq

/-- Without some of its timers a mesh is still sound. -/
theorem filter (h : m.Sound) (now : Nat) (keep : Timer → Bool) :
    { m with timers := m.timers.filter keep, now }.Sound where
  hosts := h.hosts
  stored := h.stored
  orders := h.orders.sublist (List.filter_sublist.map _)
  order_lt t ht := h.order_lt t (List.mem_filter.1 ht).1
  known t ht c hc :=
    (h.known t (List.mem_filter.1 ht).1 c hc).of_gathers (Nat.le_refl _) fun _ => rfl
  journal_lt := h.journal_lt
  task_lt := h.task_lt

/-- A change to a gather that tracks no new task keeps a mesh sound. -/
theorem onGather (h : m.Sound) (id : Nat) {f : Gather → Gather × List Gather.Notice}
    (hf : ∀ g, (f g).1.tasks ⊆ g.tasks) : (m.onGather id f).Sound := by
  obtain ⟨gathers, notices, heq⟩ := m.onGather_frame id f
  have htasks : ∀ id' g', (m.onGather id f).gather? id' = some g' → ∀ task ∈ g'.tasks,
      ∃ g, m.gather? id' = some g ∧ task ∈ g.tasks :=
    fun _ _ hg' _ htask => tasks_onGather hf hg' htask
  have hnext : (m.onGather id f).nextId = m.nextId := by rw [heq]
  have hknows : ∀ c, m.Knows c → (m.onGather id f).Knows c := by
    intro c hc
    exact hc.mono (Nat.le_of_eq hnext.symm) fun id' g' hg' htask => .inr (htasks id' g' hg' _ htask)
  have htask_lt : ∀ id' g', (m.onGather id f).gather? id' = some g' → ∀ task ∈ g'.tasks,
      task < (m.onGather id f).nextId := by
    intro id' g' hg' task htask
    obtain ⟨g, hg, hmem⟩ := htasks id' g' hg' task htask
    exact hnext ▸ h.task_lt id' g hg task hmem
  rw [heq] at hknows htask_lt ⊢
  exact ⟨h.hosts, h.stored, h.orders, h.order_lt, fun t ht c hc => hknows c (h.known t ht c hc),
    h.journal_lt, htask_lt⟩

/-- A new gather that tracks no task yet keeps a mesh sound. -/
theorem addGather (h : m.Sound) {g : Gather} (hg : g.tasks = []) : (m.addGather g).1.Sound where
  hosts := h.hosts
  stored := h.stored
  orders := h.orders
  order_lt := h.order_lt
  known t ht c hc := by
    refine (h.known t ht c hc).mono (Nat.le_succ _) fun id' g' hg' htask => .inr ?_
    exact ⟨g', tasks_addGather hg hg' htask, htask⟩
  journal_lt e he := Nat.lt_succ_of_lt (h.journal_lt e he)
  task_lt id' g' hg' task htask :=
    Nat.lt_succ_of_lt (h.task_lt id' g' (tasks_addGather hg hg' htask) task htask)

/-- A call that is set up has a task of its own. -/
theorem spawn (h : m.Sound) {id : Nat} (hid : id < m.nextId) (caller : Host) (inquiry : Inquiry)
    (peer : Node) : (m.spawn id caller inquiry peer).Sound := by
  obtain ⟨gathers, heq⟩ := m.spawn_frame id caller inquiry peer
  have htasks : ∀ id' g', (m.spawn id caller inquiry peer).gather? id' = some g' →
      ∀ task ∈ g'.tasks,
        (id' = id ∧ task = m.nextId) ∨ ∃ g, m.gather? id' = some g ∧ task ∈ g.tasks :=
    fun _ _ hg' _ htask => tasks_spawn hg' htask
  -- the new call knows its task, which no gather had before
  have hnew : (m.spawn id caller inquiry peer).Knows (callTo id caller inquiry m.nextId peer) := by
    refine ⟨?_, ?_, fun id' g' hg' htask => ?_⟩
    · rw [heq]
      exact Nat.lt_succ_of_lt hid
    · rw [heq]
      exact Nat.lt_succ_self m.nextId
    · rcases htasks id' g' hg' _ htask with ⟨rfl, -⟩ | ⟨g, hg, hmem⟩
      · rfl
      · exact absurd (h.task_lt id' g hg _ hmem) (Nat.lt_irrefl _)
  -- and the task is not one that a former call goes by
  have hold : ∀ c, m.Knows c → (m.spawn id caller inquiry peer).Knows c := by
    intro c hc
    refine hc.mono (by rw [heq]; exact Nat.le_succ _) fun id' g' hg' htask => .inr ?_
    rcases htasks id' g' hg' _ htask with ⟨-, hfresh⟩ | hmem
    · exact absurd (hfresh ▸ hc.task_lt) (Nat.lt_irrefl _)
    · exact hmem
  rw [heq] at htasks hnew hold ⊢
  constructor
  · exact h.hosts
  · exact h.stored
  · exact (h.orders_append rfl).1
  · exact (h.orders_append rfl).2
  · intro t ht c hc
    rcases List.mem_append.1 ht with hmem | hmem
    · exact hold c (h.known t hmem c hc)
    · rw [List.mem_singleton.1 hmem] at hc
      obtain rfl := Option.some.inj hc
      exact hnew
  · exact fun e he => Nat.lt_succ_of_lt (h.journal_lt e he)
  · intro id' g' hg' task htask
    rcases htasks id' g' hg' task htask with ⟨-, rfl⟩ | ⟨g, hg, hmem⟩
    · exact Nat.lt_succ_self _
    · exact Nat.lt_succ_of_lt (h.task_lt id' g hg task hmem)

end Sound

/-- A sound mesh stays sound: by induction on what has become of it. -/
theorem Evolved.sound {p : Nat → Prop} {q : Link → Prop} {m s : Mesh} (hs : Evolved p q m s)
    (h : m.Sound) : s.Sound := by
  induction hs with
  | refl => exact h
  | quiet _ hq ih => exact ih.quiet hq
  | setLinks _ _ _ ih => exact ih.setLinks _ _
  | note _ he _ ih => exact ih.note he
  | schedule _ delay hevent ih => exact ih.schedule delay fun c hc => (hevent c hc).1
  | filter _ now keep _ ih => exact ih.filter now keep
  | onGather _ hf _ ih => exact ih.onGather _ hf
  | addGather _ hg ih => exact ih.addGather hg
  | spawn _ _ hid caller inquiry peer ih => exact ih.spawn hid caller inquiry peer

/-! ## What is not touched is left alone -/

/-- A gather and its calls are what they were. -/
structure Undisturbed (id : Nat) (m m' : Mesh) : Prop where
  timers : m'.timers.filter (Timer.isFor id) = m.timers.filter (Timer.isFor id)
  journal : m'.journal.filter (CallEvent.isFor id) = m.journal.filter (CallEvent.isFor id)
  gather : ∀ g, m.gather? id = some g →
    ∃ g', m'.gather? id = some g' ∧ g.SameBooks g' ∧ g'.phase = g.phase

namespace Undisturbed

variable {id : Nat} {m m' s : Mesh}

theorem refl (id : Nat) (m : Mesh) : Undisturbed id m m :=
  ⟨rfl, rfl, fun g hg => ⟨g, hg, .refl g, rfl⟩⟩

theorem trans (h : Undisturbed id m m') (h' : Undisturbed id m' s) : Undisturbed id m s where
  timers := h'.timers.trans h.timers
  journal := h'.journal.trans h.journal
  gather g hg := by
    obtain ⟨g', hg', hsame, hphase⟩ := h.gather g hg
    obtain ⟨g'', hg'', hsame', hphase'⟩ := h'.gather g' hg'
    exact ⟨g'', hg'', hsame.trans hsame', hphase'.trans hphase⟩

/-- A gather is left alone where everything is but timers and events of other gathers. -/
theorem of_gathers (htimers : m'.timers.filter (Timer.isFor id) = m.timers.filter (Timer.isFor id))
    (hjournal : m'.journal.filter (CallEvent.isFor id) = m.journal.filter (CallEvent.isFor id))
    (hgather : m'.gather? id = m.gather? id) : Undisturbed id m m' :=
  ⟨htimers, hjournal, fun g hg => ⟨g, hgather.trans hg, .refl g, rfl⟩⟩

end Undisturbed

/-- What is appended and does not count leaves a list as it was. -/
theorem filter_append_of_neg {α : Type} {p : α → Bool} {a : α} (h : p a = false) (l : List α) :
    (l ++ [a]).filter p = l.filter p := by
  rw [List.filter_append, List.filter_singleton, h]
  exact List.append_nil _

/-- A gather that is not among those touched is left alone. -/
theorem Evolved.undisturbed {p : Nat → Prop} {q : Link → Prop} {m s : Mesh}
    (hs : Evolved p q m s) {id : Nat} (hid : id < m.nextId) (hp : ¬p id) : Undisturbed id m s := by
  have hother : ∀ {id' : Nat}, p id' → (id' == id) = false := by
    intro id' hp'
    rw [beq_eq_false_iff_ne]
    rintro rfl
    exact hp hp'
  have hcall : ∀ {o : Option PeerCall}, (∀ c, o = some c → p c.gather) →
      o.any (·.gather == id) = false := by
    intro o ho
    cases o with
    | none => rfl
    | some c => exact hother (ho c rfl)
  induction hs with
  | refl => exact .refl id m
  | quiet _ hq ih =>
    refine ih.trans (.of_gathers ?_ ?_ (gather?_of_work hq.work id))
    · rw [timers_of_work hq.work]
    · rw [journal_of_work hq.work]
  | setLinks _ _ _ ih => exact ih.trans (.of_gathers rfl rfl rfl)
  | @note s _ e _ hpe ih =>
    refine ih.trans (.of_gathers rfl ?_ rfl)
    have hout : CallEvent.isFor id e = false := hother hpe
    exact filter_append_of_neg hout s.journal
  | @schedule s _ delay event hevent ih =>
    refine ih.trans (.of_gathers ?_ rfl rfl)
    have hout : Timer.isFor id ⟨s.now + delay, s.nextOrder, event⟩ = false :=
      hcall fun c hc => (hevent c hc).2
    exact filter_append_of_neg hout s.timers
  | @filter s _ now keep hkeep ih =>
    refine ih.trans (.of_gathers ?_ rfl rfl)
    change (s.timers.filter keep).filter _ = _
    rw [List.filter_filter]
    -- a timer that is dropped belongs to a gather that is touched
    refine List.filter_congr fun t ht => ?_
    cases hk : keep t with
    | true => rw [Bool.and_true]
    | false =>
      have hout : Timer.isFor id t = false := hcall (hkeep t ht hk)
      rw [hout, Bool.and_false]
  | @onGather s hs id' f hf hpf ih =>
    obtain ⟨gathers, notices, heq⟩ := s.onGather_frame id' f
    refine ih.trans ⟨by rw [heq], by rw [heq], fun g hg => ?_⟩
    rw [gather?_onGather]
    by_cases hsame : id = id'
    · subst hsame
      -- a gather that is not touched is changed only where its books are left alone
      rcases hpf with hpf | hpf
      · exact absurd hpf hp
      · rw [if_pos rfl, hg]
        exact ⟨_, rfl, hpf g⟩
    · rw [if_neg hsame]
      exact ⟨g, hg, .refl g, rfl⟩
  | @addGather s hs g hg ih =>
    refine ih.trans (.of_gathers rfl rfl ?_)
    rw [gather?_addGather, if_neg]
    exact Nat.ne_of_lt (Nat.lt_of_lt_of_le hid hs.nextId_le)
  | @spawn s hs id' hpid hid' caller inquiry peer ih =>
    obtain ⟨gathers, heq⟩ := s.spawn_frame id' caller inquiry peer
    have hne : id ≠ id' := by
      rintro rfl
      exact hp hpid
    refine ih.trans (.of_gathers ?_ (by rw [heq]) (by rw [gather?_spawn, if_neg hne]))
    have hout : Timer.isFor id
        ⟨s.now, s.nextOrder, .call (callTo id' caller inquiry s.nextId peer)⟩ = false :=
      hother hpid
    rw [heq]
    exact filter_append_of_neg hout s.timers

/-- Whether every link that a call can meet has a property. -/
def LinksAll (q : Link → Prop) (m : Mesh) : Prop :=
  ∀ node, ∀ l ∈ linksTo m.links node, q l

/-- A property of links that new ones have, too, is kept. -/
theorem Evolved.linksAll {p : Nat → Prop} {q r : Link → Prop} {m s : Mesh} (hs : Evolved p q m s)
    (hnew : ∀ l, q l → r l) (hdirect : r .direct) (h : m.LinksAll r) : s.LinksAll r := by
  induction hs with
  | refl => exact h
  | quiet _ hq ih => exact fun node l hl => ih node l (hq.links node hl)
  | @setLinks s _ callee links hlinks ih =>
    intro node l hl
    unfold linksTo Mesh.setLinks at hl
    rw [Table.get?_insert] at hl
    by_cases hnode : node = callee
    · subst hnode
      rw [if_pos (beq_self_eq_true node)] at hl
      rcases links with _ | ⟨first, rest⟩
      · rw [List.mem_singleton.1 hl]
        exact hdirect
      · exact hnew l (hlinks l hl)
    · rw [if_neg (by simpa using hnode)] at hl
      exact ih node l hl
  | note _ _ _ ih => exact ih
  | schedule _ _ _ ih => exact ih
  | filter _ _ _ _ ih => exact ih
  | @onGather s _ id f _ _ ih =>
    obtain ⟨gathers, notices, heq⟩ := s.onGather_frame id f
    rw [heq]
    exact ih
  | addGather _ _ ih => exact ih
  | @spawn s _ id _ _ caller inquiry peer ih =>
    obtain ⟨gathers, heq⟩ := s.spawn_frame id caller inquiry peer
    rw [heq]
    exact ih

end Mesh

end PushMesh
