import PushMesh.Mesh.Streams
import PushMesh.Proofs.Mesh.Sound
import PushMesh.Proofs.Registry.Perform

/-!
# Runs of a mesh

`Turn` lists everything that can be done to a mesh: operations are dispatched and cancelled, nodes
and clients use the registries, the network and the memberships change, and timers go off, in any
order. Each turn is made of the small changes that a sound mesh can take (`evolved_turn`), and
touches at most one gather.
-/

namespace PushMesh

/-! ## Gathers -/

namespace Gather

/-- A gather that is settled tracks no task that it did not track before. -/
theorem tasks_settle (g : Gather) : g.settle.1.tasks ⊆ g.tasks := by
  unfold settle
  split
  · exact List.nil_subset _
  · exact fun _ h => h

/-- An answer brings a gather no new task. -/
theorem tasks_complete (g : Gather) (nodeId : String) (value : Tally) :
    (g.complete nodeId value).1.tasks ⊆ g.tasks := by
  unfold complete
  split
  · exact tasks_settle _
  · exact fun _ h => h

/-- A failure brings a gather no new task. -/
theorem tasks_fail (g : Gather) (failure : NodeFailure) :
    (g.fail failure).1.tasks ⊆ g.tasks := by
  unfold fail
  split
  · exact tasks_settle _
  · exact fun _ h => h

/-- A gather that is cancelled lets its tasks go and takes on no others. -/
theorem tasks_cancel (g : Gather) : g.cancel.1.tasks ⊆ g.tasks := by
  unfold cancel
  split
  · exact List.nil_subset _
  · exact fun _ h => h

/-- A callback brings a gather no new task. -/
theorem tasks_onComplete (g : Gather) (label : String) :
    (g.onComplete label).1.tasks ⊆ g.tasks := by
  unfold onComplete
  split <;> exact fun _ h => h

end Gather

namespace Mesh

variable {p : Nat → Prop} {q : Link → Prop} {m : Mesh}

/-! ## What has nothing to do with calls -/

/-- A host that is found by the id of its node is one of the mesh. -/
theorem host?_mem {node : String} {h : Host} (hh : m.host? node = some h) : h ∈ m.hosts :=
  List.mem_of_find?_eq_some hh

/-- A host is found by the id of its own node. -/
theorem self_of_host? {node : String} {h : Host} (hh : m.host? node = some h) :
    h.self.id = node := by
  simpa using List.find?_some hh

/-- A host that is found by the id of its node is found by its own. -/
theorem find?_of_host? {node : String} {h : Host} (hh : m.host? node = some h) :
    m.hosts.find? (·.self.id == h.self.id) = some h := by
  rw [self_of_host? hh]
  exact hh

/-- Doing nothing is quiet. -/
theorem quiet_refl (m : Mesh) : Quiet m m :=
  ⟨rfl, Nat.le_refl _, fun _ => List.Subset.refl _, rfl, id⟩

/-- What leaves the hosts alone, the links, and the work. -/
theorem quiet_of_hosts {m' : Mesh} (hwork : m'.work = m.work) (hnext : m.nextId ≤ m'.nextId)
    (hhosts : m'.hosts = m.hosts) (hlinks : m'.links = m.links) : Quiet m m' :=
  ⟨hwork, hnext, fun _ => by rw [hlinks]; exact List.Subset.refl _, by rw [hhosts],
    by rw [hhosts]; exact id⟩

/-- A host may be changed as long as it keeps its id and what it stores stays in order. -/
theorem quiet_modifyHost (m : Mesh) (node : String) {f : Host → Host}
    (hid : ∀ h, (f h).self.id = h.self.id)
    (hf : (∀ h ∈ m.hosts, h.registry.Stored) → ∀ h ∈ m.hosts, (f h).registry.Stored) :
    Quiet m (m.modifyHost node f) where
  work := rfl
  nextId := Nat.le_refl _
  links _ := List.Subset.refl _
  hosts := by
    rw [modifyHost, List.map_map]
    refine List.map_congr_left fun h _ => ?_
    rw [Function.comp_apply]
    split
    · exact hid h
    · rfl
  stored hstored h hh := by
    obtain ⟨g, hg, rfl⟩ := List.mem_map.1 hh
    split
    · exact hf hstored g hg
    · exact hstored g hg

/-- A registry may be replaced by one that is stored in order. -/
theorem quiet_setRegistry (m : Mesh) (node : String) (before after : Registry)
    (hafter : (∀ h ∈ m.hosts, h.registry.Stored) → after.Stored) :
    Quiet m (m.setRegistry node before after) := by
  have hquiet := m.quiet_modifyHost node (f := fun h => { h with registry := after })
    (fun _ => rfl) (fun hstored _ _ => hafter hstored)
  exact ⟨rfl, Nat.le_refl _, hquiet.links, hquiet.hosts, hquiet.stored⟩

/-- Whatever keeps a registry in order may be done to that of a node. -/
theorem quiet_onRegistry {α : Type} (m : Mesh) (node : String) {f : Registry → Registry × α}
    (hf : ∀ r, r.Stored → (f r).1.Stored) : Quiet m (m.onRegistry node f).1 := by
  unfold onRegistry
  cases hh : m.host? node with
  | none => exact quiet_refl m
  | some h =>
    exact m.quiet_setRegistry node h.registry _ fun hstored => hf _ (hstored h (host?_mem hh))

/-- Taking a link leaves fewer of them and changes nothing else. -/
theorem quiet_takeLink (m : Mesh) (callee : String) : Quiet m (m.takeLink callee).1 := by
  have heq := m.takeLink_eq callee
  rw [heq]
  exact ⟨rfl, Nat.le_refl _, linksTo_restLinks m.links callee, rfl, id⟩

/-- A node may learn of other members. -/
theorem quiet_setMembers (m : Mesh) (node : String) (members : List Node) :
    Quiet m (m.setMembers node members) := by
  have hquiet := m.quiet_modifyHost node (f := fun h => { h with members })
    (fun _ => rfl) (fun hstored h hh => hstored h hh)
  exact ⟨rfl, Nat.le_refl _, hquiet.links, hquiet.hosts, hquiet.stored⟩

/-- Putting a stream in its place is quiet. -/
theorem quiet_setStream (m : Mesh) (id : Nat) (before after : Stream) :
    Quiet m (m.setStream id before after) := by
  unfold setStream
  dsimp only
  split <;> exact quiet_of_hosts rfl (Nat.le_refl _) rfl rfl

/-- One quiet change after another is quiet. -/
theorem Quiet.trans {m' s : Mesh} (h : Quiet m m') (h' : Quiet m' s) : Quiet m s :=
  ⟨h'.work.trans h.work, Nat.le_trans h.nextId h'.nextId,
    fun node => List.Subset.trans (h'.links node) (h.links node), h'.hosts.trans h.hosts,
    fun hstored => h'.stored (h.stored hstored)⟩

/-- A stream is opened without any call. -/
theorem quiet_openStream (m : Mesh) {h : Host} (hh : h ∈ m.hosts) (owner : Owner) (now : Instant) :
    Quiet m (m.openStream h owner now).1 := by
  have hset := m.quiet_setRegistry h.self.id h.registry
    (h.registry.register owner now (max h.channelCapacity 1)).1
    fun hstored => (hstored h hh).register owner now _
  unfold openStream
  dsimp only
  split
  · exact hset.trans (quiet_of_hosts rfl (Nat.le_refl _) rfl rfl)
  · exact hset.trans (quiet_of_hosts rfl (Nat.le_succ _) rfl rfl)

/-- Reading a stream is quiet, also where it ends and cleans up. -/
theorem quiet_readStream (m : Mesh) (id : Nat) : Quiet m (m.readStream id).1 := by
  unfold readStream
  cases m.streams.get? id with
  | none => exact quiet_refl m
  | some s =>
    dsimp only
    cases hh : m.host? s.nodeId with
    | none => exact quiet_refl m
    | some h =>
      refine Quiet.trans (m.quiet_setRegistry s.nodeId h.registry _ fun hstored => ?_)
        (quiet_setStream _ id s _)
      have hr := hstored h (host?_mem hh)
      exact (Registry.revised_read hr s m.now).stored hr

/-- So is dropping one. -/
theorem quiet_dropStream (m : Mesh) (id : Nat) : Quiet m (m.dropStream id) := by
  unfold dropStream
  cases m.streams.get? id with
  | none => exact quiet_refl m
  | some s =>
    have hstored : ∀ r : Registry, r.Stored → (s.drop r).2.1.Stored :=
      fun r hr => (Registry.revised_drop hr s).stored hr
    dsimp only
    split
    · next m' after heq =>
      have hset : Quiet m (m', some after).1 := by
        rw [← heq]
        exact m.quiet_onRegistry s.nodeId hstored
      exact hset.trans (quiet_setStream m' id s after)
    · next m' heq =>
      show Quiet m (m', (none : Option Stream)).1
      rw [← heq]
      exact m.quiet_onRegistry s.nodeId hstored

/-! ## One call -/

/-- A peer that runs what it is called for changes nothing but its registry. -/
theorem evolved_execute {c : PeerCall} (hc : m.Knows c) (hp : p c.gather) :
    Evolved p q m (m.execute c).1 := by
  unfold execute
  cases hh : m.host? c.callee.id with
  | none => exact .refl
  | some h =>
    dsimp only
    cases hrun : h.registry.execute c.operation with
    | error e => exact Evolved.refl.note (e := .ran c) hc hp
    | ok result =>
      have hquiet := m.quiet_setRegistry c.callee.id h.registry result.1
        fun hstored => by
          have hr := hstored h (host?_mem hh)
          have hperform := (Registry.execute_eq_ok_iff.1 hrun).2
          rw [← hperform]
          exact (Registry.revised_perform hr c.operation).stored hr
      have hset : Evolved p q m (m.setRegistry c.callee.id h.registry result.1) :=
        Evolved.refl.quiet hquiet
      exact hset.note (e := .ran c) (hset.knows hc) hp

/-- A call that begins takes a link, runs what it is for if it gets through, and sets a timer. -/
theorem evolved_begin {c : PeerCall} (hc : m.Knows c) (hp : p c.gather) :
    Evolved p q m (m.begin c).1 := by
  let record : CallRecord := ⟨c.caller, c.callee.id, c.operation.name⟩
  have hlogged : Evolved p q m { m with calls := m.calls ++ [record] } :=
    Evolved.refl.quiet (quiet_of_hosts rfl (Nat.le_refl _) rfl rfl)
  have hbegan := hlogged.note (e := .began c) (hlogged.knows hc) hp
  have htaken := hbegan.quiet (quiet_takeLink _ c.callee.id)
  unfold begin
  dsimp only
  split
  · exact htaken.trans (evolved_execute (htaken.knows hc) hp)
  · exact htaken

/-- A call that arrives late runs then what it is for. -/
theorem evolved_arrive {c : PeerCall} (hc : m.Knows c) (hp : p c.gather)
    (link : Link) (early : Option (Except PeerError Output)) :
    Evolved p q m (m.arrive c link early).1 := by
  have hanswer : Evolved p q m (m.answer c link early).1 := by
    unfold answer
    split
    · exact .refl
    · split
      · exact .refl
      · exact evolved_execute hc hp
      · exact .refl
      · exact .refl
      · exact .refl
  exact hanswer.note (e := .ended c (m.answer c link early).2) (hanswer.knows hc) hp

/-- An attempt is begun, and ends at once or is left to its timer. -/
theorem evolved_attempt {c : PeerCall} (hc : m.Knows c) (hp : p c.gather)
    (isSecond : Bool) : Evolved p q m (m.attempt c isSecond).1 := by
  have hbegin : Evolved p q m (m.begin c).1 := evolved_begin hc hp
  have hknown := hbegin.knows hc
  unfold attempt
  dsimp only
  split
  · exact hbegin.trans (evolved_arrive hknown hp _ _)
  · refine hbegin.schedule _ fun c' hc' => ?_
    obtain rfl := Option.some.inj hc'
    exact ⟨hknown, hp⟩

/-- What a call comes to goes to its own gather. -/
theorem evolved_conclude {c : PeerCall} (hp : p c.gather) (result : Except PeerError Output) :
    Evolved p q m (m.conclude c result) := by
  have hrecord : ∀ f, Evolved p q m (m.record f) := fun f =>
    Evolved.refl.quiet (quiet_of_hosts rfl (Nat.le_refl _) rfl rfl)
  unfold conclude
  split
  · exact (hrecord _).onGather (fun g => g.tasks_complete c.callee.id _) (.inl hp)
  · exact (hrecord _).onGather (fun g => g.tasks_fail _) (.inl hp)

/-- After an attempt a call is concluded or made once more. -/
theorem evolved_afterAttempt {c : PeerCall} (hc : m.Knows c) (hp : p c.gather)
    (isSecond : Bool) (result : Except PeerError Output) :
    Evolved p q m (m.afterAttempt c isSecond result) := by
  unfold afterAttempt
  split
  · have hattempt : Evolved p q m (m.attempt c true).1 := evolved_attempt hc hp true
    split
    · next m' result' heq =>
      rw [heq] at hattempt
      exact hattempt.trans (evolved_conclude hp result')
    · next m' heq =>
      rw [heq] at hattempt
      exact hattempt
  · exact evolved_conclude hp result

/-! ## What is due -/

/-- A timer does nothing but for the call that it was set for, if there is one. -/
theorem evolved_perform {event : Event}
    (h : ∀ c, event.call? = some c → m.Knows c ∧ p c.gather) :
    Evolved p q m (m.perform event) := by
  cases event with
  | call c =>
    obtain ⟨hc, hp⟩ := h c rfl
    have hattempt : Evolved p q m (m.attempt c false).1 := evolved_attempt hc hp false
    unfold perform
    dsimp only
    split
    · next m' result heq =>
      rw [heq] at hattempt
      exact hattempt.trans
        (evolved_afterAttempt (hattempt.knows hc) hp false result)
    · next m' heq =>
      rw [heq] at hattempt
      exact hattempt
  | arrival c isSecond link early =>
    obtain ⟨hc, hp⟩ := h c rfl
    have harrive : Evolved p q m (m.arrive c link early).1 := evolved_arrive hc hp link early
    exact harrive.trans
      (evolved_afterAttempt (harrive.knows hc) hp isSecond _)
  | sweeperStart s =>
    unfold perform
    dsimp only
    split
    · exact .refl
    · exact Evolved.refl.schedule s.interval fun c hc => by cases hc
  | sweep s =>
    have hsweep : Quiet m (m.onRegistry s.node (·.sweep)).1 :=
      m.quiet_onRegistry s.node fun r hr => (Registry.revised_closeIds hr r.deadIds).stored hr
    unfold perform runSweep
    dsimp only
    split
    · exact .refl
    · exact (Evolved.refl.quiet hsweep).schedule s.interval fun c hc => by cases hc

/-- A timer that goes off takes the work that it stands for out of the mesh. -/
theorem evolved_fire (hm : m.Sound) {t : Timer} (ht : t ∈ m.timers)
    (hp : ∀ c, t.event.call? = some c → p c.gather) : Evolved p q m (m.fire t) := by
  have hgone : Evolved p q m { m with
      timers := m.timers.filter (·.order != t.order), now := max m.now t.due } := by
    -- the timer is taken out by its order, which no other timer has
    refine Evolved.refl.filter (max m.now t.due) _ fun u hu hkeep c hc => ?_
    have hsame : u.order = t.order := by simpa using hkeep
    rw [hm.eq_of_order hu ht hsame] at hc
    exact hp c hc
  refine hgone.trans (evolved_perform fun c hc => ⟨?_, hp c hc⟩)
  exact hgone.knows (hm.known t ht c hc)

/-! ## Dispatching and cancelling -/

/-- Calls are set up one after the other: by induction on the peers. -/
theorem evolved_spawnAll {s : Mesh} (hs : Evolved p q m s) {id : Nat} (hp : p id)
    (hid : id < s.nextId) (caller : Host) (inquiry : Inquiry) (peers : List Node) :
    Evolved p q m (s.spawnAll id caller inquiry peers) := by
  induction peers generalizing s with
  | nil => exact hs
  | cons peer peers ih =>
    obtain ⟨gathers, heq⟩ := s.spawn_frame id caller inquiry peer
    have hlt : id < (s.spawn id caller inquiry peer).nextId := by
      rw [heq]
      exact Nat.lt_succ_of_lt hid
    exact ih (hs.spawn hp hid caller inquiry peer) hlt

/-- The registry after the node's own part of an inquiry. -/
theorem stored_runLocally {inquiry : Inquiry} {r s : Registry} {t : Tally} (hr : r.Stored)
    (h : inquiry.runLocally r = .ok (s, t)) : s.Stored := by
  obtain ⟨-, rfl, -⟩ := Inquiry.runLocally_eq_ok_iff.1 h
  exact (Registry.revised_perform hr inquiry.operation).stored hr

/-- A gather starts without tasks. -/
theorem tasks_start (nodeId : String) (value : Tally) (peers : List String)
    (partialOnTimeout : Bool) : (Gather.start nodeId value peers partialOnTimeout).tasks = [] := rfl

/-- A dispatch works on the gather that it opens, which has the next id. -/
theorem evolved_dispatch {h : Host} (hh : h ∈ m.hosts) (inquiry : Inquiry) (hp : p m.nextId) :
    Evolved p q m (m.dispatch h inquiry).1 := by
  cases hlocal : inquiry.runLocally h.registry with
  | error e =>
    have hquiet : Quiet m
        ((m.record (·.recordDispatch inquiry.operation.name)).record (·.recordLocalFailure)) :=
      quiet_of_hosts rfl (Nat.le_refl _) rfl rfl
    unfold dispatch
    rw [hlocal]
    exact (Evolved.refl.quiet hquiet).addGather rfl
  | ok result =>
    rw [m.dispatch_ok h hlocal]
    have hrecord : Evolved p q m (m.record (·.recordDispatch inquiry.operation.name)) :=
      Evolved.refl.quiet (quiet_of_hosts rfl (Nat.le_refl _) rfl rfl)
    have hset := hrecord.quiet (quiet_setRegistry _ h.self.id h.registry result.1
      fun hstored => stored_runLocally (hstored h hh) hlocal)
    exact evolved_spawnAll (hset.addGather (tasks_start ..)) hp (Nat.lt_succ_self _) h inquiry
      h.peers

/-- A cancellation takes the timers of the calls that its gather tracks. -/
theorem cancel_eq {id : Nat} {g : Gather} (hg : m.gather? id = some g) :
    (m.cancel id).1 = { m with
      timers := m.timers.filter fun t => (Timer.task? t).all fun task => !g.cancel.2.2.contains task
      now := m.now }.onGather id fun g => (g.cancel.1, []) := by
  unfold cancel
  rw [hg, onGather]
  have hsame : { m with
      timers := m.timers.filter fun t => (Timer.task? t).all fun task => !g.cancel.2.2.contains task
      now := m.now }.gather? id = some g := hg
  rw [hsame]
  dsimp only
  rw [List.append_nil]

/-- A cancellation ends the calls of one gather. -/
theorem evolved_cancel (hm : m.Sound) {id : Nat} (hp : p id) : Evolved p q m (m.cancel id).1 := by
  cases hg : m.gather? id with
  | none =>
    unfold cancel
    rw [hg]
    exact .refl
  | some g =>
    rw [cancel_eq hg]
    refine Evolved.onGather ?_ (fun g => g.tasks_cancel) (.inl hp)
    refine Evolved.refl.filter m.now _ fun t ht hkeep c hc => ?_
    have htask : Timer.task? t = some c.task := by
      cases t with | mk due order event =>
      cases event <;> simp_all [Event.call?, Timer.task?]
    have hstopped : g.cancel.2.2 ⊆ g.tasks := by
      unfold Gather.cancel
      split
      · exact fun _ h => h
      · exact List.nil_subset _
    rw [htask] at hkeep
    have hmem : c.task ∈ g.tasks := hstopped (by simpa using hkeep)
    rw [← (hm.known t ht c hc).home id g hg hmem]
    exact hp

/-! ## Every turn -/

/-- Something that is done to a mesh. -/
inductive Turn where
  | dispatch (node : String) (inquiry : Inquiry)
  /-- The timer of an order goes off, whether or not it is the next. -/
  | fire (order : Nat)
  | pass (milliseconds : Nat)
  | cancel (id : Nat)
  | onComplete (id : Nat) (label : String)
  /-- Something is done to the registry of a node. -/
  | operate (node : String) (a : Registry.Action)
  | setLinks (callee : String) (links : List Link)
  | setMembers (node : String) (members : List Node)
  | openStream (node : String) (owner : Owner) (connectedAt : Instant)
  | readStream (id : Nat)
  | dropStream (id : Nat)
  | addSweeper (node : String) (seconds : Nat)
  | finishSweepers (node : String)

/-- The timer of an order. -/
def timer? (m : Mesh) (order : Nat) : Option Timer :=
  m.timers.find? (·.order == order)

/-- The mesh after a turn. -/
def turn (m : Mesh) : Turn → Mesh
  | .dispatch node inquiry => (m.host? node).elim m fun h => (m.dispatch h inquiry).1
  | .fire order => (m.timer? order).elim m m.fire
  | .pass milliseconds => { m with now := m.now + milliseconds }
  | .cancel id => (m.cancel id).1
  | .onComplete id label => m.onGather id (·.onComplete label)
  | .operate node a => (m.onRegistry node fun r => (r.act a, ())).1
  | .setLinks callee links => m.setLinks callee links
  | .setMembers node members => m.setMembers node members
  | .openStream node owner connectedAt =>
    (m.host? node).elim m fun h => (m.openStream h owner connectedAt).1
  | .readStream id => (m.readStream id).1
  | .dropStream id => m.dropStream id
  | .addSweeper node seconds => m.addSweeper node seconds
  | .finishSweepers node => m.finishSweepers node

/-- A dispatch of a node that is there is a turn. -/
theorem turn_dispatch {m : Mesh} {node : String} {h : Host} (hh : m.host? node = some h)
    (inquiry : Inquiry) : m.turn (.dispatch node inquiry) = (m.dispatch h inquiry).1 := by
  rw [turn, hh]
  rfl

/-- The mesh after several turns. -/
def run (m : Mesh) (turns : List Turn) : Mesh :=
  turns.foldl turn m

theorem run_append (m : Mesh) (turns turns' : List Turn) :
    m.run (turns ++ turns') = (m.run turns).run turns' := List.foldl_append

/-- Whether a turn is about a gather or one of its calls. -/
def touches (m : Mesh) : Turn → Nat → Prop
  | .dispatch .. => (· = m.nextId)
  | .fire order => fun id => (m.timer? order).any (Timer.isFor id) = true
  | .cancel id => (· = id)
  | _ => fun _ => False

/-- The links that a turn brings. -/
def Turn.brings : Turn → Link → Prop
  | .setLinks _ links => (· ∈ links)
  | _ => fun _ => False

/-- A timer that is found is one of those that are set. -/
theorem timer?_mem {order : Nat} {t : Timer} (h : m.timer? order = some t) : t ∈ m.timers :=
  List.mem_of_find?_eq_some h

/-- Every turn is made of small changes, and touches what it is about. -/
theorem evolved_turn (hm : m.Sound) (t : Turn) : Evolved (m.touches t) t.brings m (m.turn t) := by
  cases t with
  | dispatch node inquiry =>
    dsimp only [turn]
    cases hh : m.host? node with
    | none => exact .refl
    | some h => exact evolved_dispatch (host?_mem hh) inquiry rfl
  | fire order =>
    dsimp only [turn]
    cases ht : m.timer? order with
    | none => exact .refl
    | some t =>
      -- only the calls of its own gather are touched by a timer
      refine evolved_fire hm (timer?_mem ht) fun c hc => ?_
      simp [touches, ht, Timer.isFor, hc]
  | pass milliseconds => exact Evolved.refl.quiet (quiet_of_hosts rfl (Nat.le_refl _) rfl rfl)
  | cancel id => exact evolved_cancel hm rfl
  | onComplete id label =>
    exact Evolved.refl.onGather (fun g => g.tasks_onComplete label)
      (.inr fun g => g.sameBooks_onComplete label)
  | operate node a => exact Evolved.refl.quiet (m.quiet_onRegistry node fun r hr => hr.act a)
  | setLinks callee links => exact Evolved.refl.setLinks callee fun _ hl => hl
  | setMembers node members => exact Evolved.refl.quiet (m.quiet_setMembers node members)
  | openStream node owner connectedAt =>
    dsimp only [turn]
    cases hh : m.host? node with
    | none => exact .refl
    | some h => exact Evolved.refl.quiet (m.quiet_openStream (host?_mem hh) owner connectedAt)
  | readStream id => exact Evolved.refl.quiet (m.quiet_readStream id)
  | dropStream id => exact Evolved.refl.quiet (m.quiet_dropStream id)
  | addSweeper node seconds =>
    -- a sweeper takes a name, and is first due at once
    have hnamed : Quiet m { m.freshId.1 with sweepers :=
        m.sweepers ++ [(⟨m.nextId, node, max seconds 1 * 1000⟩, false)] } :=
      quiet_of_hosts rfl (Nat.le_succ _) rfl rfl
    exact (Evolved.refl.quiet hnamed).schedule 0 fun c hc => by cases hc
  | finishSweepers node => exact Evolved.refl.quiet (quiet_of_hosts rfl (Nat.le_refl _) rfl rfl)

/-- A mesh of hosts with different ids is sound at the start. -/
theorem sound_create {hosts : List Host} (hids : (hosts.map (·.self.id)).Nodup)
    (hstored : ∀ h ∈ hosts, h.registry.Stored) (links : Table String (List Link)) :
    (create hosts links).Sound where
  hosts := hids
  stored := hstored
  orders := List.nodup_nil
  order_lt _ ht := by cases ht
  known _ ht := by cases ht
  journal_lt _ he := by cases he
  task_lt _ _ hg := by cases hg

/-- A turn keeps a mesh sound. -/
theorem Sound.turn (hm : m.Sound) (t : Turn) : (m.turn t).Sound :=
  (evolved_turn hm t).sound hm

/-- A name that has been given out stays so. -/
theorem lt_nextId_turn (hm : m.Sound) {id : Nat} (hid : id < m.nextId) (t : Turn) :
    id < (m.turn t).nextId :=
  Nat.lt_of_lt_of_le hid (evolved_turn hm t).nextId_le

/-- A sound mesh stays sound in every run. -/
theorem Sound.run (hm : m.Sound) (turns : List Turn) : (m.run turns).Sound := by
  induction turns generalizing m with
  | nil => exact hm
  | cons t turns ih => exact ih (hm.turn t)

/-- An id that was handed out stays handed out in a run. -/
theorem lt_nextId_run (hm : m.Sound) {id : Nat} (hid : id < m.nextId) (turns : List Turn) :
    id < (m.run turns).nextId := by
  induction turns generalizing m with
  | nil => exact hid
  | cons t turns ih => exact ih (hm.turn t) (lt_nextId_turn hm hid t)

/-- The meshes that hosts with different ids come to, whose registries have a past of their own. -/
inductive Reached : Mesh → Prop where
  | create {hosts : List Host} (hids : (hosts.map (·.self.id)).Nodup)
      (hregistries : ∀ h ∈ hosts, ∃ limits salt actions,
        h.registry = (Registry.create h.self.id limits salt).run actions)
      (links : Table String (List Link)) : Reached (create hosts links)
  | turn {m : Mesh} (hm : Reached m) (t : Turn) : Reached (m.turn t)

/-- What can be reached can be reached with a run on top of it. -/
theorem Reached.run (hm : m.Reached) (turns : List Turn) : (m.run turns).Reached := by
  induction turns generalizing m with
  | nil => exact hm
  | cons t turns ih => exact ih (hm.turn t)

/-- Whatever can be reached is sound. -/
theorem Reached.sound (hm : m.Reached) : m.Sound := by
  induction hm with
  | create hids hregistries links =>
    refine sound_create hids (fun h hh => ?_) links
    obtain ⟨limits, salt, actions, heq⟩ := hregistries h hh
    rw [heq]
    exact Registry.stored_run h.self.id limits salt actions
  | turn _ t ih => exact ih.turn t

/-- Where no links are given, calls go through directly. -/
theorem linksAll_empty (hosts : List Host) (hdirect : q .direct) : (create hosts ∅).LinksAll q := by
  intro node l hl
  rw [linksTo, show (create hosts ∅).links.get? node = none from rfl] at hl
  rw [List.mem_singleton.1 hl]
  exact hdirect

/-- What all links have, and all that are brought, they have after every run. -/
theorem LinksAll.run (h : m.LinksAll q) (hm : m.Sound) (hdirect : q .direct) {turns : List Turn}
    (hturns : ∀ t ∈ turns, ∀ l, t.brings l → q l) : (m.run turns).LinksAll q := by
  induction turns generalizing m with
  | nil => exact h
  | cons t turns ih =>
    obtain ⟨ht, hturns⟩ := List.forall_mem_cons.1 hturns
    exact ih ((evolved_turn hm t).linksAll ht hdirect h) (hm.turn t) hturns

/-- A turn that is not about a gather leaves it alone, with its calls. -/
theorem undisturbed_turn (hm : m.Sound) {id : Nat} (hid : id < m.nextId) {t : Turn}
    (ht : ¬m.touches t id) : Undisturbed id m (m.turn t) :=
  (evolved_turn hm t).undisturbed hid ht

/-! ## The turns of one gather -/

/-- Whether a turn dispatches the gather of a name or lets one of its timers go off. -/
def isOwn (m : Mesh) (id : Nat) : Turn → Bool
  | .dispatch .. => m.nextId == id
  | .fire order => (m.timer? order).any (Timer.isFor id)
  | _ => false

/-- What the turns of a gather do in a run, measured one by one and added up. -/
def overOwn (id : Nat) (measure : Mesh → Mesh → Nat) : Mesh → List Turn → Nat
  | _, [] => 0
  | m, t :: turns =>
    (if m.isOwn id t then measure m (m.turn t) else 0) + overOwn id measure (m.turn t) turns

end Mesh

end PushMesh
