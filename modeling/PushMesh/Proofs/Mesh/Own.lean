import PushMesh.Proofs.Mesh.Departures

/-!
# What belongs to a dispatch

The turns of a dispatch run its operation on registries and do nothing else to them
(`eq_execute_of_own`). Which operation that is was fixed by the dispatch: whatever becomes due later
for one of its calls is due for the same call again (`Pursues`), so that all its timers are for that
operation (`Bound`).
-/

namespace PushMesh.Mesh

variable {m m' s : Mesh} {c : PeerCall} {id : Nat} {op : Operation} {node : String}

/-! ## A call -/

/-- What is done for one call: what is noted is noted of it, and what becomes due is due for it. -/
structure Pursues (c : PeerCall) (m m' : Mesh) : Prop where
  ids : m'.hosts.map (·.self.id) = m.hosts.map (·.self.id)
  journal : ∃ events, m'.journal = m.journal ++ events ∧ ∀ e ∈ events, e.call = c
  timers : ∀ t ∈ m'.timers, t ∈ m.timers ∨ t.event.call? = some c

theorem Pursues.trans (h : Pursues c m m') (h' : Pursues c m' s) : Pursues c m s := by
  obtain ⟨events, hjournal, hevents⟩ := h.journal
  obtain ⟨events', hjournal', hevents'⟩ := h'.journal
  refine ⟨h'.ids.trans h.ids, ⟨events ++ events', ?_, ?_⟩, fun t ht => ?_⟩
  · rw [hjournal', hjournal, List.append_assoc]
  · exact fun e he => (List.mem_append.1 he).elim (hevents e) (hevents' e)
  · rcases h'.timers t ht with hold | hnew
    · exact h.timers t hold
    · exact .inr hnew

/-- Where hosts and journal are what they were, and no timer is new, nothing is noted. -/
theorem pursues_of_hosts (hhosts : m'.hosts = m.hosts) (hjournal : m'.journal = m.journal)
    (htimers : m'.timers ⊆ m.timers) : Pursues c m m' where
  ids := by rw [hhosts]
  journal := by
    refine ⟨[], ?_, fun _ he => by cases he⟩
    rw [hjournal, List.append_nil]
  timers _ ht := .inl (htimers ht)

/-- What is only noted of a call is done for it. -/
theorem Noted.pursues {events : List CallEvent} (h : Noted c events m m')
    (hids : m'.hosts.map (·.self.id) = m.hosts.map (·.self.id)) : Pursues c m m' :=
  ⟨hids, ⟨events, h.journal, h.call⟩, fun _ ht => .inl (h.timers ▸ ht)⟩

/-- Serving an operation at a node gives no host another id. -/
theorem ids_serveAt (node : String) (op : Operation) (hosts : List Host) :
    (serveAt node op hosts).map (·.self.id) = hosts.map (·.self.id) := by
  rw [serveAt, List.map_map]
  apply List.map_congr_left
  intro h _
  rw [Function.comp_apply]
  split <;> rfl

/-- The start of a call is done for it. -/
theorem pursues_begin (hids : (m.hosts.map (·.self.id)).Nodup) (c : PeerCall) :
    Pursues c m (m.begin c).1 := by
  obtain ⟨m', ⟨hbegin, hhosts, hnoted⟩ | ⟨hbegin, hhosts, hnoted⟩, -⟩ := begin_cases hids c
  · rw [hbegin]
    exact hnoted.pursues (by rw [hhosts, ids_serveAt])
  · rw [hbegin]
    exact hnoted.pursues (by rw [hhosts])

/-- The arrival of a call is done for it. -/
theorem pursues_arrive (hids : (m.hosts.map (·.self.id)).Nodup) (c : PeerCall) (link : Link)
    (early : Option Reply) : Pursues c m (m.arrive c link early).1 := by
  obtain ⟨m', ⟨r, -, harrive, hhosts, hnoted⟩ | ⟨-, harrive, hhosts, hnoted⟩, -⟩ :=
    arrive_cases hids c link early
  · rw [harrive]
    exact hnoted.pursues (by rw [hhosts])
  · rw [harrive]
    exact hnoted.pursues (by rw [hhosts, ids_serveAt])

/-- An attempt is done for its call. -/
theorem pursues_attempt (hids : (m.hosts.map (·.self.id)).Nodup) (c : PeerCall) (isSecond : Bool) :
    Pursues c m (m.attempt c isSecond).1 := by
  have hbegin := pursues_begin hids c
  unfold attempt
  dsimp only
  split
  · exact hbegin.trans (pursues_arrive (hbegin.ids ▸ hids) c _ _)
  · refine hbegin.trans ⟨rfl, ⟨[], (List.append_nil _).symm, fun _ he => by cases he⟩, ?_⟩
    intro t ht
    rcases List.mem_append.1 ht with hold | hnew
    · exact .inl hold
    · rw [List.mem_singleton.1 hnew]
      exact .inr rfl

/-- The end of a call is done for it. -/
theorem pursues_conclude (m : Mesh) (c : PeerCall) (r : Reply) : Pursues c m (m.conclude c r) := by
  unfold conclude
  split
  all_goals
    obtain ⟨gathers, notices, heq⟩ := onGather_frame _ c.gather _
    rw [heq]
    exact pursues_of_hosts rfl rfl (List.Subset.refl _)

/-- What follows an attempt is done for its call. -/
theorem pursues_afterAttempt (hids : (m.hosts.map (·.self.id)).Nodup) (c : PeerCall)
    (isSecond : Bool) (r : Reply) : Pursues c m (m.afterAttempt c isSecond r) := by
  unfold afterAttempt
  split
  · have hattempt := pursues_attempt hids c true
    split
    · next m' r' heq =>
      rw [heq] at hattempt
      exact hattempt.trans (pursues_conclude m' c r')
    · next m' heq =>
      rw [heq] at hattempt
      exact hattempt
  · exact pursues_conclude m c r

/-- A timer that goes off for a call does nothing but pursue that call. -/
theorem pursues_fire (hids : (m.hosts.map (·.self.id)).Nodup) {t : Timer}
    (hc : t.event.call? = some c) : Pursues c m (m.fire t) := by
  have hpopped : Pursues c m (m.popped t) :=
    pursues_of_hosts rfl rfl fun _ hu => (List.mem_filter.1 hu).1
  rw [fire_eq]
  refine hpopped.trans ?_
  cases hevent : t.event with
  | call c' =>
    rw [hevent] at hc
    obtain rfl := Option.some.inj hc
    have hattempt := pursues_attempt (m := m.popped t) hids c' false
    rw [perform]
    split
    · next m' r heq =>
      rw [heq] at hattempt
      exact hattempt.trans (pursues_afterAttempt (hattempt.ids ▸ hids) c' false r)
    · next m' heq =>
      rw [heq] at hattempt
      exact hattempt
  | arrival c' isSecond link early =>
    rw [hevent] at hc
    obtain rfl := Option.some.inj hc
    have harrive := pursues_arrive (m := m.popped t) hids c' link early
    rw [perform]
    exact harrive.trans (pursues_afterAttempt (harrive.ids ▸ hids) c' isSecond _)
  | sweeperStart _ | sweep _ =>
    rw [hevent] at hc
    cases hc

/-! ## The operation of a gather -/

/-- Whether all that is due for a gather is due for one operation. -/
def Bound (id : Nat) (op : Operation) (m : Mesh) : Prop :=
  ∀ t ∈ m.timers, ∀ c, t.event.call? = some c → c.gather = id → c.operation = op

/-- After a dispatch the calls to the peers are due, for the operation that was dispatched. -/
theorem bound_dispatch (hm : m.Sound) {h : Host} (hh : m.host? node = some h) (inquiry : Inquiry) :
    (m.turn (.dispatch node inquiry)).Bound m.nextId inquiry.operation := by
  rw [turn_dispatch hh]
  -- the name of the gather is new, so nothing was due for it
  have hold : ∀ t ∈ m.timers, ∀ c, t.event.call? = some c → c.gather ≠ m.nextId := by
    intro t ht c hc hid
    have hlt := (hm.known t ht c hc).gather_lt
    rw [hid] at hlt
    exact Nat.lt_irrefl _ hlt
  intro t ht c hc hid
  cases hlocal : inquiry.runLocally h.registry with
  | error e =>
    rw [m.dispatch_error h hlocal] at ht
    exact absurd hid (hold t ht c hc)
  | ok result =>
    obtain ⟨metrics, gathers, hframe⟩ := dispatch_frame hm.hosts (find?_of_host? hh) hlocal
    rw [hframe] at ht
    rcases List.mem_append.1 ht with hbefore | hnew
    · exact absurd hid (hold t hbefore c hc)
    · have hevent : t.event ∈ (m.callsOf h inquiry).map Event.call := by
        rw [← event_callTimers m.now m.nextOrder]
        exact List.mem_map.2 ⟨t, hnew, rfl⟩
      obtain ⟨d, hd, hdt⟩ := List.mem_map.1 hevent
      obtain ⟨task, hcall⟩ := eq_callTo_of_mem hd
      rw [← hdt] at hc
      obtain rfl := Option.some.inj hc
      rw [hcall]
      rfl

/-- A dispatch gives its gather a name that is taken from then on. -/
theorem lt_nextId_dispatch (hm : m.Sound) {h : Host} (hh : m.host? node = some h)
    (inquiry : Inquiry) : m.nextId < (m.turn (.dispatch node inquiry)).nextId := by
  rw [turn_dispatch hh]
  cases hlocal : inquiry.runLocally h.registry with
  | error e =>
    rw [m.dispatch_error h hlocal]
    exact Nat.lt_succ_self _
  | ok result =>
    obtain ⟨metrics, gathers, hframe⟩ := dispatch_frame hm.hosts (find?_of_host? hh) hlocal
    rw [hframe]
    show m.nextId < m.nextId + 1 + h.peers.length
    omega

/-- Every turn leaves a gather bound to its operation. -/
theorem Bound.turn (h : m.Bound id op) (hm : m.Sound) (hid : id < m.nextId) (t : Turn) :
    (m.turn t).Bound id op := by
  by_cases htouches : m.touches t id
  · cases t with
    | dispatch node inquiry => exact absurd hid (by rw [htouches]; exact Nat.lt_irrefl _)
    | fire order =>
      obtain ⟨t, htimer, hfor⟩ := (Option.any_eq_true ..).1 htouches
      obtain ⟨c, hc, hgather⟩ := Timer.isFor_iff.1 hfor
      rw [show m.turn (.fire order) = m.fire t by rw [Mesh.turn, htimer]; rfl]
      intro u hu d hd hd'
      -- a timer that is set goes on with the call of the one that went off
      rcases (pursues_fire hm.hosts hc).timers u hu with hold | hnew
      · exact h u hold d hd hd'
      · obtain rfl := Option.some.inj (hd.symm.trans hnew)
        exact h t (timer?_mem htimer) d hc hgather
    | cancel id' =>
      intro u hu d hd hd'
      refine h u ?_ d hd hd'
      rw [Mesh.turn, cancel] at hu
      split at hu
      · exact hu
      · exact (List.mem_filter.1 hu).1
    | _ => cases htouches
  · have hsame := (undisturbed_turn hm hid htouches).timers
    intro u hu d hd hd'
    have hown : u ∈ (m.turn t).timers.filter (Timer.isFor id) :=
      List.mem_filter.2 ⟨hu, Timer.isFor_iff.2 ⟨d, hd, hd'⟩⟩
    rw [hsame] at hown
    exact h u (List.mem_filter.1 hown).1 d hd hd'

/-- What is due for a gather stays due for one operation in any run. -/
theorem Bound.run (h : m.Bound id op) (hm : m.Sound) (hid : id < m.nextId) (turns : List Turn) :
    (m.run turns).Bound id op := by
  induction turns generalizing m with
  | nil => exact h
  | cons t turns ih => exact ih (h.turn hm hid t) (hm.turn t) (lt_nextId_turn hm hid t)

/-- **What a dispatch does to registries** is to run its operation: no turn of it does anything else
to the registry of any node. -/
theorem eq_execute_of_own (h : m.Bound id op) (hm : m.Sound) (hid : id < m.nextId) {t : Turn}
    (hown : m.isOwn id t = true) (node : String) : ∀ a ∈ m.deeds node t, a = .execute op := by
  cases t with
  | dispatch node' inquiry =>
    rw [isOwn, beq_iff_eq] at hown
    exact absurd hid (by rw [hown]; exact Nat.lt_irrefl _)
  | fire order =>
    obtain ⟨t, htimer, hfor⟩ := (Option.any_eq_true ..).1 hown
    obtain ⟨c, hc, hgather⟩ := Timer.isFor_iff.1 hfor
    have hop : c.operation = op := h t (timer?_mem htimer) c hc hgather
    obtain ⟨events, hjournal, hevents⟩ := (pursues_fire hm.hosts hc).journal
    -- what ran on the node is noted, and noted of this call
    have hran : ∀ a ∈ ranOn node events, a = .execute op := by
      intro a ha
      obtain ⟨e, he, hea⟩ := List.mem_filterMap.1 ha
      have hcall := hevents e he
      cases e with
      | ran d =>
        dsimp only at hea
        split at hea
        · rw [← Option.some.inj hea, show d = c from hcall, hop]
        · cases hea
      | began _ | ended _ _ => cases hea
    intro a ha
    rw [deeds, htimer, Option.elim_some, hjournal, List.drop_left] at ha
    cases hevent : t.event with
    | call _ | arrival _ _ _ _ =>
      rw [hevent] at ha
      exact hran a ha
    | sweeperStart _ | sweep _ =>
      rw [hevent] at hc
      cases hc
  | _ => cases hown

/-- The dispatch itself runs its operation on its own node. -/
theorem eq_execute_of_dispatch (m : Mesh) (node' : String) (inquiry : Inquiry) (node : String) :
    ∀ a ∈ m.deeds node (.dispatch node' inquiry), a = .execute inquiry.operation := by
  intro a ha
  rw [deeds] at ha
  split at ha
  · exact List.mem_singleton.1 ha
  · cases ha

end PushMesh.Mesh
