import PushMesh.Proofs.Mesh.Sound
import PushMesh.Proofs.Mesh.Toll

/-!
# What is known of one call

`Mesh.page` collects what the timers and the journal say about the call of a gather to a node: what
is due, how many attempts were made, how often the operation was run, and with what results attempts
ended. Pages of different nodes do not meddle: what is noted of a call is added to its own page
(`page_of_journal`), and a timer that goes off is missing from its own page only (`page_filter`).
-/

namespace PushMesh

/-- How an attempt ends. -/
abbrev Reply := Except PeerError Output

namespace CallEvent

/-- Whether an attempt to call a node was made. -/
def isBegan (node : String) : CallEvent → Bool
  | began c => c.callee.id == node
  | ran _ => false
  | ended .. => false

/-- Whether a node ran the operation. -/
def isRan (node : String) : CallEvent → Bool
  | began _ => false
  | ran c => c.callee.id == node
  | ended .. => false

/-- The result of an attempt to call a node. -/
def result? (node : String) : CallEvent → Option Reply
  | began _ => none
  | ran _ => none
  | ended c result => if c.callee.id == node then some result else none

end CallEvent

/-- Whether a timer belongs to a call to a node. -/
def Timer.isTo (node : String) (t : Timer) : Bool :=
  t.event.call?.any (·.callee.id == node)

/-- What is known of one call. -/
structure Page where
  /-- What is due. -/
  due : List Event
  /-- The number of attempts that were made. -/
  began : Nat
  /-- How often the operation was run. -/
  ran : Nat
  /-- The results of the attempts that ended. -/
  results : List Reply

/-- The page with what was noted since. -/
def Page.add (p : Page) (node : String) (events : List CallEvent) : Page :=
  { due := p.due
    began := p.began + events.countP (CallEvent.isBegan node)
    ran := p.ran + events.countP (CallEvent.isRan node)
    results := p.results ++ events.filterMap (CallEvent.result? node) }

namespace Mesh

/-- What is known of the call of a gather to a node. -/
def page (m : Mesh) (id : Nat) (node : String) : Page :=
  let journal := m.journal.filter (CallEvent.isFor id)
  { due := ((m.timers.filter (Timer.isFor id)).filter (Timer.isTo node)).map (·.event)
    began := journal.countP (CallEvent.isBegan node)
    ran := journal.countP (CallEvent.isRan node)
    results := journal.filterMap (CallEvent.result? node) }

variable {m m' : Mesh} {id : Nat}

/-- Pages depend on the timers and the journal of their gather. -/
theorem page_congr (htimers : m'.timers.filter (Timer.isFor id) = m.timers.filter (Timer.isFor id))
    (hjournal : m'.journal.filter (CallEvent.isFor id) = m.journal.filter (CallEvent.isFor id))
    (node : String) : m'.page id node = m.page id node := by
  unfold page
  rw [htimers, hjournal]

/-- What is noted of a call is added to the page of its callee, and to no other. -/
theorem page_of_journal {c : PeerCall} {events : List CallEvent}
    (htimers : m'.timers = m.timers) (hjournal : m'.journal = m.journal ++ events)
    (hevents : ∀ e ∈ events, e.call = c) (hid : c.gather = id) (node : String) :
    m'.page id node =
      if node = c.callee.id then (m.page id node).add node events else m.page id node := by
  -- all that is noted is about the gather
  have hown : events.filter (CallEvent.isFor id) = events := by
    refine List.filter_eq_self.2 fun e he => ?_
    rw [CallEvent.isFor, hevents e he, hid]
    exact beq_self_eq_true id
  unfold page
  rw [htimers, hjournal, List.filter_append, hown]
  split
  · simp [Page.add]
  · next hnode =>
    -- nothing of it is about another callee
    have hnone : ∀ e ∈ events, e.isBegan node = false ∧ e.isRan node = false ∧
        e.result? node = none := by
      intro e he
      have hcallee : (e.call.callee.id == node) = false := by
        rw [hevents e he]
        exact beq_eq_false_iff_ne.2 (Ne.symm hnode)
      cases e <;> simp_all [CallEvent.isBegan, CallEvent.isRan, CallEvent.result?, CallEvent.call]
    have hbegan : events.countP (CallEvent.isBegan node) = 0 :=
      List.countP_eq_zero.2 fun e he => by simp [(hnone e he).1]
    have hran : events.countP (CallEvent.isRan node) = 0 :=
      List.countP_eq_zero.2 fun e he => by simp [(hnone e he).2.1]
    have hresults : events.filterMap (CallEvent.result? node) = [] :=
      List.filterMap_eq_nil_iff.2 fun e he => (hnone e he).2.2
    dsimp only
    rw [List.countP_append, List.countP_append, List.filterMap_append, hbegan, hran, hresults,
      List.append_nil]
    rfl

/-- A timer that is set for a call is due on the page of its callee. -/
theorem page_schedule (m : Mesh) (delay : Nat) {event : Event} {c : PeerCall}
    (hc : event.call? = some c) (hid : c.gather = id) (node : String) :
    (m.schedule delay event).page id node =
      if node = c.callee.id then
        { m.page id node with due := (m.page id node).due ++ [event] }
      else m.page id node := by
  have hfor : Timer.isFor id ⟨m.now + delay, m.nextOrder, event⟩ = true :=
    Timer.isFor_iff.2 ⟨c, hc, hid⟩
  have hto : Timer.isTo node ⟨m.now + delay, m.nextOrder, event⟩ = (c.callee.id == node) := by
    simp [Timer.isTo, hc]
  have htimers : (m.schedule delay event).timers.filter (Timer.isFor id) =
      m.timers.filter (Timer.isFor id) ++ [⟨m.now + delay, m.nextOrder, event⟩] := by
    change (m.timers ++ [_]).filter _ = _
    rw [List.filter_append, List.filter_cons_of_pos hfor, List.filter_nil]
  unfold page
  rw [htimers, List.filter_append]
  by_cases hnode : node = c.callee.id
  · rw [if_pos hnode, List.filter_cons_of_pos (by rw [hto, hnode]; exact beq_self_eq_true _),
      List.filter_nil, List.map_append]
    rfl
  · rw [if_neg hnode, List.filter_cons_of_neg (by rw [hto, beq_iff_eq]; exact Ne.symm hnode),
      List.filter_nil, List.append_nil]
    rfl

/-- The one timer of a page is the only one for its call. -/
theorem timers_of_due {t : Timer} (ht : t ∈ m.timers) {c : PeerCall} (hc : t.event.call? = some c)
    (hid : c.gather = id) {event : Event} (hdue : (m.page id c.callee.id).due = [event]) :
    (m.timers.filter (Timer.isFor id)).filter (Timer.isTo c.callee.id) = [t] ∧ t.event = event := by
  have hlisted : t ∈ (m.timers.filter (Timer.isFor id)).filter (Timer.isTo c.callee.id) := by
    simp [ht, Timer.isFor, Timer.isTo, hc, hid]
  obtain ⟨u, hu, huevent⟩ : ∃ u, (m.timers.filter (Timer.isFor id)).filter
      (Timer.isTo c.callee.id) = [u] ∧ u.event = event := List.map_eq_singleton_iff.1 hdue
  obtain rfl : t = u := List.mem_singleton.1 (hu ▸ hlisted)
  exact ⟨hu, huevent⟩

/-- When the one timer of a page goes off, nothing is due there, and elsewhere what was due. -/
theorem page_filter (hm : m.Sound) {t : Timer} (ht : t ∈ m.timers) {c : PeerCall}
    (hc : t.event.call? = some c) (hid : c.gather = id) {event : Event} {now : Nat}
    (hdue : (m.page id c.callee.id).due = [event]) (node : String) :
    t.event = event ∧
      { m with timers := m.timers.filter (·.order != t.order), now }.page id node =
        if node = c.callee.id then { m.page id node with due := [] } else m.page id node := by
  obtain ⟨hown, hevent⟩ := timers_of_due ht hc hid hdue
  have hswap :
      ((m.timers.filter (·.order != t.order)).filter (Timer.isFor id)).filter (Timer.isTo node) =
        ((m.timers.filter (Timer.isFor id)).filter (Timer.isTo node)).filter
          (·.order != t.order) := by
    simp only [List.filter_filter]
    refine List.filter_congr fun u _ => ?_
    rw [← Bool.and_assoc, Bool.and_comm]
  refine ⟨hevent, ?_⟩
  unfold page
  dsimp only
  rw [hswap]
  split
  · next hnode =>
    rw [hnode, hown, List.filter_cons_of_neg (by simp)]
    rfl
  · next hnode =>
    rw [List.filter_eq_self.2]
    intro u hu
    simp only [List.mem_filter] at hu
    rw [bne_iff_ne]
    intro horder
    -- only the timer that goes off has its order, and it is due elsewhere
    obtain rfl := hm.eq_of_order hu.1.1 ht horder
    have hnode' : c.callee.id = node := by simpa [Timer.isTo, hc] using hu.2
    exact hnode hnode'.symm

end Mesh

end PushMesh
