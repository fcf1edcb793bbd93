import PushMesh.Proofs.Mesh.Opening

/-!
# The calls of one dispatch

`Setup` is what a dispatch fixes once and for all, and `Kept` is what holds at every moment of its
gather and of everything that belongs to it. A mesh changes in a few ways while calls are made:
something is noted, a timer is set, a timer goes off (`popped`), and a result goes into the
gather. Each of them keeps `Kept`, and changes no page but that of the call in hand.
-/

namespace PushMesh

/-- One entry of a list with different keys told apart from the others in a sum. -/
theorem sum_map_eq_filter_add {α β : Type} [BEq β] [LawfulBEq β] {key : α → β} {l : List α}
    (hkeys : (l.map key).Nodup) {a : α} (ha : a ∈ l) (f : α → Nat) :
    (l.map f).sum = ((l.filter fun b => key b != key a).map f).sum + f a := by
  induction l with
  | nil => cases ha
  | cons b l ih =>
    obtain ⟨hnew, hl⟩ := List.nodup_cons.1 hkeys
    rcases List.mem_cons.1 ha with rfl | ha
    · have hrest : (l.filter fun d => key d != key a) = l := by
        refine List.filter_eq_self.2 fun d hd => ?_
        have hne : key d ≠ key a := fun heq => hnew (List.mem_map.2 ⟨d, hd, heq⟩)
        simpa using hne
      rw [List.filter_cons_of_neg (by simp), hrest, List.map_cons, List.sum_cons, Nat.add_comm]
    · have hne : key b ≠ key a := fun heq => hnew (List.mem_map.2 ⟨a, ha, heq.symm⟩)
      have hsum := ih hl ha
      rw [List.filter_cons_of_pos (by simpa using hne), List.map_cons, List.map_cons,
        List.sum_cons, List.sum_cons]
      omega

/-- The calls of one dispatch. -/
structure Setup where
  id : Nat
  node : String
  own : Tally
  peers : Ascending String
  calls : List PeerCall
  operation : Operation
  kind : Tally.Kind
  timeout : Nat
  retries : Bool

/-- The calls of a dispatch go to different peers and are alike apart from that. -/
structure Setup.Valid (x : Setup) : Prop where
  callees : (x.calls.map (·.callee.id)).Nodup
  gather : ∀ c ∈ x.calls, c.gather = x.id
  operation : ∀ c ∈ x.calls, c.operation = x.operation
  kind : ∀ c ∈ x.calls, c.kind = x.kind
  timeout : ∀ c ∈ x.calls, c.timeout = x.timeout
  retries : ∀ c ∈ x.calls, c.retries = x.retries

namespace Setup

variable {x : Setup} {c : PeerCall}

/-- The calls but the one to a peer. -/
def others (x : Setup) (c : PeerCall) : List PeerCall :=
  x.calls.filter fun d => d.callee.id != c.callee.id

/-- The call to a peer told apart from the others in a sum. -/
theorem Valid.sum_calls (hx : x.Valid) (hc : c ∈ x.calls) (f : PeerCall → Nat) :
    (x.calls.map f).sum = ((x.others c).map f).sum + f c :=
  sum_map_eq_filter_add hx.callees hc f

/-- The other calls are those to other peers. -/
theorem mem_others {d : PeerCall} :
    d ∈ x.others c ↔ d ∈ x.calls ∧ d.callee.id ≠ c.callee.id := by
  rw [others, List.mem_filter, bne_iff_ne]

/-- The calls to a peer and to the others are all calls. -/
theorem Valid.eq_or_mem_others (hx : x.Valid) (hc : c ∈ x.calls) {d : PeerCall}
    (hd : d ∈ x.calls) : d = c ∨ d ∈ x.others c := by
  by_cases heq : d.callee.id = c.callee.id
  · exact .inl (List.inj_on_of_nodup_map hx.callees hd hc heq)
  · exact .inr (mem_others.2 ⟨hd, heq⟩)

end Setup

namespace Mesh

variable {x : Setup} {g : Gather} {answers : List (String × Tally)} {c : PeerCall} {m m' : Mesh}

/-! ## What is kept -/

/-- What holds of a gather and of all that belongs to it, apart from where each call stands. -/
structure Kept (x : Setup) (g : Gather) (answers : List (String × Tally)) (m : Mesh) : Prop where
  gather : m.gather? x.id = some g
  accounts : g.Accounts x.node x.own x.peers answers
  phase : g.phase ≠ .cancelled
  timers : ∀ t ∈ m.timers, ∀ c, t.event.call? = some c → c.gather = x.id → c ∈ x.calls
  journal : ∀ e ∈ m.journal, e.call.gather = x.id → e.call ∈ x.calls

/-- A gather that awaits somebody still runs. -/
theorem Kept.awaits (h : Kept x g answers m) {node : String} (hout : node ∈ g.outstanding) :
    g.awaits node = true := by
  refine Gather.awaits_iff.2 ⟨?_, hout⟩
  rcases h.accounts.phase with hdone | hrun | hcancelled
  · have hempty := h.accounts.completed_iff.1 hdone
    exact absurd hout (Ascending.isEmpty_iff.1 hempty node)
  · exact hrun
  · exact absurd hcancelled h.phase

/-- A gather that is done is complete, and awaits nobody. -/
theorem Kept.completed (h : Kept x g answers m) (hdone : g.isDone = true) :
    g.phase = .completed ∧ ∀ node, node ∉ g.outstanding := by
  have hcompleted : g.phase = .completed := by
    rcases h.accounts.phase with hphase | hphase | hphase
    · exact hphase
    · rw [Gather.isDone, hphase] at hdone
      cases hdone
    · exact absurd hphase h.phase
  exact ⟨hcompleted, Ascending.isEmpty_iff.1 (h.accounts.completed_iff.1 hcompleted)⟩

/-- A node that is not called runs nothing. -/
theorem Kept.ran_eq_zero (h : Kept x g answers m) {node : String}
    (hnode : ∀ c ∈ x.calls, c.callee.id ≠ node) : (m.page x.id node).ran = 0 := by
  refine List.countP_eq_zero.2 fun e he => ?_
  obtain ⟨hmem, hfor⟩ := List.mem_filter.1 he
  have hc := hnode _ (h.journal e hmem (beq_iff_eq.1 hfor))
  cases e with
  | ran c => simpa [CallEvent.isRan, CallEvent.call] using hc
  | began c | ended c r => simp [CallEvent.isRan]

/-- What leaves a gather alone, with its calls, keeps what is kept. -/
theorem Kept.undisturbed (h : Kept x g answers m) (hu : Undisturbed x.id m m') :
    ∃ g', g.SameBooks g' ∧ g'.phase = g.phase ∧ Kept x g' answers m' := by
  obtain ⟨g', hg', hsame, hphase⟩ := hu.gather g h.gather
  refine ⟨g', hsame, hphase, hg', h.accounts.congr hsame hphase, hphase ▸ h.phase, ?_, ?_⟩
  · intro t ht c hc hid
    have hown : t ∈ m'.timers.filter (Timer.isFor x.id) :=
      List.mem_filter.2 ⟨ht, Timer.isFor_iff.2 ⟨c, hc, hid⟩⟩
    rw [hu.timers] at hown
    exact h.timers t (List.mem_filter.1 hown).1 c hc hid
  · intro e he hid
    have hown : e ∈ m'.journal.filter (CallEvent.isFor x.id) :=
      List.mem_filter.2 ⟨he, by simp [CallEvent.isFor, hid]⟩
    rw [hu.journal] at hown
    exact h.journal e (List.mem_filter.1 hown).1 hid

/-! ## Notes -/

/-- What is noted of a call leaves the gather as it was. -/
theorem Noted.kept {events : List CallEvent} (hnoted : Noted c events m m') (hc : c ∈ x.calls)
    (h : Kept x g answers m) : Kept x g answers m' := by
  refine ⟨?_, h.accounts, h.phase, hnoted.timers ▸ h.timers, ?_⟩
  · rw [gather?, hnoted.gathers]
    exact h.gather
  · intro e he hid
    rw [hnoted.journal] at he
    rcases List.mem_append.1 he with hold | hnew
    · exact h.journal e hold hid
    · rw [hnoted.call e hnew]
      exact hc

/-- What is noted stands on the page of the callee. -/
theorem Noted.page {events : List CallEvent} (hnoted : Noted c events m m') (hx : x.Valid)
    (hc : c ∈ x.calls) (node : String) : m'.page x.id node =
      if node = c.callee.id then (m.page x.id node).add node events else m.page x.id node :=
  page_of_journal hnoted.timers hnoted.journal hnoted.call (hx.gather c hc) node

/-- What is noted of a call is not on the page of another. -/
theorem Noted.page_others {events : List CallEvent} (hnoted : Noted c events m m') (hx : x.Valid)
    (hc : c ∈ x.calls) {d : PeerCall} (hd : d ∈ x.others c) :
    m'.page x.id d.callee.id = m.page x.id d.callee.id := by
  rw [hnoted.page hx hc, if_neg (Setup.mem_others.1 hd).2]

/-! ## Timers -/

/-- A timer for a call leaves the gather as it was. -/
theorem Kept.schedule (h : Kept x g answers m) (hc : c ∈ x.calls) {event : Event}
    (hevent : event.call? = some c) (wait : Nat) : Kept x g answers (m.schedule wait event) := by
  refine ⟨h.gather, h.accounts, h.phase, ?_, h.journal⟩
  intro t ht d hd hid
  rcases List.mem_append.1 ht with hold | hnew
  · exact h.timers t hold d hd hid
  · rw [List.mem_singleton.1 hnew, hevent] at hd
    exact Option.some.inj hd ▸ hc

/-- A timer that is set for a call turns no page but that of its callee. -/
theorem page_schedule_others (m : Mesh) (hx : x.Valid) (hc : c ∈ x.calls) {event : Event}
    (hevent : event.call? = some c) (wait : Nat) {d : PeerCall} (hd : d ∈ x.others c) :
    (m.schedule wait event).page x.id d.callee.id = m.page x.id d.callee.id := by
  rw [page_schedule m wait hevent (hx.gather c hc), if_neg (Setup.mem_others.1 hd).2]

/-- The mesh at the moment that a timer goes off. -/
def popped (m : Mesh) (t : Timer) : Mesh :=
  { m with timers := m.timers.filter (·.order != t.order), now := max m.now t.due }

/-- A timer that goes off is taken off the list and then performed. -/
theorem fire_eq (m : Mesh) (t : Timer) : m.fire t = (m.popped t).perform t.event := rfl

/-- Taking a timer off the list is a small change. -/
theorem evolved_popped (m : Mesh) (t : Timer) :
    Evolved (fun _ => True) (fun _ => True) m (m.popped t) :=
  Evolved.refl.filter (max m.now t.due) _ fun _ _ _ _ _ => trivial

/-- The one timer of a page is due there no more, and every other page stays. -/
theorem page_popped (hx : x.Valid) (hm : m.Sound) {t : Timer} (ht : t ∈ m.timers)
    (hcall : t.event.call? = some c) (hc : c ∈ x.calls) {event : Event}
    (hdue : (m.page x.id c.callee.id).due = [event]) :
    t.event = event ∧
      (∀ node, (m.popped t).page x.id node =
        if node = c.callee.id then { m.page x.id node with due := [] } else m.page x.id node) ∧
      ∀ d ∈ x.others c, (m.popped t).page x.id d.callee.id = m.page x.id d.callee.id := by
  have hpage : ∀ node, t.event = event ∧ (m.popped t).page x.id node =
      if node = c.callee.id then { m.page x.id node with due := [] } else m.page x.id node :=
    page_filter hm ht hcall (hx.gather c hc) hdue
  refine ⟨(hpage c.callee.id).1, fun node => (hpage node).2, fun d hd => ?_⟩
  exact (hpage d.callee.id).2.trans (if_neg (Setup.mem_others.1 hd).2)

/-- Taking a timer off the list leaves the gather as it was. -/
theorem Kept.popped (h : Kept x g answers m) (t : Timer) : Kept x g answers (m.popped t) :=
  ⟨h.gather, h.accounts, h.phase, fun u hu => h.timers u (List.mem_filter.1 hu).1, h.journal⟩

/-- A page with nothing due has no timer. -/
theorem due_ne_nil {t : Timer} (ht : t ∈ m.timers) (hcall : t.event.call? = some c) :
    (m.page c.gather c.callee.id).due ≠ [] := by
  refine List.ne_nil_of_mem (a := t.event) (List.mem_map.2 ⟨t, ?_, rfl⟩)
  simp [ht, Timer.isFor, Timer.isTo, hcall]

/-- What is due has a timer. -/
theorem exists_timer_of_due {id : Nat} {node : String} (h : (m.page id node).due ≠ []) :
    ∃ t ∈ m.timers, Timer.isFor id t = true ∧ Timer.isTo node t = true := by
  obtain ⟨e, he⟩ := List.exists_mem_of_ne_nil _ h
  obtain ⟨t, ht, -⟩ := List.mem_map.1 he
  obtain ⟨hfirst, hto⟩ := List.mem_filter.1 ht
  obtain ⟨hmem, hfor⟩ := List.mem_filter.1 hfirst
  exact ⟨t, hmem, hfor, hto⟩

/-! ## Results -/

/-- A result goes into the gather. -/
theorem Kept.settle (h : Kept x g answers m) (hid : c.gather = x.id) (r : Metrics → Metrics)
    {f : Gather → Gather × List Gather.Notice} {answers' : List (String × Tally)}
    (haccounts : (f g).1.Accounts x.node x.own x.peers answers')
    (hphase : (f g).1.phase ≠ .cancelled) :
    Kept x (f g).1 answers' ((m.record r).onGather c.gather f) := by
  obtain ⟨gathers, notices, heq⟩ := (m.record r).onGather_frame c.gather f
  have hgather : ((m.record r).onGather c.gather f).gather? x.id = some (f g).1 := by
    rw [gather?_onGather, hid, if_pos rfl]
    exact congrArg (Option.map _) h.gather
  refine ⟨hgather, haccounts, hphase, ?_, ?_⟩
  · rw [heq]
    exact h.timers
  · rw [heq]
    exact h.journal

/-- No result turns a page. -/
theorem page_settle (m : Mesh) (r : Metrics → Metrics) (id : Nat)
    (f : Gather → Gather × List Gather.Notice) (id' : Nat) (node : String) :
    ((m.record r).onGather id f).page id' node = m.page id' node := by
  obtain ⟨gathers, notices, heq⟩ := (m.record r).onGather_frame id f
  exact page_congr (by rw [heq]; rfl) (by rw [heq]; rfl) node

/-! ## The dispatch itself -/

/-- The calls of a dispatch whose own answer is `own`. -/
def setupOf (m : Mesh) (h : Host) (inquiry : Inquiry) (own : Tally) : Setup :=
  { id := m.nextId
    node := h.registry.nodeId
    own
    peers := .ofList (h.peers.map (·.id))
    calls := m.callsOf h inquiry
    operation := inquiry.operation
    kind := inquiry.kind
    timeout := h.config.requestTimeout
    retries := h.config.retryOnTimeout }

variable {h : Host} {inquiry : Inquiry} {own : Tally}

/-- The calls of a dispatch go to different peers. -/
theorem valid_setupOf (m : Mesh) (h : Host) (inquiry : Inquiry) (own : Tally) :
    (m.setupOf h inquiry own).Valid := by
  have halike : ∀ c ∈ m.callsOf h inquiry, ∃ task, c = callTo m.nextId h inquiry task c.callee :=
    fun c hc => eq_callTo_of_mem hc
  refine ⟨m.nodup_callsOf h inquiry, ?_, ?_, ?_, ?_, ?_⟩
  all_goals
    intro c hc
    obtain ⟨task, heq⟩ := halike c hc
    rw [heq]
    rfl

/-- What is kept after an accepted dispatch: the gather has the node's own answer alone, and awaits
the callees. -/
theorem kept_dispatch (hm : m.Sound) (hh : m.hosts.find? (·.self.id == h.self.id) = some h)
    {r : Registry} (hlocal : inquiry.runLocally h.registry = .ok (r, own)) :
    ∃ g, Kept (m.setupOf h inquiry own) g [] (m.dispatch h inquiry).1 ∧ g.value = own ∧
      g.failures = [] ∧ ∀ c ∈ m.callsOf h inquiry, c.callee.id ∈ g.outstanding := by
  obtain ⟨metrics, gathers, heq⟩ := dispatch_frame hm.hosts hh hlocal
  obtain ⟨g, hgather, haccounts, hvalue, hout, hfailures, hphase⟩ := gather_dispatch (m := m) hlocal
  refine ⟨g, ⟨hgather, haccounts, hphase, ?_, ?_⟩, hvalue, hfailures, ?_⟩
  · intro t ht c hc hid
    -- a timer of this gather is one of those just set
    have hfor : t ∈ (m.timers ++ callTimers m.now m.nextOrder (m.callsOf h inquiry)).filter
        (Timer.isFor m.nextId) := by
      rw [heq] at ht
      have hgather : c.gather = m.nextId := hid
      exact List.mem_filter.2 ⟨ht, Timer.isFor_iff.2 ⟨c, hc, hgather⟩⟩
    rw [timers_dispatch hm] at hfor
    obtain ⟨-, d, hd, hdt⟩ := of_mem_callTimers hfor
    rw [hdt] at hc
    exact Option.some.inj hc ▸ hd
  · intro e he hid
    rw [heq] at he
    -- nothing in the journal is about a gather that is only opened now
    have hlt := hm.journal_lt e he
    rw [hid] at hlt
    exact absurd hlt (Nat.lt_irrefl _)
  · intro c hc
    rw [hout, Ascending.mem_ofList]
    exact List.mem_map.2 ⟨c.callee, callee_mem_peers hc, rfl⟩

end Mesh

end PushMesh
