import PushMesh.Proofs.Answers
import PushMesh.Proofs.Mesh.Kept

/-!
# Dispatches where all is well

Where every peer is there and every link lets calls through in time, no call is given up, and each
peer runs the operation once, when its call starts or when it arrives. `Healthy` says this of a
moment between two timers, `InHand` of a moment while the call of a timer is in hand. A timer that
goes off uses up one of the steps that are left, two for each call at the start (`Healthy.fire`), so
the dispatch is over after a bounded number of them, in whatever order they come (`Healthy.run`).
-/

namespace PushMesh

/-! ## Links -/

/-- Whether a link lets calls through within a time. -/
structure Link.Prompt (timeout : Nat) (l : Link) : Prop where
  fate : l.fate = .runs
  delay : l.delay ≤ timeout

/-- On a prompt link an attempt ends with what was there early, and else by running the operation. -/
theorem Link.Prompt.verdict_eq {timeout : Nat} {l : Link} (h : l.Prompt timeout)
    (early : Option Reply) : l.verdict timeout early = early := by
  unfold verdict
  rw [if_neg (Nat.not_lt.2 h.delay)]
  cases early with
  | some r => rfl
  | none => simp [h.fate]

/-! ## Hosts -/

/-- The hosts after those of some nodes ran an operation for a peer. -/
def served (op : Operation) (ran : String → Bool) (hosts : List Host) : List Host :=
  hosts.map fun h => if ran h.self.id then h.serve op else h

/-- A host that has served an operation is still found by its id. -/
theorem find?_served (op : Operation) (ran : String → Bool) (hosts : List Host) (node : String) :
    (served op ran hosts).find? (·.self.id == node) =
      (hosts.find? (·.self.id == node)).map fun h => if ran h.self.id then h.serve op else h := by
  rw [served, List.find?_map]
  congr 2
  funext h
  rw [Function.comp_apply]
  split <;> rfl

/-- One more node runs the operation. -/
theorem serveAt_served {op : Operation} {ran : String → Bool} {node : String}
    (h : ran node = false) (hosts : List Host) :
    serveAt node op (served op ran hosts) = served op (fun i => i == node || ran i) hosts := by
  rw [serveAt, served, served, List.map_map]
  refine List.map_congr_left fun k _ => ?_
  rw [Function.comp_apply]
  by_cases hk : k.self.id = node
  · simp [hk, h]
  · cases hran : ran k.self.id with
    | false => simp [hk]
    | true =>
      have hserve : (k.serve op).self.id = k.self.id := rfl
      simp [hk, hserve]

/-- A node that has not run the operation replies as at the start. -/
theorem replyOf_served {op : Operation} {ran : String → Bool} {c : PeerCall}
    (h : ran c.callee.id = false) (hosts : List Host) :
    replyOf (served op ran hosts) c = replyOf hosts c := by
  unfold replyOf
  rw [find?_served]
  cases hk : hosts.find? (·.self.id == c.callee.id) with
  | none => rfl
  | some k =>
    have hid : k.self.id = c.callee.id := by simpa using List.find?_some hk
    rw [Option.map_some, hid, h]
    rfl

/-- The calls of a dispatch that all nodes accept, to nodes that are there. -/
structure Setup.Sane (x : Setup) (hosts : List Host) : Prop extends x.Valid where
  ids : (hosts.map (·.self.id)).Nodup
  accepted : x.operation.check = .ok ()
  present : ∀ c ∈ x.calls, ∃ k ∈ hosts, k.self.id = c.callee.id
  away : ∀ c ∈ x.calls, x.node ≠ c.callee.id
  peers : x.peers = .ofList (x.calls.map (·.callee.id))
  /-- What a node brings is of the kind that is folded. -/
  folds : ∀ k ∈ hosts, ∃ t, Tally.ofOutput x.kind (k.registry.perform x.operation).2 = .ok t

/-- The reply of a peer that runs the operation. -/
theorem Setup.Sane.replyOf_eq {x : Setup} {hosts : List Host} (hx : x.Sane hosts) {c : PeerCall}
    (hc : c ∈ x.calls) : ∃ k ∈ hosts, k.self.id = c.callee.id ∧
      replyOf hosts c = .ok (k.registry.perform x.operation).2 := by
  obtain ⟨k, hk, hid⟩ := hx.present c hc
  have hfind := find?_of_mem hx.ids hk
  rw [hid] at hfind
  refine ⟨k, hk, hid, ?_⟩
  rw [replyOf, hfind, hx.operation c hc, hx.accepted]

namespace Mesh

/-! ## Where a call stands -/

/-- Where a call stands by what is due for it, if its callee has run the operation or not. -/
inductive Place (timeout : Nat) (hosts : List Host) (g : Gather) (ran : Bool) (c : PeerCall) :
    List Event → Prop where
  | queued (hout : c.callee.id ∈ g.outstanding) (hran : ran = false) :
      Place timeout hosts g ran c [.call c]
  | trying {link : Link} {early : Option Reply} (hout : c.callee.id ∈ g.outstanding)
      (hlink : link.Prompt timeout) (hearly : early = if ran then some (replyOf hosts c) else none) :
      Place timeout hosts g ran c [.arrival c false link early]
  | settled (hout : c.callee.id ∉ g.outstanding) (hran : ran = true) :
      Place timeout hosts g ran c []

/-- The timers that have still to go off for a call. -/
def stepsOf : List Event → Nat
  | [.call _] => 2
  | [.arrival ..] => 1
  | _ => 0

/-- What holds of a healthy dispatch apart from where its calls stand. -/
structure Faring (x : Setup) (hosts : List Host) (g : Gather) (answers : List (String × Tally))
    (ran : String → Bool) (m : Mesh) : Prop extends Kept x g answers m where
  failures : g.failures = []
  hosts_eq : m.hosts = served x.operation ran hosts
  /-- The node that makes the inquiry has run it, too. -/
  ran_node : ran x.node = true
  links : ∀ c ∈ x.calls, ∀ l ∈ linksTo m.links c.callee.id, l.Prompt x.timeout
  answers : ∀ a ∈ answers, ∃ k ∈ hosts, k.self.id = a.1 ∧
    Tally.ofOutput x.kind (k.registry.perform x.operation).2 = .ok a.2

/-- A healthy dispatch, between two timers. -/
structure Healthy (x : Setup) (hosts : List Host) (g : Gather) (answers : List (String × Tally))
    (ran : String → Bool) (left : Nat) (m : Mesh) : Prop extends Faring x hosts g answers ran m where
  place : ∀ c ∈ x.calls,
    Place x.timeout hosts g (ran c.callee.id) c (m.page x.id c.callee.id).due
  left_eq : left = (x.calls.map fun c => stepsOf (m.page x.id c.callee.id).due).sum

/-- A healthy dispatch with one of its calls in hand. -/
structure InHand (x : Setup) (hosts : List Host) (g : Gather) (answers : List (String × Tally))
    (ran : String → Bool) (left : Nat) (c : PeerCall) (m : Mesh) : Prop
    extends Faring x hosts g answers ran m where
  mem : c ∈ x.calls
  out : c.callee.id ∈ g.outstanding
  due : (m.page x.id c.callee.id).due = []
  place : ∀ d ∈ x.others c,
    Place x.timeout hosts g (ran d.callee.id) d (m.page x.id d.callee.id).due
  left_eq : left = ((x.others c).map fun d => stepsOf (m.page x.id d.callee.id).due).sum

variable {x : Setup} {hosts : List Host} {g : Gather} {answers : List (String × Tally)}
  {ran : String → Bool} {left : Nat} {c : PeerCall} {m m' : Mesh}

/-- Where a call stands, while its peer is awaited as before. -/
theorem Place.congr {timeout : Nat} {ran : Bool} {g' : Gather} {due : List Event}
    (h : Place timeout hosts g ran c due)
    (hout : c.callee.id ∈ g'.outstanding ↔ c.callee.id ∈ g.outstanding) :
    Place timeout hosts g' ran c due := by
  cases h with
  | queued h hran => exact .queued (hout.2 h) hran
  | trying h hlink hearly => exact .trying (hout.2 h) hlink hearly
  | settled h hran => exact .settled (fun hmem => h (hout.1 hmem)) hran

/-! ## The call in hand -/

/-- Noting something of the call in hand, with whatever its callee runs, keeps it in hand. -/
theorem InHand.advance (hx : x.Sane hosts) (h : InHand x hosts g answers ran left c m)
    {events : List CallEvent} (hnoted : Noted c events m m')
    (hlinks : ∀ node, linksTo m'.links node ⊆ linksTo m.links node) {ran' : String → Bool}
    (hhosts : m'.hosts = served x.operation ran' hosts)
    (hran : ∀ node, node ≠ c.callee.id → ran' node = ran node) :
    InHand x hosts g answers ran' left c m' := by
  have hothers : ∀ d ∈ x.others c, m'.page x.id d.callee.id = m.page x.id d.callee.id :=
    fun d hd => hnoted.page_others hx.toValid h.mem hd
  have hnode : ran' x.node = true := (hran x.node (hx.away c h.mem)).trans h.ran_node
  refine ⟨⟨hnoted.kept h.mem h.toKept, h.failures, hhosts, hnode, ?_, h.answers⟩, h.mem, h.out, ?_,
    ?_, ?_⟩
  · intro d hd l hl
    exact h.links d hd l (hlinks _ hl)
  · rw [hnoted.page hx.toValid h.mem, if_pos rfl]
    exact h.due
  · intro d hd
    rw [hothers d hd, hran _ (Setup.mem_others.1 hd).2]
    exact h.place d hd
  · rw [List.map_congr_left fun d hd => congrArg (fun p => stepsOf p.due) (hothers d hd)]
    exact h.left_eq

/-- An attempt is made, and its callee runs the operation at once or not. -/
theorem InHand.begin (hx : x.Sane hosts) (hm : m.Sound)
    (h : InHand x hosts g answers ran left c m) (hran : ran c.callee.id = false) :
    ∃ m' link early ran', m.begin c = (m', link, early) ∧ link.Prompt x.timeout ∧
      early = (if ran' c.callee.id then some (replyOf hosts c) else none) ∧
      InHand x hosts g answers ran' left c m' := by
  obtain ⟨m', hcases, hrest⟩ := begin_cases hm.hosts c
  have hlinks : ∀ node, linksTo m'.links node ⊆ linksTo m.links node := by
    rw [hrest]
    exact linksTo_restLinks m.links c.callee.id
  have hlink : (nextLink m.links c.callee.id).Prompt x.timeout :=
    h.links c h.mem _ (nextLink_mem m.links c.callee.id)
  rcases hcases with ⟨hbegin, hhosts, hnoted⟩ | ⟨hbegin, hhosts, hnoted⟩
  · -- the callee runs the operation first, and its reply is there early
    refine ⟨m', _, _, fun i => i == c.callee.id || ran i, hbegin, hlink, ?_, ?_⟩
    · rw [h.hosts_eq, replyOf_served hran]
      simp
    · refine h.advance hx hnoted hlinks ?_ fun node hnode => by simp [hnode]
      rw [hhosts, h.hosts_eq, hx.operation c h.mem, serveAt_served hran]
  · refine ⟨m', _, none, ran, hbegin, hlink, by rw [hran]; rfl, ?_⟩
    exact h.advance hx hnoted hlinks (hhosts.trans h.hosts_eq) fun _ _ => rfl

/-- An attempt ends with the reply of the callee, which has run the operation by then. -/
theorem InHand.arrive (hx : x.Sane hosts) (hm : m.Sound)
    (h : InHand x hosts g answers ran left c m) {link : Link} (hlink : link.Prompt x.timeout)
    {early : Option Reply}
    (hearly : early = if ran c.callee.id then some (replyOf hosts c) else none) :
    ∃ m' ran', m.arrive c link early = (m', replyOf hosts c) ∧ ran' c.callee.id = true ∧
      InHand x hosts g answers ran' left c m' := by
  obtain ⟨m', hcases, hrest⟩ := arrive_cases hm.hosts c link early
  have hlinks : ∀ node, linksTo m'.links node ⊆ linksTo m.links node := by
    rw [hrest]
    exact fun node => List.Subset.refl _
  rw [hx.timeout c h.mem, hlink.verdict_eq] at hcases
  cases hran : ran c.callee.id with
  | true =>
    -- the operation is not run a second time
    rw [hran, if_pos rfl] at hearly
    rcases hcases with ⟨r, hr, harrive, hhosts, hnoted⟩ | ⟨hnone, -⟩
    · obtain rfl := Option.some.inj (hr.symm.trans hearly)
      refine ⟨m', ran, harrive, hran, ?_⟩
      exact h.advance hx hnoted hlinks (hhosts.trans h.hosts_eq) fun _ _ => rfl
    · rw [hearly] at hnone
      cases hnone
  | false =>
    rw [hran, if_neg Bool.false_ne_true] at hearly
    rcases hcases with ⟨r, hr, -⟩ | ⟨-, harrive, hhosts, hnoted⟩
    · rw [hearly] at hr
      cases hr
    · rw [h.hosts_eq, replyOf_served hran] at harrive
      refine ⟨m', fun i => i == c.callee.id || ran i, harrive, by simp, ?_⟩
      refine h.advance hx hnoted hlinks ?_ fun node hnode => by simp [hnode]
      rw [hhosts, h.hosts_eq, hx.operation c h.mem, serveAt_served hran]

/-- The call is put down with the timer for the end of the attempt. -/
theorem InHand.schedule (hx : x.Sane hosts) (h : InHand x hosts g answers ran left c m)
    {link : Link} (hlink : link.Prompt x.timeout) {early : Option Reply}
    (hearly : early = if ran c.callee.id then some (replyOf hosts c) else none) (wait : Nat) :
    Healthy x hosts g answers ran (left + 1) (m.schedule wait (.arrival c false link early)) := by
  have hevent : (Event.arrival c false link early).call? = some c := rfl
  have hpage := page_schedule m wait hevent (hx.gather c h.mem)
  have hown : ((m.schedule wait (.arrival c false link early)).page x.id c.callee.id).due =
      [.arrival c false link early] := by
    rw [hpage, if_pos rfl, h.due]
    rfl
  have hothers := fun d hd => m.page_schedule_others hx.toValid h.mem hevent wait (d := d) hd
  refine ⟨⟨h.toKept.schedule h.mem hevent wait, h.failures, h.hosts_eq, h.ran_node, h.links,
    h.answers⟩, ?_, ?_⟩
  · intro d hd
    rcases hx.eq_or_mem_others h.mem hd with rfl | hd
    · rw [hown]
      exact .trying h.out hlink hearly
    · rw [hothers d hd]
      exact h.place d hd
  · rw [hx.sum_calls h.mem, hown, h.left_eq,
      List.map_congr_left fun d hd => congrArg (fun p => stepsOf p.due) (hothers d hd)]
    rfl

/-- The reply goes into the gather, and the peer is awaited no more. -/
theorem InHand.conclude (hx : x.Sane hosts) (h : InHand x hosts g answers ran left c m)
    (hran : ran c.callee.id = true) :
    ∃ g' answers', Healthy x hosts g' answers' ran left (m.conclude c (replyOf hosts c)) := by
  obtain ⟨k, hk, hid, hreply⟩ := hx.replyOf_eq h.mem
  obtain ⟨t, ht⟩ := hx.folds k hk
  have hconclude : m.conclude c (replyOf hosts c) =
      (m.record (·.recordCall .ok)).onGather c.gather (·.complete c.callee.id t) := by
    rw [Mesh.conclude, hreply, hx.kind c h.mem, Except.bind, ht]
  have hawaits := h.toKept.awaits h.out
  -- the gather changes by this answer alone, and no page is turned
  have hbooks := Gather.sameBooks_complete hawaits t
  have hpage := m.page_settle (·.recordCall .ok) c.gather (·.complete c.callee.id t) x.id
  obtain ⟨gathers, notices, heq⟩ :=
    (m.record (·.recordCall .ok)).onGather_frame c.gather (·.complete c.callee.id t)
  rw [hconclude]
  refine ⟨_, _, ⟨h.toKept.settle (hx.gather c h.mem) _ (h.accounts.complete hawaits t)
    (Gather.phase_complete_ne h.phase _ _), ?_, ?_, h.ran_node, ?_, ?_⟩, ?_, ?_⟩
  · exact hbooks.failures.trans h.failures
  · rw [heq]
    exact h.hosts_eq
  · rw [heq]
    exact h.links
  · intro a ha
    rcases List.mem_append.1 ha with hold | hnew
    · exact h.answers a hold
    · rw [List.mem_singleton.1 hnew]
      exact ⟨k, hk, hid, ht⟩
  · intro d hd
    rw [hpage]
    rcases hx.eq_or_mem_others h.mem hd with rfl | hd
    · rw [h.due]
      refine .settled ?_ hran
      rw [hbooks.outstanding]
      exact fun hmem => (Ascending.mem_erase.1 hmem).2 rfl
    · refine (h.place d hd).congr ?_
      rw [hbooks.outstanding, Ascending.mem_erase]
      exact and_iff_left (Setup.mem_others.1 hd).2
  · simp only [hpage]
    rw [hx.sum_calls h.mem, h.due, h.left_eq]
    rfl

/-! ## A timer that goes off -/

/-- The reply of a healthy peer ends the call at once. -/
theorem afterAttempt_replyOf (hx : x.Sane hosts) (hc : c ∈ x.calls) (m : Mesh) (isSecond : Bool) :
    m.afterAttempt c isSecond (replyOf hosts c) = m.conclude c (replyOf hosts c) := by
  obtain ⟨k, -, -, hreply⟩ := hx.replyOf_eq hc
  rw [hreply, afterAttempt, wantsRetry, Bool.and_false, if_neg Bool.false_ne_true]

/-- A timer that goes off takes its call in hand. -/
theorem Healthy.open (hx : x.Sane hosts) (hm : m.Sound) (h : Healthy x hosts g answers ran left m)
    {t : Timer} (ht : t ∈ m.timers) (hcall : t.event.call? = some c) (hc : c ∈ x.calls)
    (hout : c.callee.id ∈ g.outstanding) {event : Event}
    (hdue : (m.page x.id c.callee.id).due = [event]) :
    t.event = event ∧ ∃ left', left = left' + stepsOf [event] ∧
      InHand x hosts g answers ran left' c (m.popped t) := by
  obtain ⟨hevent, hpopped, hothers⟩ := page_popped hx.toValid hm ht hcall hc hdue
  refine ⟨hevent, _, ?_,
    ⟨h.toKept.popped t, h.failures, h.hosts_eq, h.ran_node, h.links, h.answers⟩, hc, hout, ?_, ?_,
    rfl⟩
  · rw [h.left_eq, hx.sum_calls hc, hdue,
      List.map_congr_left fun d hd => congrArg (fun p => stepsOf p.due) (hothers d hd)]
  · rw [hpopped, if_pos rfl]
  · intro d hd
    rw [hothers d hd]
    exact h.place d (Setup.mem_others.1 hd).1

/-- A timer of a healthy dispatch uses up one of the steps that are left. -/
theorem Healthy.fire (hx : x.Sane hosts) (hm : m.Sound) (h : Healthy x hosts g answers ran left m)
    {t : Timer} (ht : t ∈ m.timers) (hown : Timer.isFor x.id t = true) :
    ∃ g' answers' ran' left', Healthy x hosts g' answers' ran' left' (m.fire t) ∧ left' < left := by
  obtain ⟨c, hcall, hid⟩ := Timer.isFor_iff.1 hown
  have hc := h.timers t ht c hcall hid
  have hs : (m.popped t).Sound := (m.evolved_popped t).sound hm
  have hknows : (m.popped t).Knows c := (m.evolved_popped t).knows (hm.known t ht c hcall)
  have hplace := h.place c hc
  rw [fire_eq]
  -- a call that is queued has two steps left, one that is under way has one
  generalize hdue : (m.page x.id c.callee.id).due = due at hplace
  cases hplace with
  | queued hout hran =>
    obtain ⟨hevent, left', hleft, hopen⟩ := h.open hx hm ht hcall hc hout hdue
    obtain ⟨m₁, link, early, ran', hbegin, hlink, hearly, hopen⟩ := hopen.begin hx hs hran
    have hm₁ : m₁.Sound := by
      have hevolved : Evolved (fun _ => True) (fun _ => True) (m.popped t)
          ((m.popped t).begin c).1 := evolved_begin hknows trivial
      rw [hbegin] at hevolved
      exact hevolved.sound hs
    have hless : left' + 1 < left := by
      rw [hleft]
      exact Nat.lt_succ_self _
    rw [hevent, perform, attempt, hbegin]
    dsimp only
    by_cases hwait : min link.delay c.timeout = 0
    · -- the attempt takes no time, so its end uses up the second step at once
      obtain ⟨m₂, ran'', harrive, hran'', hopen⟩ := hopen.arrive hx hm₁ hlink hearly
      rw [if_pos hwait, harrive]
      dsimp only
      rw [afterAttempt_replyOf hx hc]
      obtain ⟨g', answers', hhealthy⟩ := hopen.conclude hx hran''
      exact ⟨g', answers', ran'', left', hhealthy, by omega⟩
    · rw [if_neg hwait]
      exact ⟨g, answers, ran', left' + 1, hopen.schedule hx hlink hearly _, hless⟩
  | trying hout hlink hearly =>
    obtain ⟨hevent, left', hleft, hopen⟩ := h.open hx hm ht hcall hc hout hdue
    obtain ⟨m₁, ran', harrive, hran', hopen⟩ := hopen.arrive hx hs hlink hearly
    rw [hevent, perform, harrive]
    dsimp only
    rw [afterAttempt_replyOf hx hc]
    obtain ⟨g', answers', hhealthy⟩ := hopen.conclude hx hran'
    refine ⟨g', answers', ran', left', hhealthy, ?_⟩
    rw [hleft]
    exact Nat.lt_succ_self _
  | settled hout hran =>
    -- nothing is due for a call that is settled, so no timer of it goes off
    have hnone := due_ne_nil ht hcall
    rw [hid] at hnone
    exact absurd hdue hnone

/-! ## A run -/

/-- Whether a turn lets time pass or a timer of a gather go off, and does nothing else. -/
def Attends (m : Mesh) (id : Nat) : Turn → Prop
  | .fire order => (m.timer? order).all (Timer.isFor id) = true
  | .pass _ => True
  | _ => False

/-- Whether nothing but the calls of a gather goes on in a run. -/
def AttendsAll (id : Nat) : Mesh → List Turn → Prop
  | _, [] => True
  | m, t :: turns => m.Attends id t ∧ AttendsAll id (m.turn t) turns

/-- The number of timers of a gather that go off in a run. -/
def fired (id : Nat) : Mesh → List Turn → Nat :=
  overOwn id fun _ _ => 1

/-- A turn keeps a dispatch healthy, and a timer that goes off uses up a step. -/
theorem Healthy.turn (hx : x.Sane hosts) (hm : m.Sound) (h : Healthy x hosts g answers ran left m)
    {t : Turn} (ht : m.Attends x.id t) :
    ∃ g' answers' ran' left', Healthy x hosts g' answers' ran' left' (m.turn t) ∧
      (if m.isOwn x.id t then 1 else 0) + left' ≤ left := by
  cases t with
  | fire order =>
    cases htimer : m.timer? order with
    | none =>
      have hturn : m.turn (.fire order) = m := by rw [Mesh.turn, htimer]; rfl
      have hown : m.isOwn x.id (.fire order) = false := by rw [isOwn, htimer]; rfl
      rw [hturn, hown]
      exact ⟨g, answers, ran, left, h, by simp⟩
    | some t =>
      -- only timers of the dispatch go off
      have hfor : Timer.isFor x.id t = true := by
        rw [Attends, htimer] at ht
        exact ht
      have hturn : m.turn (.fire order) = m.fire t := by rw [Mesh.turn, htimer]; rfl
      have hown : m.isOwn x.id (.fire order) = true := by
        rw [isOwn, htimer]
        exact hfor
      obtain ⟨g', answers', ran', left', hhealthy, hless⟩ := h.fire hx hm (timer?_mem htimer) hfor
      rw [hturn, hown]
      exact ⟨g', answers', ran', left', hhealthy, by rw [if_pos rfl]; omega⟩
  | pass milliseconds =>
    refine ⟨g, answers, ran, left, ?_, by simp [isOwn]⟩
    exact ⟨⟨⟨h.gather, h.accounts, h.phase, h.timers, h.journal⟩, h.failures, h.hosts_eq, h.ran_node,
      h.links, h.answers⟩, h.place, h.left_eq⟩
  | _ => exact ht.elim

/-- What a run keeps: by induction on the turns. -/
theorem Healthy.run (hx : x.Sane hosts) (hm : m.Sound) (h : Healthy x hosts g answers ran left m)
    {turns : List Turn} (hturns : AttendsAll x.id m turns) :
    ∃ g' answers' ran' left', Healthy x hosts g' answers' ran' left' (m.run turns) ∧
      fired x.id m turns + left' ≤ left := by
  induction turns generalizing m g answers ran left with
  | nil => exact ⟨g, answers, ran, left, h, by simp [fired, overOwn]⟩
  | cons t turns ih =>
    obtain ⟨g₁, answers₁, ran₁, left₁, hhealthy, hless⟩ := h.turn hx hm hturns.1
    obtain ⟨g₂, answers₂, ran₂, left₂, hhealthy', hless'⟩ := ih (hm.turn t) hhealthy hturns.2
    refine ⟨g₂, answers₂, ran₂, left₂, hhealthy', ?_⟩
    simp only [fired, overOwn] at hless' ⊢
    omega

end Mesh

end PushMesh
