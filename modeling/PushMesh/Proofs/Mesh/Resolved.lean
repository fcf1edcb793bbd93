import PushMesh.Proofs.Gather.Outcome
import PushMesh.Proofs.Mesh.Steps
import PushMesh.Proofs.Mesh.Timers
import PushMesh.Proofs.Mesh.Waiting

/-!
# How a dispatch ends

Whatever is done to a mesh after a dispatch, the gather of it ends once and for all, every callback
that is not dropped is told of it, and a cancellation stops all calls (`resolved_run`). A run of the
mesh is a run of the gather, so the most part is a matter of its steps. That a cancellation finds
every call is one of the mesh: the gather tracks the calls that have a timer (`Tracked`).
-/

namespace PushMesh

namespace Gather

variable {g : Gather}

/-! ## The calls that are tracked -/

/-- A running gather tracks every call that it is told to. -/
theorem tasks_tracks (h : g.phase = .running) (tasks : List Nat) :
    (g.takeAll (tasks.map .track)).tasks = g.tasks ++ tasks := by
  induction tasks generalizing g with
  | nil => exact (List.append_nil _).symm
  | cons task tasks ih =>
    have htrack : (g.track task).1 = { g with tasks := g.tasks ++ [task] } := by rw [track, h]
    have hrest := ih (g := { g with tasks := g.tasks ++ [task] }) h
    rw [List.map_cons, Gather.takeAll, List.foldl_cons, take, htrack]
    refine hrest.trans ?_
    rw [List.append_assoc, List.singleton_append]

/-- A gather that runs after a step still tracks what it did. -/
theorem tasks_take_of_running {s : Step} (h : (g.take s).1.phase = .running) :
    g.tasks ⊆ (g.take s).1.tasks := by
  have hsettle : ∀ g' : Gather, g'.settle.1.phase = .running → g'.settle.1.tasks = g'.tasks := by
    intro g' h'
    unfold settle at h' ⊢
    split at h'
    · cases h'
    · next hne => rw [if_neg hne]
  cases s with
  | complete nodeId value =>
    rw [take, complete] at h ⊢
    split at h
    · next hwait =>
      rw [if_pos hwait, hsettle _ h]
      exact List.Subset.refl _
    · next hwait =>
      rw [if_neg hwait]
      exact List.Subset.refl _
  | fail failure =>
    rw [take, fail] at h ⊢
    split at h
    · next hwait =>
      rw [if_pos hwait, hsettle _ h]
      exact List.Subset.refl _
    · next hwait =>
      rw [if_neg hwait]
      exact List.Subset.refl _
  | cancel =>
    -- a cancelled gather does not run
    rw [take, phase_cancel] at h
    split at h
    · cases h
    · next hne => exact absurd h hne
  | track task =>
    rw [take, track]
    split
    · exact List.subset_append_left _ _
    all_goals exact List.Subset.refl _
  | onComplete label =>
    rw [take, onComplete]
    split <;> exact List.Subset.refl _
  | snapshot => exact List.Subset.refl _

/-- A gather that still runs tracks all the tasks it did. -/
theorem tasks_takeAll_of_running {steps : List Step} (h : (g.takeAll steps).phase = .running) :
    g.tasks ⊆ (g.takeAll steps).tasks := by
  induction steps generalizing g with
  | nil => exact List.Subset.refl _
  | cons s steps ih =>
    have hnext : (g.take s).1.phase = .running := (running_takeAll (g := (g.take s).1) h).1
    exact List.Subset.trans (tasks_take_of_running hnext) (ih (g := (g.take s).1) h)

end Gather

namespace Mesh

variable {id : Nat} {g : Gather} {m s : Mesh} {h : Host} {inquiry : Inquiry} {peers : List String}

/-- What ties a gather to the timers of its calls. -/
structure Tracked (id : Nat) (g : Gather) (m : Mesh) : Prop where
  running : g.phase = .running → ∀ t ∈ m.timers, ∀ c, t.event.call? = some c → c.gather = id →
    c.task ∈ g.tasks
  cancelled : g.phase = .cancelled → Silent id m

/-- The timer of a call is for the task of that call. -/
theorem task?_of_call? {t : Timer} {c : PeerCall} (hc : t.event.call? = some c) :
    Timer.task? t = some c.task := by
  cases t with | mk due order event =>
  cases event with
  | call c' | arrival c' _ _ _ =>
    obtain rfl : c' = c := Option.some.inj hc
    rfl
  | sweeperStart _ | sweep _ => cases hc

/-- A cancellation takes the timers of all calls of a running gather. -/
theorem Tracked.silent_cancel (h : Tracked id g m) (hg : m.gather? id = some g)
    (hrun : g.phase = .running) : Silent id (m.cancel id).1 := by
  intro t ht
  refine Bool.eq_false_iff.2 fun hfor => ?_
  obtain ⟨c, hc, hid⟩ := Timer.isFor_iff.1 hfor
  have hcancel : g.cancel.2.2 = g.tasks := by rw [Gather.cancel, hrun]
  rw [cancel_eq hg, hcancel] at ht
  obtain ⟨gathers, notices, heq⟩ := onGather_frame { m with
    timers := m.timers.filter fun t => (Timer.task? t).all fun task => !g.tasks.contains task
    now := m.now } id fun g => (g.cancel.1, [])
  rw [heq] at ht
  obtain ⟨hmem, hkept⟩ := List.mem_filter.1 ht
  have htracked := h.running hrun t hmem c hc hid
  rw [task?_of_call? hc] at hkept
  simp [htracked] at hkept

/-- A turn keeps a gather and its timers tied. -/
theorem Tracked.turn (h : Tracked id g m) (hm : m.Sound) (hid : id < m.nextId)
    (hg : m.gather? id = some g) {t : Turn} {steps : List Gather.Step}
    (hcancel : .cancel ∈ steps → t = .cancel id) : Tracked id (g.takeAll steps) (m.turn t) := by
  constructor
  · intro hrun u hu c hc hgather
    have hbefore := (Gather.running_takeAll hrun).1
    -- the call had a timer before, so the gather tracks it already
    obtain ⟨u', hu', -, hsame⟩ := timers_turn hm hid t hu (Timer.isFor_iff.2 ⟨c, hc, hgather⟩)
    exact Gather.tasks_takeAll_of_running hrun
      (h.running hbefore u' hu' c (hsame.trans hc) hgather)
  · intro hphase
    cases hdone : g.isDone with
    | true =>
      rw [Gather.takeAll_of_isDone hdone] at hphase
      exact (silent_turn (h.cancelled hphase) hm hid t).1
    | false =>
      have hrun : g.phase = .running := by
        by_contra hne
        rw [Gather.isDone_iff.2 hne] at hdone
        cases hdone
      rcases Gather.cancelled_takeAll hphase with hbefore | hmem
      · rw [hrun] at hbefore
        cases hbefore
      · rw [hcancel hmem]
        exact h.silent_cancel hg hrun

/-- A run keeps a gather and its timers tied: by induction on the turns. -/
theorem Tracked.run (h : Tracked id g m) (hm : m.Sound) (hid : id < m.nextId)
    (hg : m.gather? id = some g) (turns : List Turn) :
    ∃ g', (m.run turns).gather? id = some g' ∧ Tracked id g' (m.run turns) := by
  induction turns generalizing m g with
  | nil => exact ⟨g, hg, h⟩
  | cons t turns ih =>
    obtain ⟨steps, hgather, -, -, hcancel⟩ := exists_steps_turn hid hg t
    exact ih (h.turn hm hid hg hcancel) (hm.turn t) (lt_nextId_turn hm hid t) hgather

/-! ## The opening -/

/-- What a dispatch opens, be it accepted by its own registry or not. -/
theorem opened_dispatch (hm : m.Sound) (hh : m.hosts.find? (·.self.id == h.self.id) = some h)
    (inquiry : Inquiry) :
    ∃ g, (m.dispatch h inquiry).1.gather? (m.dispatch h inquiry).2 = some g ∧
      (m.dispatch h inquiry).2 < (m.dispatch h inquiry).1.nextId ∧
      (m.dispatch h inquiry).1.notices = m.notices ∧
      g.Opened (h.peers.map (·.id)) ∧ Gather.Owed [] [] g ∧
      Tracked (m.dispatch h inquiry).2 g (m.dispatch h inquiry).1 := by
  cases hlocal : inquiry.runLocally h.registry with
  | error e =>
    -- a refused dispatch opens a gather that is over from the start
    have hdispatch := m.dispatch_error h hlocal
    refine ⟨.failed inquiry.kind (.refused e), ?_, ?_, ?_, .inr ⟨e, rfl⟩,
      Gather.owed_of_callbacks rfl, nofun, nofun⟩
    · rw [hdispatch, gather?_addGather]
      exact if_pos rfl
    · rw [hdispatch]
      exact Nat.lt_succ_self _
    · rw [hdispatch]
      rfl
  | ok result =>
    let start := Gather.start h.registry.nodeId result.2 (h.peers.map (·.id)) h.config.partialOnTimeout
    let tasks := (m.callsOf h inquiry).map (·.task)
    -- an accepted one opens a gather that tracks the task of each call
    have htracks : (m.callsOf h inquiry).map (fun c => Gather.Step.track c.task) =
        tasks.map .track := by
      rw [List.map_map]
      rfl
    have hgather := m.gather?_dispatch h hlocal
    rw [show callsTo m.nextId h inquiry (m.nextId + 1) h.peers = m.callsOf h inquiry from rfl,
      htracks] at hgather
    obtain ⟨metrics, gathers, hframe⟩ := dispatch_frame hm.hosts hh hlocal
    obtain ⟨g, hkept, -, -, -⟩ := kept_dispatch hm hh hlocal
    -- what is kept of the dispatch is that very gather
    have hsame : g = start.takeAll (tasks.map .track) := by
      rw [snd_dispatch hlocal] at hgather
      exact Option.some.inj (hkept.gather.symm.trans hgather)
    refine ⟨start.takeAll (tasks.map .track), hgather, ?_, ?_, ?_, ?_, ?_, ?_⟩
    · rw [snd_dispatch hlocal]
      exact m.nextId_lt_dispatch h inquiry
    · rw [hframe]
    · exact .inl ⟨_, _, _, hsame ▸ hkept.accounts⟩
    · exact (Gather.owed_of_callbacks (g := start) rfl).tracks tasks
    · intro hrun t ht c hc hid
      rw [snd_dispatch hlocal] at hid
      have hcall := hkept.timers t ht c hc hid
      rw [Gather.tasks_tracks (Gather.running_takeAll hrun).1]
      exact List.mem_append_right _ (List.mem_map.2 ⟨c, hcall, rfl⟩)
    · intro hcancelled
      exact absurd (hsame ▸ hcancelled) hkept.phase

/-! ## The end -/

/-- What is known of a gather after any run that began with its dispatch: `labels` are the callbacks
that were registered on it, and `notices` those that have run. -/
structure Resolved (peers : List String) (id : Nat) (labels : List String)
    (notices : List Gather.Notice) (g : Gather) (s : Mesh) : Prop where
  phase : g.phase = .running ∨ g.phase = .completed ∨ g.phase = .cancelled ∨
    ∃ e, g.phase = .failed (.refused e)
  /-- Once it no longer runs nothing changes it any more, and everyone is told the same outcome. -/
  final : ∀ o, g.outcome? = some o → ∀ later, (s.run later).gather? id = some g ∧
    ∀ limit, ((s.run later).wait id limit).2 = o
  /-- A cancellation succeeds just while it runs. -/
  cancel_iff : (s.cancel id).2 = true ↔ g.phase = .running
  cancel : g.phase = .running →
    ∃ g', (s.cancel id).1.gather? id = some g' ∧ g'.phase = .cancelled
  /-- No callback runs before the end. -/
  waiting : g.phase = .running → notices = []
  /-- At the end each callback has run once, with the outcome. -/
  notified : ∀ o, g.outcome? = some o → g.phase ≠ .cancelled → notices = labels.map (·, o)
  /-- After a cancellation none has run, whenever it was registered. -/
  dropped : g.phase = .cancelled → notices = []
  /-- After a cancellation nothing happens to calls any more: none is made and none is repeated. -/
  stopped : g.phase = .cancelled → ∀ later,
    (s.run later).journal.filter (CallEvent.isFor id) = s.journal.filter (CallEvent.isFor id)
  /-- One who waits sees a run of timers, and is told what the gather has come to then. -/
  waits : ∀ limit, ∃ ticks g', (∀ t ∈ ticks, Turn.isTick t = true) ∧
    (s.wait id limit).1 = s.run ticks ∧ (s.run ticks).gather? id = some g' ∧
    g'.Reports peers (s.wait id limit).2

/-- A wait is a run of timers, so what is told at its end is told after a run. -/
theorem exists_ticks_wait (hm : m.Sound) (id : Nat) (limit : Option Nat) :
    ∃ ticks, (∀ t ∈ ticks, Turn.isTick t = true) ∧
      m.wait id limit = (m.run ticks, (m.run ticks).outcome id) := by
  obtain ⟨ticks, hticks, heq⟩ := ticks_waitFor hm (·.isDone id) (limit.map (m.now + ·))
  refine ⟨ticks, hticks, ?_⟩
  rw [heq]
  rfl

/-- The outcome for one who waits no longer is read off the gather. -/
theorem outcome_of_gather? (hg : m.gather? id = some g) : m.outcome id = g.expired := by
  rw [outcome, hg]

/-- What is known of a gather that was opened, has taken steps and is tied to its timers. -/
theorem resolved_of_opened {labels : List String} {notices : List Gather.Notice} (hm : m.Sound)
    (hid : id < m.nextId) (hg : m.gather? id = some g) (hopened : g.Opened peers)
    (howed : g.Owed labels notices) (htracked : Tracked id g m) :
    Resolved peers id labels notices g m := by
  constructor
  case phase => exact hopened.phase
  case final =>
    intro o ho later
    have hdone : g.isDone = true := by
      rw [Gather.isDone_iff, Ne, ← Gather.outcome?_eq_none_iff, ho]
      exact nofun
    have hstays := gather?_run_of_isDone hm hid hg hdone
    refine ⟨hstays later, fun limit => ?_⟩
    obtain ⟨ticks, -, heq⟩ := exists_ticks_wait (hm.run later) id limit
    have hrun : (m.run later).run ticks = m.run (later ++ ticks) := List.foldl_append.symm
    rw [heq, hrun, outcome_of_gather? (hstays _)]
    exact Gather.expired_of_outcome? ho
  case cancel_iff =>
    rw [Mesh.cancel, hg]
    dsimp only
    unfold Gather.cancel
    split
    · next hrun => exact iff_of_true rfl hrun
    · next hrun => exact iff_of_false Bool.false_ne_true hrun
  case cancel =>
    intro hrun
    refine ⟨g.cancel.1, ?_, ?_⟩
    · rw [gather?_cancel, if_pos rfl, hg]
      rfl
    · rw [Gather.phase_cancel, if_pos hrun]
  case waiting => exact fun hrun => (howed.running hrun).2
  case notified =>
    intro o ho hphase
    refine howed.done o ho fun hcancelled => ?_
    -- a gather that was refused is not one that was cancelled
    rw [hcancelled] at ho
    rcases hopened.phase with h | h | h | ⟨e, h⟩
    · rw [Gather.outcome?_eq_none_iff.2 h] at ho
      cases ho
    · simp [Gather.outcome?, h] at ho
    · exact hphase h
    · simp [Gather.outcome?, h] at ho
  case dropped =>
    intro hphase
    exact howed.cancelled (by simp [Gather.outcome?, hphase])
  case stopped => exact fun hphase later => silent_run (htracked.cancelled hphase) hm hid later
  case waits =>
    intro limit
    obtain ⟨ticks, hticks, heq⟩ := exists_ticks_wait hm id limit
    obtain ⟨steps, hgather, -, -⟩ := exists_steps_run hm hid hg ticks
    refine ⟨ticks, g.takeAll steps, hticks, congrArg Prod.fst heq, hgather, ?_⟩
    rw [heq, outcome_of_gather? hgather]
    exact (hopened.takeAll steps).reports

/-- **A dispatch ends once.** In a mesh with any past let a host dispatch any inquiry, and let
anything happen afterwards: calls end in any order, the gather is cancelled, callbacks are registered,
and there is waiting in between. Once the gather is complete, cancelled or refused nothing changes it
any more, and everyone who waits is told the same. A cancellation succeeds just while it runs, and
stops all calls. Callbacks run once each when it is over, with what those who wait are told, and not
at all if it was cancelled. And it is only while it runs that one who stops waiting is told of
pending peers: just those that have neither answered nor failed. -/
theorem resolved_run (hm : m.Reached) {node : String} (hh : m.host? node = some h)
    (inquiry : Inquiry) (after : List Turn) :
    let id := (m.dispatch h inquiry).2
    let turns := .dispatch node inquiry :: after
    ∃ g, (m.run turns).gather? id = some g ∧
      Resolved (h.peers.map (·.id)) id (turns.filterMap (Turn.label? id)) (noticesIn id m turns) g
        (m.run turns) := by
  intro id turns
  have hm : m.Sound := hm.sound
  have hnode : h.self.id = node := by simpa using List.find?_some hh
  have hfind : m.hosts.find? (·.self.id == h.self.id) = some h := by
    rw [hnode]
    exact hh
  have hdispatch : m.turn (.dispatch node inquiry) = (m.dispatch h inquiry).1 :=
    turn_dispatch hh inquiry
  obtain ⟨g, hg, hid, hnotices, hopened, howed, htracked⟩ := opened_dispatch hm hfind inquiry
  have hs : (m.dispatch h inquiry).1.Sound := hdispatch ▸ hm.turn _
  obtain ⟨steps, hgather, hran, hlabels⟩ := exists_steps_run hs hid hg after
  obtain ⟨g', hg', htracked'⟩ := htracked.run hs hid hg after
  obtain rfl : g' = g.takeAll steps := Option.some.inj (hg'.symm.trans hgather)
  have hrun : m.run turns = (m.dispatch h inquiry).1.run after := by
    rw [← hdispatch]
    rfl
  -- the dispatch itself runs no callbacks
  have hopening : noticesIn id m turns = noticesIn id (m.dispatch h inquiry).1 after := by
    have hnone : m.noticesOf id (.dispatch node inquiry) = [] := by
      rw [noticesOf, hdispatch, hnotices, List.drop_length]
      exact ite_self _
    rw [noticesIn, hnone, List.nil_append, hdispatch]
  have howed' := howed.takeAll steps
  rw [List.nil_append, List.nil_append, hlabels, ← hran, ← hopening] at howed'
  rw [hrun]
  exact ⟨g.takeAll steps, hgather,
    resolved_of_opened (hs.run after) (lt_nextId_run hs hid after) hgather (hopened.takeAll steps)
      howed' htracked'⟩

/-- A callback is registered, one of two peers answers, and the gather is cancelled before the other
one does. A callback that is registered afterwards comes too late. -/
def tumult (id : Nat) : List Turn :=
  [.onComplete id "early", .fire 0, .cancel id, .onComplete id "late", .fire 1, .cancel id]

/-- The count of two peers, one of which is not heard. -/
theorem resolved_run_tumult :
    let a := Host.standard "a" "host:1" [.peer "b" "host:2", .peer "c" "host:3"]
    let m := create [a, .standard "b" "host:2" [], .standard "c" "host:3" []] ∅
    let id := (m.dispatch a .count).2
    let turns := .dispatch "a" .count :: tumult id
    m.Reached ∧ m.host? "a" = some a ∧
      ∃ g, (m.run turns).gather? id = some g ∧
        Resolved (a.peers.map (·.id)) id (turns.filterMap (Turn.label? id)) (noticesIn id m turns) g
          (m.run turns) := by
  intro a m id turns
  have hm : m.Reached := by
    refine .create (by decide) (fun h hh => ⟨.standard, 0, [], ?_⟩) ∅
    simp only [List.mem_cons, List.not_mem_nil, or_false] at hh
    rcases hh with rfl | rfl | rfl <;> rfl
  have hh : m.host? "a" = some a := rfl
  exact ⟨hm, hh, resolved_run hm hh .count (tumult id)⟩

end Mesh

end PushMesh
