import PushMesh.Proofs.Mesh.Kept
import PushMesh.Proofs.Mesh.Steps

/-!
# The timers that turns set

A timer that goes off sets at most one other, which goes on with the same call or with the same
sweeper (`goesOn_fire`). So a turn sets no timer of a gather but in the stead of one that goes off
(`timers_turn`), and a gather whose timers are gone has none again: nothing more happens to its calls
(`silent_run`).
-/

namespace PushMesh

/-- The sweeper that something due belongs to. -/
def Event.sweeper? : Event → Option Sweeper
  | .sweeperStart s | .sweep s => some s
  | .call _ | .arrival .. => none

/-- What goes off for a call does not go off for a sweeper. -/
theorem Event.sweeper?_of_call? {e : Event} {c : PeerCall} (h : e.call? = some c) :
    e.sweeper? = none := by
  cases e with
  | call _ | arrival _ _ _ _ => rfl
  | sweeperStart _ | sweep _ => cases h

namespace Mesh

variable {m m' s : Mesh} {c : PeerCall} {id : Nat}

/-! ## A timer that goes off -/

/-- Whether a timer goes on with what goes off at a moment. -/
inductive Succeeds (moment : Nat) (event : Event) (u : Timer) : Prop where
  /-- An attempt at the same call is under way, and fewer are left. -/
  | attempt {c : PeerCall} (hcall : event.call? = some c) (hnext : u.event.call? = some c)
      (hfewer : u.event.attempts < event.attempts) (hdue : moment ≤ u.due)
      (hwait : u.due ≤ moment + c.timeout)
  /-- The same sweeper sweeps an interval later. -/
  | sweep {s : Sweeper} (hsweeper : event.sweeper? = some s) (hnext : u.event = .sweep s)
      (hdue : u.due = moment + s.interval)

/-- What goes off leaves the clock alone, and sets at most one timer, which goes on with it. -/
structure GoesOn (m : Mesh) (event : Event) (m' : Mesh) (next : Option Timer) : Prop where
  now : m'.now = m.now
  timers : m'.timers = m.timers ++ next.toList
  succeeds : ∀ u ∈ next, Succeeds m.now event u

/-- Where the timers stay the same, nothing goes on. -/
theorem goesOn_none {event : Event} (hnow : m'.now = m.now) (htimers : m'.timers = m.timers) :
    GoesOn m event m' none :=
  ⟨hnow, by rw [htimers, Option.toList_none, List.append_nil],
    fun u hu => absurd hu (Option.not_mem_none u)⟩

/-- A timer that is set goes on with what went off. -/
theorem goesOn_schedule {event : Event} (hnow : s.now = m.now) (htimers : s.timers = m.timers)
    {wait : Nat} {next : Event} (h : Succeeds m.now event ⟨m.now + wait, s.nextOrder, next⟩) :
    ∃ u, GoesOn m event (s.schedule wait next) (some u) := by
  refine ⟨⟨m.now + wait, s.nextOrder, next⟩, hnow, ?_, ?_⟩
  · rw [schedule, hnow, htimers]
    rfl
  · intro u hu
    rwa [← Option.some.inj hu]

/-- The end of a call changes the metrics, the gathers and the notices, and nothing else. -/
theorem conclude_frame (m : Mesh) (c : PeerCall) (r : Reply) :
    ∃ metrics gathers notices, m.conclude c r = { m with metrics, gathers, notices } := by
  obtain ⟨f, hconclude⟩ := m.exists_conclude_eq c r
  obtain ⟨gathers, notices, heq⟩ := (m.record f).onGather_frame c.gather (·.take (c.verdict r).step)
  rw [hconclude, heq]
  exact ⟨_, gathers, notices, rfl⟩

/-- What becomes of a call sets at most one timer, which goes on with it. -/
theorem Follows.goesOn {event : Event} (hcall : event.call? = some c)
    (h : Follows c event.attempts m m') : ∃ next, GoesOn m event m' next := by
  cases h with
  | @ends s hcalm r =>
    obtain ⟨metrics, gathers, notices, heq⟩ := s.conclude_frame c r
    rw [heq]
    exact ⟨none, goesOn_none hcalm.now hcalm.timers⟩
  | waits hcalm hnext hwait hfewer =>
    obtain ⟨u, hu⟩ := goesOn_schedule hcalm.now hcalm.timers
      (.attempt hcall hnext hfewer (Nat.le_add_right _ _) (Nat.add_le_add_left hwait _))
    exact ⟨some u, hu⟩

theorem now_onRegistry {α : Type} (m : Mesh) (node : String) (f : Registry → Registry × α) :
    (m.onRegistry node f).1.now = m.now := by
  unfold onRegistry
  split <;> rfl

/-- Whatever goes off sets at most one timer. -/
theorem goesOn_perform (m : Mesh) (event : Event) :
    ∃ next, GoesOn m event (m.perform event) next := by
  cases event with
  | call c | arrival c _ _ _ => exact (m.follows_perform rfl).goesOn rfl
  | sweeperStart s =>
    rw [perform]
    split
    · exact ⟨none, goesOn_none rfl rfl⟩
    · -- the next sweep is due after the interval
      have hnext : Succeeds m.now (.sweeperStart s) ⟨m.now + s.interval, m.nextOrder, .sweep s⟩ :=
        .sweep rfl rfl rfl
      obtain ⟨u, hu⟩ := goesOn_schedule rfl rfl hnext
      exact ⟨some u, hu⟩
  | sweep s =>
    have htimers : (m.onRegistry s.node (·.sweep)).1.timers = m.timers := by
      unfold onRegistry
      split <;> rfl
    rw [perform, runSweep]
    split
    · exact ⟨none, goesOn_none rfl rfl⟩
    · have hnext : Succeeds m.now (.sweep s)
          ⟨m.now + s.interval, (m.onRegistry s.node (·.sweep)).1.nextOrder, .sweep s⟩ :=
        .sweep rfl rfl rfl
      obtain ⟨u, hu⟩ := goesOn_schedule (m.now_onRegistry s.node _) htimers hnext
      exact ⟨some u, hu⟩

/-- A timer that goes off sets at most one other. -/
theorem goesOn_fire (m : Mesh) (t : Timer) :
    ∃ next, GoesOn (m.popped t) t.event (m.fire t) next :=
  goesOn_perform _ _

/-- A timer of a call that goes off sets timers of that call only. -/
theorem mem_timers_fire {t u : Timer} (hcall : t.event.call? = some c)
    (hu : u ∈ (m.fire t).timers) : u ∈ m.timers ∨ u.event.call? = some c := by
  obtain ⟨next, hgoes⟩ := m.goesOn_fire t
  rw [hgoes.timers] at hu
  rcases List.mem_append.1 hu with hold | hnew
  · exact .inl (List.mem_filter.1 hold).1
  · refine .inr ?_
    cases hgoes.succeeds u (Option.mem_toList.1 hnew) with
    | attempt hcall' hnext _ _ _ => rw [hnext, ← hcall', hcall]
    | sweep hsweeper _ _ =>
      rw [Event.sweeper?_of_call? hcall] at hsweeper
      cases hsweeper

/-! ## Every turn -/

/-- Cancelling a gather takes timers away and touches no journal. -/
theorem cancel_frame (m : Mesh) (id : Nat) :
    (m.cancel id).1.timers ⊆ m.timers ∧ (m.cancel id).1.journal = m.journal ∧
      (m.cancel id).1.notices = m.notices := by
  unfold cancel
  split
  · exact ⟨List.Subset.refl _, rfl, rfl⟩
  · exact ⟨fun _ ht => (List.mem_filter.1 ht).1, rfl, rfl⟩

/-- A timer of a gather was there before, or one of the same call was. -/
theorem timers_turn (hm : m.Sound) (hid : id < m.nextId) (t : Turn) {u : Timer}
    (hu : u ∈ (m.turn t).timers) (hfor : Timer.isFor id u = true) :
    ∃ u' ∈ m.timers, Timer.isFor id u' = true ∧ u'.event.call? = u.event.call? := by
  by_cases ht : m.touches t id
  · cases t with
    | dispatch node inquiry => exact absurd hid (by rw [show id = m.nextId from ht]; omega)
    | fire order =>
      obtain ⟨u', htimer, hfor'⟩ := (Option.any_eq_true ..).1 ht
      have hturn : m.turn (.fire order) = m.fire u' := by rw [turn, htimer]; rfl
      have hmem := timer?_mem htimer
      obtain ⟨c, hc, -⟩ := Timer.isFor_iff.1 hfor'
      rw [hturn] at hu
      rcases mem_timers_fire hc hu with hold | hnew
      · exact ⟨u, hold, hfor, rfl⟩
      · exact ⟨u', hmem, hfor', hc.trans hnew.symm⟩
    | cancel id' => exact ⟨u, (m.cancel_frame id').1 hu, hfor, rfl⟩
    | pass _ | onComplete _ _ | operate _ _ | setLinks _ _ | setMembers _ _ | openStream _ _ _
    | readStream _ | dropStream _ | addSweeper _ _ | finishSweepers _ => exact ht.elim
  · have hsame := (undisturbed_turn hm hid ht).timers
    have hown : u ∈ (m.turn t).timers.filter (Timer.isFor id) := List.mem_filter.2 ⟨hu, hfor⟩
    rw [hsame] at hown
    exact ⟨u, (List.mem_filter.1 hown).1, hfor, rfl⟩

/-! ## Gathers without timers -/

/-- Whether nothing is due for the calls of a gather. -/
def Silent (id : Nat) (m : Mesh) : Prop :=
  ∀ t ∈ m.timers, Timer.isFor id t = false

/-- Where nothing is due nothing happens, and nothing becomes due. -/
theorem silent_turn (h : Silent id m) (hm : m.Sound) (hid : id < m.nextId) (t : Turn) :
    Silent id (m.turn t) ∧
      (m.turn t).journal.filter (CallEvent.isFor id) = m.journal.filter (CallEvent.isFor id) := by
  constructor
  · intro u hu
    refine Bool.eq_false_iff.2 fun hfor => ?_
    obtain ⟨u', hu', hfor', -⟩ := timers_turn hm hid t hu hfor
    rw [h u' hu'] at hfor'
    cases hfor'
  · by_cases ht : m.touches t id
    · cases t with
      | dispatch node inquiry => exact absurd hid (by rw [show id = m.nextId from ht]; omega)
      | fire order =>
        obtain ⟨u, htimer, hfor⟩ := (Option.any_eq_true ..).1 ht
        rw [h u (timer?_mem htimer)] at hfor
        cases hfor
      | cancel id' => exact congrArg _ (m.cancel_frame id').2.1
      | pass _ | onComplete _ _ | operate _ _ | setLinks _ _ | setMembers _ _ | openStream _ _ _
      | readStream _ | dropStream _ | addSweeper _ _ | finishSweepers _ => exact ht.elim
    · exact (undisturbed_turn hm hid ht).journal

/-- Nothing happens any more to the calls of a gather that has no timers: by induction on the
turns. -/
theorem silent_run (h : Silent id m) (hm : m.Sound) (hid : id < m.nextId) (turns : List Turn) :
    (m.run turns).journal.filter (CallEvent.isFor id) = m.journal.filter (CallEvent.isFor id) := by
  induction turns generalizing m with
  | nil => rfl
  | cons t turns ih =>
    obtain ⟨hsilent, hjournal⟩ := silent_turn h hm hid t
    exact (ih hsilent (hm.turn t) (lt_nextId_turn hm hid t)).trans hjournal

end Mesh

end PushMesh
