import PushMesh.Proofs.Mesh.OnTime
import Mathlib.Algebra.Order.BigOperators.Group.List
import Mathlib.Algebra.Order.Group.Nat

/-!
# Waiting until a deadline

One who waits lets a bounded number of timers go off, as `steps` says. That is enough to see what is
waited for, or else the deadline: a timer that goes off before the deadline uses up one of those that
may still (`load_fire`), because each attempt at a call leaves one fewer and no sweeper sweeps twice
at one moment (`Reached.paced`). So a wait until a deadline is a run on time that goes on for long
enough (`sees_waitFor`).
-/

namespace PushMesh

/-- The most timers that can go off from one until a deadline, itself among them. -/
def Timer.weight (deadline now : Nat) (t : Timer) : Nat :=
  match t.event.call? with
  | some _ => t.event.attempts + 1
  | none => deadline - max now t.due

/-- No event leaves more than two attempts. -/
theorem Event.attempts_le (e : Event) : e.attempts ≤ 2 := by
  cases e with
  | call c =>
    rw [attempts]
    split <;> omega
  | arrival c isSecond link early =>
    rw [attempts]
    split <;> omega
  | sweeperStart _ | sweep _ => exact Nat.zero_le 2

/-- Something due belongs to a call or to a sweeper. -/
theorem Event.exists_sweeper {e : Event} (h : e.call? = none) : ∃ s, e.sweeper? = some s := by
  cases e with
  | call _ | arrival _ _ _ _ => cases h
  | sweeperStart s | sweep s => exact ⟨s, rfl⟩

namespace Timer

variable {deadline now now' : Nat}

/-- The timer of a call can be followed by its remaining attempts. -/
theorem weight_of_call? {t : Timer} {c : PeerCall} (h : t.event.call? = some c) :
    t.weight deadline now = t.event.attempts + 1 := by
  rw [weight, h]

/-- A sweeper can go off once each millisecond. -/
theorem weight_of_sweeper? {t : Timer} {s : Sweeper} (h : t.event.sweeper? = some s) :
    t.weight deadline now = deadline - max now t.due := by
  have hnone : t.event.call? = none := by
    cases hcall : t.event.call? with
    | none => rfl
    | some c =>
      rw [Event.sweeper?_of_call? hcall] at h
      cases h
  rw [weight, hnone]

/-- Time that passes takes no weight on. -/
theorem weight_mono (t : Timer) (h : now ≤ now') : t.weight deadline now' ≤ t.weight deadline now := by
  unfold weight
  split
  · exact Nat.le_refl _
  · omega

/-- No timer weighs more than the time that is left and a little. -/
theorem weight_le (t : Timer) : t.weight deadline now ≤ deadline - now + 4 := by
  have hattempts := t.event.attempts_le
  unfold weight
  split <;> omega

end Timer

namespace Mesh

variable {m m' : Mesh} {deadline : Nat}

/-! ## Sweepers take their time -/

/-- Whether no sweeper sweeps twice at one moment. -/
def Paced (m : Mesh) : Prop :=
  ∀ t ∈ m.timers, ∀ s, t.event.sweeper? = some s → 0 < s.interval

/-- Where no timer is new, sweepers still take their time. -/
theorem Paced.of_subset (h : m.Paced) (htimers : m'.timers ⊆ m.timers) : m'.Paced :=
  fun t ht => h t (htimers ht)

/-- Sweepers still take their time after a timer went off. -/
theorem Paced.fire (h : m.Paced) {t : Timer} (ht : t ∈ m.timers) : (m.fire t).Paced := by
  obtain ⟨next, hgoes⟩ := m.goesOn_fire t
  intro u hu s hs
  rw [hgoes.timers] at hu
  rcases List.mem_append.1 hu with hold | hnew
  · exact h u (List.mem_filter.1 hold).1 s hs
  · cases hgoes.succeeds u (Option.mem_toList.1 hnew) with
    | attempt _ hnext _ _ _ =>
      rw [Event.sweeper?_of_call? hnext] at hs
      cases hs
    | sweep hsweeper hnext _ =>
      rw [hnext] at hs
      exact h t ht s (hsweeper.trans hs)

/-- A dispatch sets no sweeper. -/
theorem Paced.dispatch (h : m.Paced) (host : Host) (inquiry : Inquiry) :
    (m.dispatch host inquiry).1.Paced := by
  cases hlocal : inquiry.runLocally host.registry with
  | error e =>
    rw [m.dispatch_error host hlocal]
    exact h
  | ok result =>
    rw [m.dispatch_ok host hlocal]
    obtain ⟨gathers, heq⟩ := spawnAll_frame _ m.nextId host inquiry host.peers
    dsimp only
    rw [heq]
    intro t ht s hs
    rcases List.mem_append.1 ht with hold | hnew
    · exact h t hold s hs
    · -- what is set up are calls
      obtain ⟨-, c, -, hc⟩ := of_mem_callTimers hnew
      rw [hc] at hs
      cases hs

/-- What has nothing to do with calls sets no sweeper. -/
theorem Paced.quiet (h : m.Paced) (hquiet : Quiet m m') : m'.Paced :=
  h.of_subset fun _ ht => timers_of_work hquiet.work ▸ ht

/-- Sweepers take their time after any turn. -/
theorem Paced.turn (h : m.Paced) (t : Turn) : (m.turn t).Paced := by
  cases t with
  | dispatch node inquiry =>
    rw [Mesh.turn]
    cases m.host? node with
    | none => exact h
    | some host => exact h.dispatch host inquiry
  | fire order =>
    rw [Mesh.turn]
    cases htimer : m.timer? order with
    | none => exact h
    | some t => exact h.fire (timer?_mem htimer)
  | cancel id => exact h.of_subset (m.cancel_frame id).1
  | onComplete id label =>
    obtain ⟨gathers, notices, heq⟩ := m.onGather_frame id (·.onComplete label)
    rw [Mesh.turn, heq]
    exact h
  | operate node a => exact h.quiet (m.quiet_onRegistry node fun r hr => hr.act a)
  | setMembers node members => exact h.quiet (m.quiet_setMembers node members)
  | openStream node owner connectedAt =>
    rw [Mesh.turn]
    cases hh : m.host? node with
    | none => exact h
    | some host => exact h.quiet (m.quiet_openStream (host?_mem hh) owner connectedAt)
  | readStream id => exact h.quiet (m.quiet_readStream id)
  | dropStream id => exact h.quiet (m.quiet_dropStream id)
  | addSweeper node seconds =>
    intro t ht s hs
    rcases List.mem_append.1 ht with hold | hnew
    · exact h t hold s hs
    · rw [List.mem_singleton.1 hnew] at hs
      rw [← Option.some.inj hs]
      -- an interval of no seconds counts as one second
      exact Nat.mul_pos (Nat.lt_of_lt_of_le Nat.one_pos (Nat.le_max_right _ _)) (by omega)
  | pass _ | setLinks _ _ | finishSweepers _ => exact h

/-- In a mesh that was reached sweepers take their time. -/
theorem Reached.paced (hm : m.Reached) : m.Paced := by
  induction hm with
  | create _ _ _ => exact fun t ht => absurd ht (List.not_mem_nil)
  | turn _ t ih => exact ih.turn t

/-! ## The timers that can go off -/

/-- The most timers that can go off until a deadline. -/
def load (m : Mesh) (deadline : Nat) : Nat :=
  (m.timers.map (Timer.weight deadline m.now)).sum

/-- The timers that can go off are fewer than the steps that are allowed. -/
theorem load_lt_steps (m : Mesh) (deadline : Nat) : m.load deadline < m.steps deadline := by
  have hle : ∀ l : List Timer, (l.map (Timer.weight deadline m.now)).sum ≤
      l.length * (deadline - m.now + 4) := by
    intro l
    have hsum := List.sum_le_card_nsmul (l.map (Timer.weight deadline m.now)) (deadline - m.now + 4)
      (List.forall_mem_map.2 fun t _ => t.weight_le)
    rwa [List.length_map, Nat.nsmul_eq_mul] at hsum
  have hload := hle m.timers
  rw [steps, Nat.succ_mul]
  unfold load
  omega

/-- What goes on with a timer that goes off before the deadline weighs less. -/
theorem Succeeds.weight_lt {t u : Timer} {moment : Nat} (h : Succeeds moment t.event u)
    (hpaced : ∀ s, t.event.sweeper? = some s → 0 < s.interval) {now : Nat}
    (hmoment : moment = max now t.due) (hdeadline : moment < deadline) :
    u.weight deadline moment < t.weight deadline now := by
  cases h with
  | attempt hcall hnext hfewer _ _ =>
    rw [Timer.weight_of_call? hcall, Timer.weight_of_call? hnext]
    exact Nat.succ_lt_succ hfewer
  | @sweep s hsweeper hnext hdue =>
    have hinterval := hpaced s hsweeper
    have hsweep : u.event.sweeper? = some s := by rw [hnext]; rfl
    rw [Timer.weight_of_sweeper? hsweeper, Timer.weight_of_sweeper? hsweep]
    omega

/-- A timer that goes off before the deadline weighs something. -/
theorem weight_pos {t : Timer} {now : Nat} (hnow : now < deadline) (hdue : t.due < deadline) :
    0 < t.weight deadline now := by
  cases hcall : t.event.call? with
  | some c =>
    rw [Timer.weight_of_call? hcall]
    exact Nat.succ_pos _
  | none =>
    obtain ⟨s, hs⟩ := Event.exists_sweeper hcall
    rw [Timer.weight_of_sweeper? hs]
    omega

/-- A timer that goes off before the deadline uses up one of those that can. -/
theorem load_fire (hm : m.Sound) (hpaced : m.Paced) {t : Timer} (ht : t ∈ m.timers)
    (hnow : m.now < deadline) (hdue : t.due < deadline) :
    (m.fire t).load deadline < m.load deadline := by
  obtain ⟨next, hgoes⟩ := m.goesOn_fire t
  have hmoment : (m.popped t).now = max m.now t.due := rfl
  have hbefore : m.load deadline =
      ((m.popped t).timers.map (Timer.weight deadline m.now)).sum + t.weight deadline m.now :=
    sum_map_eq_filter_add hm.orders ht _
  have hrest : ((m.popped t).timers.map (Timer.weight deadline (m.popped t).now)).sum ≤
      ((m.popped t).timers.map (Timer.weight deadline m.now)).sum :=
    List.sum_le_sum fun u _ => u.weight_mono (Nat.le_max_left _ _)
  have hnext : (next.toList.map (Timer.weight deadline (m.popped t).now)).sum <
      t.weight deadline m.now := by
    cases next with
    | none => exact weight_pos hnow hdue
    | some u =>
      have hlate : (m.popped t).now < deadline := hmoment ▸ Nat.max_lt.2 ⟨hnow, hdue⟩
      have hless := (hgoes.succeeds u rfl).weight_lt (hpaced t ht) hmoment hlate
      simpa using hless
  rw [hbefore, load, hgoes.now, hgoes.timers, List.map_append, List.sum_append]
  omega

/-! ## The wait -/

/-- Whether a mesh gets to another in a run on time that sees what is waited for, or the deadline, and
in whatever follows after that. -/
def Sees (holds : Mesh → Bool) (deadline : Nat) (m m' : Mesh) : Prop :=
  ∃ ticks rest, (∀ t ∈ ticks, Turn.isTick t = true) ∧ m.OnTimeAll ticks ∧
    m' = (m.run ticks).run rest ∧ (holds (m.run ticks) = true ∨ deadline ≤ (m.run ticks).now)

variable {holds : Mesh → Bool}

/-- What holds from the start is seen, whatever comes next. -/
theorem sees_of_holds (hholds : holds m = true) (rest : List Turn) :
    Sees holds deadline m (m.run rest) :=
  ⟨[], rest, List.forall_mem_nil _, trivial, rfl, .inl hholds⟩

/-- The clock goes on to the deadline where no timer goes off before it. -/
theorem sees_of_later (hlater : ∀ u ∈ m.timers, deadline ≤ u.due) (hnow : m.now < deadline) :
    Sees holds deadline m { m with now := max m.now deadline } := by
  have hmoment : m.now + (deadline - m.now) = max m.now deadline := by omega
  refine ⟨[.pass (deadline - m.now)], [], List.forall_mem_singleton.2 rfl, ⟨fun u hu => ?_, trivial⟩,
    ?_, .inr ?_⟩
  · have := hlater u hu
    omega
  · show _ = { m with now := m.now + (deadline - m.now) }
    rw [hmoment]
  · show deadline ≤ m.now + (deadline - m.now)
    omega

/-- The timer that is due first may go off before that. -/
theorem Sees.of_fire (hm : m.Sound) {t : Timer} (ht : t ∈ m.timers)
    (hfirst : ∀ u ∈ m.timers, t.due ≤ u.due) (h : Sees holds deadline (m.fire t) m') :
    Sees holds deadline m m' := by
  have htimer := timer?_of_mem hm ht
  have hturn : m.turn (.fire t.order) = m.fire t := by
    rw [turn, htimer]
    rfl
  obtain ⟨ticks, rest, hticks, hontime, heq, hend⟩ := h
  rw [← hturn] at hontime heq hend
  refine ⟨.fire t.order :: ticks, rest, List.forall_mem_cons.2 ⟨rfl, hticks⟩,
    ⟨fun u hu => ?_, hontime⟩, heq, hend⟩
  obtain rfl := Option.some.inj (htimer.symm.trans hu)
  exact hfirst

/-- A wait is long enough to see what is waited for or the deadline, if as many timers may go off as
can: by induction on these. -/
theorem sees_runUntil (hm : m.Sound) (hpaced : m.Paced) (hnow : m.now < deadline) {fuel : Nat}
    (hfuel : m.load deadline < fuel) :
    Sees holds deadline m (runUntil holds (some deadline) fuel m) := by
  induction fuel generalizing m with
  | zero => exact absurd hfuel (Nat.not_lt_zero _)
  | succ fuel ih =>
    unfold runUntil
    cases hholds : holds m with
    | true =>
      -- what is waited for holds, and the rest only follows
      obtain ⟨rest, -, hrest⟩ := ticks_drain hm (fuel + 1)
      rw [if_pos rfl, ← hrest]
      exact sees_of_holds hholds rest
    | false =>
      rw [if_neg Bool.false_ne_true]
      cases hnext : m.nextTimer? with
      | none => exact sees_of_later (fun u hu => absurd hnext (nextTimer?_ne_none hu)) hnow
      | some t =>
        have ht := nextTimer?_mem hnext
        have hfirst := due_nextTimer?_le hnext
        dsimp only
        split
        · next hdue =>
          -- the timer goes off before the deadline, and leaves fewer to go off
          have hless := load_fire hm hpaced ht hnow hdue
          have hlate : (m.fire t).now < deadline := by
            rw [now_fire]
            omega
          have hsees := ih (hm.ticks (ticks_fire hm ht)) (hpaced.fire ht) hlate (by omega)
          exact hsees.of_fire hm ht hfirst
        · next hdue =>
          exact sees_of_later (fun u hu => Nat.le_trans (Nat.not_lt.1 hdue) (hfirst u hu)) hnow

/-- **A wait until a deadline** is a run on time that sees what is waited for, or the deadline. -/
theorem sees_waitFor (hm : m.Sound) (hpaced : m.Paced) (holds : Mesh → Bool)
    (hnow : m.now < deadline) : Sees holds deadline m (m.waitFor holds (some deadline)) := by
  unfold waitFor
  split
  · next hholds => exact sees_of_holds hholds []
  · exact sees_runUntil hm hpaced hnow (m.load_lt_steps deadline)

end Mesh

end PushMesh
