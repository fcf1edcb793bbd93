import PushMesh.Proofs.Gather.Outcome
import PushMesh.Proofs.Mesh.Timers
import PushMesh.Proofs.Mesh.Waiting

/-!
# Runs that are on time

In an arbitrary run a timer may go off long after it was due, and another before it. A run is on time
where neither happens: of all timers the one that is due first goes off, and the clock does not pass
one that has still to. Then every call ends by a moment that is known when it is set up, as each
attempt that is under way leaves one attempt fewer (`EndsBy.turn`), and once that moment is over
everybody who was called has answered or failed (`EndsBy.completed`).
-/

namespace PushMesh

/-- The moment by which the call of a timer has ended, if its attempts take all the time they may. -/
def Timer.latest (t : Timer) : Nat :=
  t.due + t.event.attempts * t.event.call?.elim 0 (·.timeout)

namespace Mesh

variable {m m' : Mesh} {id limit : Nat} {g : Gather}

/-! ## The clock -/

theorem now_setStream (m : Mesh) (id : Nat) (before after : Stream) :
    (m.setStream id before after).now = m.now := by
  unfold setStream
  dsimp only
  split <;> rfl

theorem now_openStream (m : Mesh) (h : Host) (owner : Owner) (connectedAt : Instant) :
    (m.openStream h owner connectedAt).1.now = m.now := by
  unfold openStream
  dsimp only
  split <;> rfl

theorem now_readStream (m : Mesh) (id : Nat) : (m.readStream id).1.now = m.now := by
  rw [readStream]
  split
  · rfl
  · split
    · rfl
    · exact now_setStream _ _ _ _

theorem now_dropStream (m : Mesh) (id : Nat) : (m.dropStream id).now = m.now := by
  rw [dropStream]
  split
  · rfl
  · next s hs =>
    have hdrop := m.now_onRegistry s.nodeId fun r => ((s.drop r).2.1, (s.drop r).1)
    dsimp only
    split
    · next m' after heq =>
      rw [heq] at hdrop
      rw [now_setStream]
      exact hdrop
    · next m' heq =>
      rw [heq] at hdrop
      exact hdrop

theorem now_dispatch (m : Mesh) (h : Host) (inquiry : Inquiry) :
    (m.dispatch h inquiry).1.now = m.now := by
  cases hlocal : inquiry.runLocally h.registry with
  | error e =>
    rw [m.dispatch_error h hlocal]
    rfl
  | ok result =>
    rw [m.dispatch_ok h hlocal]
    obtain ⟨gathers, heq⟩ := spawnAll_frame _ m.nextId h inquiry h.peers
    dsimp only
    rw [heq]
    rfl

/-- Only timers and time that passes move the clock. -/
theorem now_turn (m : Mesh) {t : Turn} (ht : t.isTick = false) : (m.turn t).now = m.now := by
  cases t with
  | fire _ | pass _ => cases ht
  | dispatch node inquiry =>
    rw [turn]
    cases m.host? node with
    | none => rfl
    | some h => exact m.now_dispatch h inquiry
  | cancel id =>
    rw [turn, cancel]
    split <;> rfl
  | onComplete id label =>
    obtain ⟨gathers, notices, heq⟩ := m.onGather_frame id (·.onComplete label)
    rw [turn, heq]
  | operate node a => exact m.now_onRegistry node _
  | openStream node owner connectedAt =>
    rw [turn]
    cases m.host? node with
    | none => rfl
    | some h => exact m.now_openStream h owner connectedAt
  | readStream id => exact m.now_readStream id
  | dropStream id => exact m.now_dropStream id
  | setLinks _ _ | setMembers _ _ | addSweeper _ _ | finishSweepers _ => rfl

/-- A timer that goes off brings the time to the moment it was due. -/
theorem now_fire (m : Mesh) (t : Timer) : (m.fire t).now = max m.now t.due := by
  obtain ⟨next, hgoes⟩ := m.goesOn_fire t
  exact hgoes.now

/-! ## Turns on time -/

/-- Whether a turn lets no timer be late. -/
def OnTime (m : Mesh) : Turn → Prop
  | .fire order => ∀ t ∈ m.timer? order, ∀ u ∈ m.timers, t.due ≤ u.due
  | .pass milliseconds => ∀ u ∈ m.timers, m.now + milliseconds ≤ u.due
  | _ => True

instance (m : Mesh) : (t : Turn) → Decidable (m.OnTime t)
  | .fire order => inferInstanceAs (Decidable (∀ t ∈ m.timer? order, ∀ u ∈ m.timers, t.due ≤ u.due))
  | .pass milliseconds =>
    inferInstanceAs (Decidable (∀ u ∈ m.timers, m.now + milliseconds ≤ u.due))
  | .dispatch .. | .cancel _ | .onComplete .. | .operate .. | .setLinks .. | .setMembers ..
  | .openStream .. | .readStream _ | .dropStream _ | .addSweeper .. | .finishSweepers _ =>
    .isTrue trivial

/-- Whether the turns of a run let no timer be late. -/
def OnTimeAll : Mesh → List Turn → Prop
  | _, [] => True
  | m, t :: turns => m.OnTime t ∧ OnTimeAll (m.turn t) turns

instance decidableOnTimeAll : (m : Mesh) → (turns : List Turn) → Decidable (m.OnTimeAll turns)
  | _, [] => .isTrue trivial
  | m, t :: turns =>
    have := decidableOnTimeAll (m.turn t) turns
    inferInstanceAs (Decidable (m.OnTime t ∧ OnTimeAll (m.turn t) turns))

/-- A timer that is not late does not become so in a turn on time. -/
theorem now_turn_le {t : Turn} (ht : m.OnTime t) {u : Timer} (hu : u ∈ m.timers)
    (hdue : m.now ≤ u.due) : (m.turn t).now ≤ u.due := by
  cases t with
  | fire order =>
    rw [turn]
    cases htimer : m.timer? order with
    | none => exact hdue
    | some v =>
      show (m.fire v).now ≤ u.due
      rw [now_fire]
      exact Nat.max_le.2 ⟨hdue, ht v htimer u hu⟩
  | pass milliseconds => exact ht u hu
  | dispatch _ _ | cancel _ | onComplete _ _ | operate _ _ | setLinks _ _ | setMembers _ _
  | openStream _ _ _ | readStream _ | dropStream _ | addSweeper _ _ | finishSweepers _ =>
    rw [now_turn m rfl]
    exact hdue

/-! ## Gathers whose calls end -/

/-- Whether something is due for the call of a gather to a node. -/
def Expects (m : Mesh) (id : Nat) (node : String) : Prop :=
  ∃ t ∈ m.timers, Timer.isFor id t = true ∧ Timer.isTo node t = true

/-- The calls of a gather end by a moment, and then there is nobody that it awaits. -/
structure EndsBy (id limit : Nat) (m : Mesh) : Prop where
  /-- What is due for it is not late, and leaves time enough. -/
  due : ∀ t ∈ m.timers, Timer.isFor id t = true → m.now ≤ t.due ∧ t.latest ≤ limit
  awaited : ∃ g, m.gather? id = some g ∧
    (g.phase = .running → ∀ n ∈ g.outstanding, m.Expects id n)

/-- A turn that is not about a gather leaves it the time it has. -/
theorem EndsBy.undisturbed (h : EndsBy id limit m) (hu : Undisturbed id m m')
    (hnow : ∀ u ∈ m.timers, m.now ≤ u.due → m'.now ≤ u.due) : EndsBy id limit m' := by
  have hsame : ∀ {u}, (u ∈ m'.timers ∧ Timer.isFor id u = true) ↔
      u ∈ m.timers ∧ Timer.isFor id u = true := by
    intro u
    rw [← List.mem_filter, hu.timers, List.mem_filter]
  constructor
  · intro u hmem hfor
    obtain ⟨hbefore, -⟩ := hsame.1 ⟨hmem, hfor⟩
    obtain ⟨hdue, hlatest⟩ := h.due u hbefore hfor
    exact ⟨hnow u hbefore hdue, hlatest⟩
  · obtain ⟨g, hg, hawaited⟩ := h.awaited
    obtain ⟨g', hg', hbooks, hphase⟩ := hu.gather g hg
    refine ⟨g', hg', fun hrun n hn => ?_⟩
    rw [hphase] at hrun
    rw [hbooks.outstanding] at hn
    obtain ⟨u, hmem, hfor, hto⟩ := hawaited hrun n hn
    obtain ⟨hmem', -⟩ := hsame.2 ⟨hmem, hfor⟩
    exact ⟨u, hmem', hfor, hto⟩

/-- What goes on with a call that was not late has time enough, as it has one attempt fewer. -/
theorem Succeeds.latest_le {t u : Timer} {moment : Nat} {c : PeerCall}
    (hcall : t.event.call? = some c) (h : Succeeds moment t.event u) (hdue : moment = t.due) :
    moment ≤ u.due ∧ u.latest ≤ t.latest := by
  cases h with
  | @attempt c' hcall' hnext hfewer hlate hwait =>
    obtain rfl : c' = c := Option.some.inj (hcall'.symm.trans hcall)
    refine ⟨hlate, ?_⟩
    have htakes : u.event.attempts * c'.timeout + c'.timeout ≤ t.event.attempts * c'.timeout := by
      rw [← Nat.succ_mul]
      exact Nat.mul_le_mul_right _ hfewer
    rw [Timer.latest, Timer.latest, hnext, hcall]
    show u.due + u.event.attempts * c'.timeout ≤ t.due + t.event.attempts * c'.timeout
    omega
  | sweep hsweeper _ _ =>
    rw [Event.sweeper?_of_call? hcall] at hsweeper
    cases hsweeper

/-- A timer of a gather that goes off ends its call, or something is due for it again. -/
theorem expects_fire (hm : m.Sound) {t : Timer} (ht : t ∈ m.timers) (hfor : Timer.isFor id t = true)
    (hg : m.gather? id = some g)
    (hawaited : g.phase = .running → ∀ n ∈ g.outstanding, m.Expects id n) :
    ∃ g', (m.fire t).gather? id = some g' ∧
      (g'.phase = .running → ∀ n ∈ g'.outstanding, (m.fire t).Expects id n) := by
  obtain ⟨c, hcall, hid⟩ := Timer.isFor_iff.1 hfor
  -- what was due for another call is due still
  have hothers : ∀ {n}, n ≠ c.callee.id → m.Expects id n → (m.popped t).Expects id n := by
    rintro n hne ⟨u, hu, hufor, huto⟩
    refine ⟨u, List.mem_filter.2 ⟨hu, ?_⟩, hufor, huto⟩
    rw [bne_iff_ne]
    intro horder
    obtain rfl := hm.eq_of_order hu ht horder
    rw [Timer.isTo, hcall, Option.any_some, beq_iff_eq] at huto
    exact hne huto.symm
  have hfollows := (m.popped t).follows_perform hcall
  rw [← fire_eq] at hfollows
  generalize m.fire t = m' at hfollows ⊢
  cases hfollows with
  | @ends s hcalm r =>
    obtain ⟨metrics, gathers, notices, hframe⟩ := s.conclude_frame c r
    obtain ⟨f, hconclude⟩ := s.exists_conclude_eq c r
    have hgather : (s.conclude c r).gather? id = some (g.take (c.verdict r).step).1 := by
      rw [hconclude, gather?_onGather, hid, if_pos rfl]
      exact congrArg (Option.map _) ((congrArg (Table.get? · id) hcalm.gathers).trans hg)
    refine ⟨_, hgather, fun hrun n hn => ?_⟩
    obtain ⟨hbefore, hout⟩ := Gather.running_take hrun
    obtain ⟨hmem, hsilent⟩ := (hout n).1 hn
    rw [Gather.Verdict.node?_step] at hsilent
    have hne : n ≠ c.callee.id := fun heq => hsilent (congrArg some heq.symm)
    obtain ⟨u, hu, hrest⟩ := hothers hne (hawaited hbefore n hmem)
    refine ⟨u, ?_, hrest⟩
    rw [hframe]
    exact hcalm.timers ▸ hu
  | @waits s hcalm wait event hnext hwait hfewer =>
    refine ⟨g, (congrArg (Table.get? · id) hcalm.gathers).trans hg, fun hrun n hn => ?_⟩
    by_cases hcallee : n = c.callee.id
    · refine ⟨⟨s.now + wait, s.nextOrder, event⟩, List.mem_append_right _ (List.mem_singleton.2 rfl),
        Timer.isFor_iff.2 ⟨c, hnext, hid⟩, ?_⟩
      rw [Timer.isTo, hnext, Option.any_some, hcallee]
      exact beq_self_eq_true _
    · obtain ⟨u, hu, hrest⟩ := hothers hcallee (hawaited hrun n hn)
      refine ⟨u, List.mem_append_left _ ?_, hrest⟩
      exact hcalm.timers ▸ hu

/-- A timer of a gather that goes off on time leaves the gather the time it has. -/
theorem EndsBy.fire (h : EndsBy id limit m) (hm : m.Sound) {t : Timer} (ht : t ∈ m.timers)
    (hfor : Timer.isFor id t = true) (hfirst : ∀ u ∈ m.timers, t.due ≤ u.due) :
    EndsBy id limit (m.fire t) := by
  obtain ⟨hdue, hlatest⟩ := h.due t ht hfor
  have hmoment : (m.popped t).now = t.due := Nat.max_eq_right hdue
  constructor
  · intro u hu hufor
    obtain ⟨next, hgoes⟩ := m.goesOn_fire t
    rw [hgoes.now, hmoment]
    rw [hgoes.timers] at hu
    rcases List.mem_append.1 hu with hold | hnew
    · have hmem := (List.mem_filter.1 hold).1
      exact ⟨hfirst u hmem, (h.due u hmem hufor).2⟩
    · obtain ⟨c, hcall, -⟩ := Timer.isFor_iff.1 hfor
      obtain ⟨hlate, hle⟩ :=
        (hgoes.succeeds u (Option.mem_toList.1 hnew)).latest_le hcall hmoment
      exact ⟨hmoment ▸ hlate, Nat.le_trans hle hlatest⟩
  · obtain ⟨g, hg, hawaited⟩ := h.awaited
    exact expects_fire hm ht hfor hg hawaited

/-- A turn on time leaves a gather the time it has. -/
theorem EndsBy.turn (h : EndsBy id limit m) (hm : m.Sound) (hid : id < m.nextId) {t : Turn}
    (ht : m.OnTime t) : EndsBy id limit (m.turn t) := by
  -- what does not touch the gather leaves its timers, and only time passes
  by_cases htouches : m.touches t id
  · cases t with
    | dispatch node inquiry =>
      exact absurd hid (by rw [show id = m.nextId from htouches]; exact Nat.lt_irrefl _)
    | fire order =>
      obtain ⟨u, htimer, hfor⟩ := (Option.any_eq_true ..).1 htouches
      have hturn : m.turn (.fire order) = m.fire u := by rw [Mesh.turn, htimer]; rfl
      rw [hturn]
      exact h.fire hm (timer?_mem htimer) hfor (ht u htimer)
    | cancel id' =>
      obtain rfl : id = id' := htouches
      constructor
      · intro u hu hfor
        have hmem := (m.cancel_frame id).1 hu
        rw [now_turn m rfl]
        exact h.due u hmem hfor
      · -- a gather that is cancelled runs no more
        obtain ⟨g, hg, -⟩ := h.awaited
        refine ⟨g.cancel.1, ?_, fun hrun => ?_⟩
        · rw [Mesh.turn, gather?_cancel, if_pos rfl, hg]
          rfl
        · rw [Gather.phase_cancel] at hrun
          split at hrun
          · cases hrun
          · next hne => exact absurd hrun hne
    | pass _ | onComplete _ _ | operate _ _ | setLinks _ _ | setMembers _ _ | openStream _ _ _
    | readStream _ | dropStream _ | addSweeper _ _ | finishSweepers _ => exact htouches.elim
  · exact h.undisturbed (undisturbed_turn hm hid htouches) fun u hu => now_turn_le ht hu

/-- So does a run on time: by induction on its turns. -/
theorem EndsBy.run (h : EndsBy id limit m) (hm : m.Sound) (hid : id < m.nextId) {turns : List Turn}
    (hturns : m.OnTimeAll turns) : EndsBy id limit (m.run turns) := by
  induction turns generalizing m with
  | nil => exact h
  | cons t turns ih =>
    exact ih (h.turn hm hid hturns.1) (hm.turn t) (lt_nextId_turn hm hid t) hturns.2

/-- Once the moment is over nobody is awaited. -/
theorem EndsBy.not_running (h : EndsBy id limit m) (hlate : limit < m.now)
    (hg : m.gather? id = some g) (hrun : g.phase = .running) {n : String} : n ∉ g.outstanding := by
  intro hn
  obtain ⟨g', hg', hawaited⟩ := h.awaited
  obtain rfl := Option.some.inj (hg'.symm.trans hg)
  obtain ⟨t, ht, hfor, -⟩ := hawaited hrun n hn
  obtain ⟨hdue, hlatest⟩ := h.due t ht hfor
  have hle : t.due ≤ t.latest := Nat.le_add_right _ _
  omega

end Mesh

end PushMesh
