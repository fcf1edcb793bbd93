import PushMesh.Proofs.Mesh.Turn

/-!
# Waiting is a run

One who waits lets timers go off, the next one first, and lets time pass. So a wait is a run in which
nothing else happens (`ticks_waitFor`), and what holds after every run holds after a wait, whatever
is waited for and for how long.
-/

namespace PushMesh.Mesh

/-- Whether a turn lets a timer go off or time pass. -/
def Turn.isTick : Turn → Bool
  | .fire _ | .pass _ => true
  | _ => false

/-- Whether a mesh is what another one becomes when nothing but its timers go on. -/
def Ticks (m m' : Mesh) : Prop :=
  ∃ turns, (∀ t ∈ turns, Turn.isTick t = true) ∧ m.run turns = m'

variable {m m' s : Mesh}

theorem Ticks.refl (m : Mesh) : Ticks m m :=
  ⟨[], List.forall_mem_nil _, rfl⟩

theorem Ticks.trans (h : Ticks m m') (h' : Ticks m' s) : Ticks m s := by
  obtain ⟨turns, hturns, rfl⟩ := h
  obtain ⟨turns', hturns', rfl⟩ := h'
  refine ⟨turns ++ turns', List.forall_mem_append.2 ⟨hturns, hturns'⟩, ?_⟩
  exact List.foldl_append

/-- Timers that go on keep a mesh sound. -/
theorem Sound.ticks (hm : m.Sound) (h : Ticks m m') : m'.Sound := by
  obtain ⟨turns, -, rfl⟩ := h
  exact hm.run turns

/-! ## One turn -/

/-- A turn that is a tick is a run of ticks. -/
theorem Ticks.of_turn {t : Turn} (ht : t.isTick = true) : Ticks m (m.turn t) :=
  ⟨[t], by simpa using ht, rfl⟩

/-- A timer is found by its order. -/
theorem timer?_of_mem (hm : m.Sound) {t : Timer} (ht : t ∈ m.timers) :
    m.timer? t.order = some t := by
  cases hfind : m.timer? t.order with
  | none => exact absurd (List.find?_eq_none.1 hfind t ht) (by simp)
  | some u =>
    have horder : u.order = t.order := by simpa using List.find?_some hfind
    rw [hm.eq_of_order (timer?_mem hfind) ht horder]

/-- A timer that goes off is a tick. -/
theorem ticks_fire (hm : m.Sound) {t : Timer} (ht : t ∈ m.timers) : Ticks m (m.fire t) := by
  have hturn : m.turn (.fire t.order) = m.fire t := by
    rw [turn, timer?_of_mem hm ht]
    rfl
  exact hturn ▸ .of_turn rfl

/-- The clock goes on to a moment, unless that is over. -/
theorem ticks_clock (m : Mesh) (moment : Nat) : Ticks m { m with now := max m.now moment } := by
  have hlater : m.now + (moment - m.now) = max m.now moment := by omega
  have hturn : m.turn (.pass (moment - m.now)) = { m with now := max m.now moment } := by
    rw [turn, hlater]
  exact hturn ▸ .of_turn rfl

/-! ## A wait -/

/-- What is picked from a list is in the list, where each pick is the new one or the one so far. -/
theorem mem_of_foldl_pick {pick : Option Timer → Timer → Option Timer}
    (hpick : ∀ best t u, pick best t = some u → u = t ∨ best = some u) {l : List Timer}
    {best : Option Timer} {t : Timer} (h : l.foldl pick best = some t) : t ∈ l ∨ best = some t := by
  induction l generalizing best with
  | nil => exact .inr h
  | cons u l ih =>
    rcases ih h with hmem | hnext
    · exact .inl (List.mem_cons_of_mem _ hmem)
    · rcases hpick best u t hnext with rfl | hbest
      · exact .inl List.mem_cons_self
      · exact .inr hbest

/-- Where each pick picks something, so does the last. -/
theorem isSome_foldl_pick {pick : Option Timer → Timer → Option Timer}
    (hpick : ∀ best t, (pick best t).isSome = true) {l : List Timer} {best : Option Timer}
    (h : l ≠ [] ∨ best.isSome = true) : (l.foldl pick best).isSome = true := by
  induction l generalizing best with
  | nil => exact h.resolve_left fun hnil => hnil rfl
  | cons u l ih => exact ih (.inr (hpick best u))

/-- The next timer is one of the timers. -/
theorem nextTimer?_mem {t : Timer} (h : m.nextTimer? = some t) : t ∈ m.timers := by
  unfold nextTimer? at h
  refine (mem_of_foldl_pick ?_ h).resolve_right (Option.some_ne_none t).symm
  intro best t u hpick
  cases best with
  | none => exact .inl (Option.some.inj hpick).symm
  | some b =>
    dsimp only at hpick
    split at hpick
    · exact .inl (Option.some.inj hpick).symm
    · exact .inr hpick

/-- There is a next timer while there are timers. -/
theorem nextTimer?_ne_none {t : Timer} (ht : t ∈ m.timers) : m.nextTimer? ≠ none := by
  refine Option.isSome_iff_ne_none.1 ?_
  unfold nextTimer?
  refine isSome_foldl_pick ?_ (.inl (List.ne_nil_of_mem ht))
  intro best t
  cases best with
  | none => rfl
  | some b =>
    dsimp only
    split
    · rfl
    · rfl

/-- What is picked from a list is due first, where each pick is of the two the one due first. -/
theorem le_of_foldl_pick {pick : Option Timer → Timer → Option Timer}
    (hpick : ∀ best t, ∃ u, pick best t = some u ∧ u.due ≤ t.due ∧ ∀ b ∈ best, u.due ≤ b.due)
    {l : List Timer} {best : Option Timer} {t : Timer} (h : l.foldl pick best = some t) :
    (∀ u ∈ l, t.due ≤ u.due) ∧ ∀ b ∈ best, t.due ≤ b.due := by
  induction l generalizing best with
  | nil =>
    refine ⟨List.forall_mem_nil _, fun b hb => ?_⟩
    rw [Option.some.inj (h.symm.trans hb)]
  | cons v l ih =>
    obtain ⟨u, hu, hnew, hbest⟩ := hpick best v
    obtain ⟨hrest, hpicked⟩ := ih h
    have hfirst : t.due ≤ u.due := hpicked u hu
    refine ⟨List.forall_mem_cons.2 ⟨Nat.le_trans hfirst hnew, hrest⟩, fun b hb => ?_⟩
    exact Nat.le_trans hfirst (hbest b hb)

/-- The next timer is due first. -/
theorem due_nextTimer?_le {t : Timer} (h : m.nextTimer? = some t) : ∀ u ∈ m.timers, t.due ≤ u.due := by
  unfold nextTimer? at h
  refine (le_of_foldl_pick ?_ h).1
  intro best t
  cases best with
  | none => exact ⟨t, rfl, Nat.le_refl _, fun b hb => absurd hb (Option.not_mem_none b)⟩
  | some b =>
    dsimp only
    split
    · next hbefore =>
      refine ⟨t, rfl, Nat.le_refl _, fun b' hb' => ?_⟩
      obtain rfl := Option.some.inj hb'
      simp only [Timer.isBefore, Bool.or_eq_true, Bool.and_eq_true, decide_eq_true_eq] at hbefore
      omega
    · next hbefore =>
      simp only [Timer.isBefore, Bool.or_eq_true, Bool.and_eq_true, decide_eq_true_eq] at hbefore
      refine ⟨b, rfl, by omega, fun b' hb' => ?_⟩
      rw [Option.some.inj hb']

/-- Draining a mesh is a run of ticks. -/
theorem ticks_drain (hm : m.Sound) (fuel : Nat) : Ticks m (drain fuel m) := by
  induction fuel generalizing m with
  | zero => exact .refl m
  | succ fuel ih =>
    unfold drain
    cases hnext : m.nextTimer? with
    | none => exact .refl m
    | some t =>
      dsimp only
      split
      · have hfire := ticks_fire hm (nextTimer?_mem hnext)
        exact hfire.trans (ih (hm.ticks hfire))
      · exact .refl m

/-- Waiting for something to hold is a run of ticks. -/
theorem ticks_runUntil (hm : m.Sound) (holds : Mesh → Bool) (deadline : Option Nat) (fuel : Nat) :
    Ticks m (runUntil holds deadline fuel m) := by
  induction fuel generalizing m with
  | zero => exact .refl m
  | succ fuel ih =>
    unfold runUntil
    split
    · exact ticks_drain hm _
    · cases hnext : m.nextTimer? with
      | none =>
        cases deadline with
        | none => exact .refl m
        | some d => exact m.ticks_clock d
      | some t =>
        -- the timer that is due first goes off, and the rest is a run of ticks again
        have hfire := ticks_fire hm (nextTimer?_mem hnext)
        have hrest := hfire.trans (ih (hm.ticks hfire))
        cases deadline with
        | none => exact hrest
        | some d =>
          dsimp only
          split
          · exact hrest
          · exact m.ticks_clock d

/-- **A wait is a run** in which nothing but timers and the clock go on. -/
theorem ticks_waitFor (hm : m.Sound) (holds : Mesh → Bool) (deadline : Option Nat) :
    Ticks m (m.waitFor holds deadline) := by
  unfold waitFor
  split
  · exact .refl m
  · exact ticks_runUntil hm holds deadline _

end PushMesh.Mesh
