import PushMesh.Proofs.Gather.Callbacks
import PushMesh.Proofs.Gather.Verdicts
import PushMesh.Proofs.Mesh.Opening

/-!
# What turns mean to a gather

A gather changes in a turn only if the turn concerns it, and then it takes at most one step: a
verdict when the last attempt of a call ends, a cancellation, or a callback that is registered
(`exists_steps_turn`). So a run of the mesh is a run of the gather (`exists_steps_run`), and the
callbacks that the turns of a gather run are those of that run.
-/

namespace PushMesh

/-- What the reply of a peer comes to as its part of the result. -/
def PeerCall.verdict (c : PeerCall) (r : Reply) : Gather.Verdict :=
  ⟨c.callee, r.bind (Tally.ofOutput c.kind)⟩

/-- The attempts that may still be made of a call after what is due. -/
def Event.attempts : Event → Nat
  | .call c => if c.retries then 2 else 1
  | .arrival c isSecond _ _ => if !isSecond && c.retries then 1 else 0
  | .sweeperStart _ | .sweep _ => 0

namespace Mesh

variable {m m' s : Mesh} {c : PeerCall} {id : Nat} {g : Gather}

/-! ## The parts of a call that no gather sees -/

/-- Gathers are what they were, and no callback has run. -/
structure Still (m m' : Mesh) : Prop where
  gathers : m'.gathers = m.gathers
  notices : m'.notices = m.notices

theorem Still.refl (m : Mesh) : Still m m := ⟨rfl, rfl⟩

theorem Still.trans (h : Still m m') (h' : Still m' s) : Still m s :=
  ⟨h'.gathers.trans h.gathers, h'.notices.trans h.notices⟩

/-- Gathers are what they were, no timer has been set, no time has passed and no outcome has been
counted, and what was noted is about the call. -/
structure Calm (c : PeerCall) (m m' : Mesh) : Prop extends Still m m' where
  timers : m'.timers = m.timers
  now : m'.now = m.now
  calls : m'.metrics.calls = m.metrics.calls
  noted : ∃ events, m'.journal = m.journal ++ events ∧ ∀ e ∈ events, e.call = c

theorem Calm.refl (m : Mesh) : Calm c m m where
  toStill := .refl m
  timers := rfl
  now := rfl
  calls := rfl
  noted := ⟨[], (List.append_nil m.journal).symm, fun _ he => absurd he List.not_mem_nil⟩

theorem Calm.trans (h : Calm c m m') (h' : Calm c m' s) : Calm c m s := by
  obtain ⟨events, hjournal, hevents⟩ := h.noted
  obtain ⟨events', hjournal', hevents'⟩ := h'.noted
  refine ⟨h.toStill.trans h'.toStill, h'.timers.trans h.timers, h'.now.trans h.now,
    h'.calls.trans h.calls, events ++ events', ?_, List.forall_mem_append.2 ⟨hevents, hevents'⟩⟩
  rw [hjournal', hjournal, List.append_assoc]

/-- Noting something of the call. -/
theorem calm_note {e : CallEvent} (he : e.call = c) (hstill : Still m m')
    (htimers : m'.timers = m.timers) (hnow : m'.now = m.now)
    (hcalls : m'.metrics.calls = m.metrics.calls) (hjournal : m'.journal = m.journal ++ [e]) :
    Calm c m m' :=
  ⟨hstill, htimers, hnow, hcalls, [e], hjournal, fun _ hmem => call_of_mem_singleton he hmem⟩

/-- Executing the operation of a call is calm. -/
theorem calm_execute (m : Mesh) (c : PeerCall) : Calm c m (m.execute c).1 := by
  unfold execute
  split
  · exact .refl m
  · split
    all_goals exact calm_note (e := .ran c) rfl ⟨rfl, rfl⟩ rfl rfl rfl rfl

/-- The start of a call is calm. -/
theorem calm_begin (m : Mesh) (c : PeerCall) : Calm c m (m.begin c).1 := by
  have hexecute : ∀ {s}, Calm c m s → Calm c m (s.execute c).1 :=
    fun hs => hs.trans (calm_execute _ c)
  unfold begin
  dsimp only
  rw [takeLink_eq]
  dsimp only
  split
  · exact hexecute (calm_note (e := .began c) rfl ⟨rfl, rfl⟩ rfl rfl rfl rfl)
  · exact calm_note (e := .began c) rfl ⟨rfl, rfl⟩ rfl rfl rfl rfl

/-- The arrival of a call is calm. -/
theorem calm_arrive (m : Mesh) (c : PeerCall) (link : Link)
    (early : Option (Except PeerError Output)) : Calm c m (m.arrive c link early).1 := by
  have hanswer : Calm c m (m.answer c link early).1 := by
    unfold answer
    split
    · exact .refl m
    · split
      · exact .refl m
      · exact calm_execute m c
      all_goals exact .refl m
  exact hanswer.trans
    (calm_note (e := .ended c (m.answer c link early).2) rfl ⟨rfl, rfl⟩ rfl rfl rfl rfl)

/-- The end of an attempt is noted last. -/
theorem getLast?_arrive (m : Mesh) (c : PeerCall) (link : Link)
    (early : Option (Except PeerError Output)) :
    (m.arrive c link early).1.journal.getLast? = some (.ended c (m.arrive c link early).2) :=
  List.getLast?_concat

/-- An attempt has its result at once, or it takes some time, but no more than it may. -/
theorem attempt_cases (m : Mesh) (c : PeerCall) (isSecond : Bool) :
    ∃ s, Calm c m s ∧
      ((∃ r, m.attempt c isSecond = (s, some r) ∧ s.journal.getLast? = some (.ended c r)) ∨
      ∃ wait link early, wait ≤ c.timeout ∧
        m.attempt c isSecond = (s.schedule wait (.arrival c isSecond link early), none)) := by
  have hbegin := m.calm_begin c
  unfold attempt
  dsimp only
  split
  · exact ⟨_, hbegin.trans (calm_arrive _ c _ _), .inl ⟨_, rfl, getLast?_arrive ..⟩⟩
  · exact ⟨_, hbegin, .inr ⟨_, _, _, Nat.min_le_right _ _, rfl⟩⟩

/-! ## The end of a call -/

/-- A call that ends is counted, and brings its verdict into the gather. -/
theorem conclude_eq (m : Mesh) (c : PeerCall) (r : Reply) : m.conclude c r =
    (m.record (·.recordCall (c.verdict r).outcome)).onGather c.gather
      (·.take (c.verdict r).step) := by
  unfold conclude PeerCall.verdict
  split
  · next value heq =>
    rw [heq]
    rfl
  · next e heq =>
    rw [heq]
    rfl

/-- The end of a call is counted, and its gather takes one step. -/
theorem exists_conclude_eq (m : Mesh) (c : PeerCall) (r : Reply) :
    ∃ f, m.conclude c r = (m.record f).onGather c.gather (·.take (c.verdict r).step) :=
  ⟨_, m.conclude_eq c r⟩

/-- What becomes of a call in hand that may be attempted so many times more. -/
inductive Follows (c : PeerCall) (attempts : Nat) (m : Mesh) : Mesh → Prop where
  /-- It ends as its last attempt did. -/
  | ends {s : Mesh} (h : Calm c m s) (r : Reply) (hlast : s.journal.getLast? = some (.ended c r)) :
      Follows c attempts m (s.conclude c r)
  /-- An attempt is under way, and leaves fewer of them. -/
  | waits {s : Mesh} (h : Calm c m s) {wait : Nat} {event : Event} (hcall : event.call? = some c)
      (hwait : wait ≤ c.timeout) (hfewer : event.attempts < attempts) :
      Follows c attempts m (s.schedule wait event)

/-- What follows may be preceded by calm steps. -/
theorem Follows.after {k : Nat} (h : Calm c m m') (h' : Follows c k m' s) : Follows c k m s := by
  cases h' with
  | ends hcalm r hlast => exact .ends (h.trans hcalm) r hlast
  | waits hcalm hcall hwait hfewer => exact .waits (h.trans hcalm) hcall hwait hfewer

/-- More attempts may be allowed than are left. -/
theorem Follows.mono {k k' : Nat} (h : Follows c k m m') (hle : k ≤ k') : Follows c k' m m' := by
  cases h with
  | ends hcalm r hlast => exact .ends hcalm r hlast
  | waits hcalm hcall hwait hfewer => exact .waits hcalm hcall hwait (Nat.lt_of_lt_of_le hfewer hle)

/-- After an attempt a call ends, or it is attempted once more. -/
theorem follows_afterAttempt (c : PeerCall) (isSecond : Bool) {r : Reply}
    (hlast : m.journal.getLast? = some (.ended c r)) :
    Follows c (if !isSecond && c.retries then 1 else 0) m (m.afterAttempt c isSecond r) := by
  by_cases hretry : (!isSecond && wantsRetry c r) = true
  · rw [afterAttempt, if_pos hretry]
    obtain ⟨hfirst, hwants⟩ := Bool.and_eq_true_iff.1 hretry
    have hretries : c.retries = true := by
      cases r with
      | ok _ => cases hwants
      | error e => exact (Bool.and_eq_true_iff.1 hwants).1
    rw [hfirst, hretries]
    obtain ⟨s, hcalm, ⟨r', heq, hlast'⟩ | ⟨wait, link, early, hwait, heq⟩⟩ := m.attempt_cases c true
    · rw [heq]
      exact .ends hcalm r' hlast'
    · rw [heq]
      exact .waits hcalm rfl hwait (Nat.lt_succ_self 0)
  · rw [afterAttempt, if_neg hretry]
    exact .ends (.refl m) r hlast

/-- A call that something is due for ends, or the next attempt is under way. -/
theorem follows_perform (m : Mesh) {event : Event} (hcall : event.call? = some c) :
    Follows c event.attempts m (m.perform event) := by
  cases event with
  | call c' =>
    obtain rfl : c' = c := Option.some.inj hcall
    have hfewer : (if c'.retries then 1 else 0) < (Event.call c').attempts := by
      rw [Event.attempts]
      split <;> omega
    rw [perform]
    obtain ⟨s, hcalm, ⟨r, heq, hlast⟩ | ⟨wait, link, early, hwait, heq⟩⟩ := m.attempt_cases c' false
    · rw [heq]
      exact .after hcalm ((follows_afterAttempt c' false hlast).mono (Nat.le_of_lt hfewer))
    · rw [heq]
      exact .waits hcalm rfl hwait hfewer
  | arrival c' isSecond link early =>
    obtain rfl : c' = c := Option.some.inj hcall
    exact .after (m.calm_arrive c' link early)
      (follows_afterAttempt c' isSecond (m.getLast?_arrive c' link early))
  | sweeperStart _ | sweep _ => cases hcall

/-- What a call does to gathers: nothing, or it ends. -/
def EndsAtMost (c : PeerCall) (m m' : Mesh) : Prop :=
  ∃ s, Still m s ∧ (m' = s ∨ ∃ r, m' = s.conclude c r)

/-- Where gathers stay as they are, no call ends. -/
theorem Still.endsAtMost (h : Still m m') : EndsAtMost c m m' :=
  ⟨m', h, .inl rfl⟩

/-- What becomes of a call in hand ends it at most. -/
theorem Follows.endsAtMost {k : Nat} (h : Follows c k m m') : EndsAtMost c m m' := by
  cases h with
  | ends hcalm r _ => exact ⟨_, hcalm.toStill, .inr ⟨r, rfl⟩⟩
  | waits hcalm _ _ _ => exact Still.endsAtMost (hcalm.toStill.trans ⟨rfl, rfl⟩)

/-- Before a call ends, steps may leave gathers alone. -/
theorem EndsAtMost.after (h : Still m m') (h' : EndsAtMost c m' s) : EndsAtMost c m s := by
  obtain ⟨s', hstill, hends⟩ := h'
  exact ⟨s', h.trans hstill, hends⟩

/-- What is due ends at most the call that it belongs to. -/
theorem perform_cases (m : Mesh) (event : Event) :
    Still m (m.perform event) ∨ ∃ c, event.call? = some c ∧ EndsAtMost c m (m.perform event) := by
  cases event with
  | call c | arrival c _ _ _ => exact .inr ⟨c, rfl, (m.follows_perform rfl).endsAtMost⟩
  | sweeperStart s =>
    refine .inl ?_
    unfold perform
    dsimp only
    split
    · exact .refl m
    · exact ⟨rfl, rfl⟩
  | sweep s =>
    refine .inl ?_
    unfold perform runSweep onRegistry
    dsimp only
    split
    · exact .refl m
    · split
      · exact ⟨rfl, rfl⟩
      · exact ⟨rfl, rfl⟩

/-- A timer that goes off leaves gathers alone, or it is that of a call, which ends at most. -/
theorem fire_cases (m : Mesh) (t : Timer) :
    Still m (m.fire t) ∨ ∃ c, t.event.call? = some c ∧ EndsAtMost c m (m.fire t) := by
  have hpopped : Still m { m with
      timers := m.timers.filter (·.order != t.order), now := max m.now t.due } := ⟨rfl, rfl⟩
  rcases perform_cases _ t.event with hstill | ⟨c, hc, hends⟩
  · exact .inl (hpopped.trans hstill)
  · exact .inr ⟨c, hc, .after hpopped hends⟩

/-! ## One step of the gather -/

/-- What happens to a gather and which callbacks run, when it takes some steps. -/
structure Takes (id : Nat) (m m' : Mesh) (g : Gather) (steps : List Gather.Step) : Prop where
  gather : m'.gather? id = some (g.takeAll steps)
  notices : m'.notices = m.notices ++ g.noticesAll steps

/-- Where gathers stay as they are, no step is taken. -/
theorem Still.takes (h : Still m m') (hg : m.gather? id = some g) : Takes id m m' g [] := by
  refine ⟨?_, ?_⟩
  · rw [gather?, h.gathers]
    exact hg
  · rw [h.notices, Gather.noticesAll, List.append_nil]

/-- A gather that is told to take a step takes that one. -/
theorem takes_onGather (hg : m.gather? id = some g) (step : Gather.Step) :
    Takes id m (m.onGather id (·.take step)) g [step] := by
  refine ⟨?_, ?_⟩
  · rw [gather?_onGather, if_pos rfl, hg]
    rfl
  · rw [notices_onGather m hg, Gather.noticesAll, Gather.noticesAll, List.append_nil]

/-- A call of the gather that ends gives it one verdict. -/
theorem EndsAtMost.takes (h : EndsAtMost c m m') (hc : c.gather = id) (hg : m.gather? id = some g) :
    ∃ steps, Takes id m m' g steps ∧ ∀ step ∈ steps, ∃ v : Gather.Verdict, step = v.step := by
  obtain ⟨s, hstill, rfl | ⟨r, rfl⟩⟩ := h
  · exact ⟨[], hstill.takes hg, nofun⟩
  · obtain ⟨f, heq⟩ := s.exists_conclude_eq c r
    have hs : (s.record f).gather? id = some g := (congrArg (Table.get? · id) hstill.gathers).trans hg
    have htakes := takes_onGather hs (c.verdict r).step
    rw [heq, hc]
    refine ⟨[(c.verdict r).step], ⟨htakes.gather, ?_⟩, ?_⟩
    · rw [htakes.notices, ← hstill.notices]
      rfl
    · intro step hstep
      exact ⟨_, List.mem_singleton.1 hstep⟩

/-- A call of another gather that ends leaves the gather alone. -/
theorem EndsAtMost.gather?_eq (h : EndsAtMost c m m') (hc : c.gather ≠ id) :
    m'.gather? id = m.gather? id := by
  obtain ⟨s, hstill, rfl | ⟨r, rfl⟩⟩ := h
  · exact congrArg (Table.get? · id) hstill.gathers
  · obtain ⟨f, heq⟩ := s.exists_conclude_eq c r
    rw [heq, gather?_onGather, if_neg hc.symm]
    exact congrArg (Table.get? · id) hstill.gathers

/-! ## Every turn -/

/-- Whether a turn is about a gather, one of its calls or its callbacks. -/
def concerns (m : Mesh) (id : Nat) : Turn → Bool
  | .dispatch .. => m.nextId == id
  | .fire order => (m.timer? order).any (Timer.isFor id)
  | .cancel id' => id' == id
  | .onComplete id' _ => id' == id
  | _ => false

/-- The callback that a turn registers on a gather. -/
def Turn.label? (id : Nat) : Turn → Option String
  | .onComplete id' label => if id' = id then some label else none
  | _ => none

/-- The callbacks that a turn runs, if it concerns the gather. -/
def noticesOf (m : Mesh) (id : Nat) (t : Turn) : List Gather.Notice :=
  if m.concerns id t then (m.turn t).notices.drop m.notices.length else []

/-- The callbacks that the turns of a gather run, in order. -/
def noticesIn (id : Nat) : Mesh → List Turn → List Gather.Notice
  | _, [] => []
  | m, t :: turns => m.noticesOf id t ++ noticesIn id (m.turn t) turns

/-- A dispatch opens its own gather and touches no other. -/
theorem gather?_dispatch_ne (h : Host) (inquiry : Inquiry) (hid : id ≠ m.nextId) :
    (m.dispatch h inquiry).1.gather? id = m.gather? id := by
  cases hlocal : inquiry.runLocally h.registry with
  | ok result =>
    rw [m.dispatch_ok h hlocal]
    dsimp only
    rw [gather?_spawnAll, if_neg hid, gather?_addGather]
    exact if_neg hid
  | error e =>
    rw [m.dispatch_error h hlocal, gather?_addGather]
    exact if_neg hid

/-- A turn that does not concern a gather leaves it as it is. -/
theorem gather?_turn {t : Turn} (ht : m.concerns id t = false) :
    (m.turn t).gather? id = m.gather? id := by
  cases t with
  | dispatch node inquiry =>
    dsimp only [turn]
    cases m.host? node with
    | none => rfl
    | some h => exact gather?_dispatch_ne h inquiry (beq_eq_false_iff_ne.1 ht).symm
  | fire order =>
    dsimp only [turn, concerns] at ht ⊢
    cases htimer : m.timer? order with
    | none => rfl
    | some t =>
      rcases m.fire_cases t with hstill | ⟨c, hc, hends⟩
      · exact congrArg (Table.get? · id) hstill.gathers
      · refine hends.gather?_eq fun hsame => ?_
        rw [htimer, Option.any_some, Timer.isFor, hc, Option.any_some, beq_eq_false_iff_ne] at ht
        exact ht hsame
  | cancel id' =>
    rw [turn, gather?_cancel, if_neg]
    exact (beq_eq_false_iff_ne.1 ht).symm
  | onComplete id' label =>
    rw [turn, gather?_onGather, if_neg]
    exact (beq_eq_false_iff_ne.1 ht).symm
  | operate node a => exact gather?_of_work (m.quiet_onRegistry node fun r hr => hr.act a).work id
  | setMembers node members => exact gather?_of_work (m.quiet_setMembers node members).work id
  | openStream node owner connectedAt =>
    dsimp only [turn]
    cases hh : m.host? node with
    | none => rfl
    | some h => exact gather?_of_work (m.quiet_openStream (host?_mem hh) owner connectedAt).work id
  | readStream id' => exact gather?_of_work (m.quiet_readStream id').work id
  | dropStream id' => exact gather?_of_work (m.quiet_dropStream id').work id
  | pass _ | setLinks _ _ | addSweeper _ _ | finishSweepers _ => rfl

/-- The callbacks that run when a gather takes steps are those that the turn has added. -/
theorem Takes.drop_notices {steps : List Gather.Step} (h : Takes id m m' g steps) :
    m'.notices.drop m.notices.length = g.noticesAll steps := by
  rw [h.notices, List.drop_left]

/-- A turn is at most one step of a gather. -/
theorem exists_steps_turn (hid : id < m.nextId) (hg : m.gather? id = some g) (t : Turn) :
    ∃ steps, (m.turn t).gather? id = some (g.takeAll steps) ∧
      m.noticesOf id t = g.noticesAll steps ∧
      steps.filterMap Gather.Step.label? = (t.label? id).toList ∧
      (.cancel ∈ steps → t = .cancel id) := by
  unfold noticesOf
  cases ht : m.concerns id t with
  | false =>
    have hlabel : t.label? id = none := by
      cases t with
      | onComplete id' label => exact if_neg (beq_eq_false_iff_ne.1 ht)
      | _ => rfl
    rw [gather?_turn ht, hlabel, if_neg Bool.false_ne_true]
    exact ⟨[], hg, rfl, rfl, nofun⟩
  | true =>
    rw [if_pos rfl]
    cases t with
    | dispatch node inquiry =>
      -- a dispatch concerns its own new gather only, and this one is not new
      exact absurd hid (by rw [beq_iff_eq.1 ht]; exact Nat.lt_irrefl _)
    | fire order =>
      obtain ⟨t, htimer, hfor⟩ := (Option.any_eq_true ..).1 ht
      have hturn : m.turn (.fire order) = m.fire t := by rw [turn, htimer]; rfl
      rw [hturn]
      -- a call that goes off either leaves the gather or ends with a verdict
      rcases m.fire_cases t with hstill | ⟨c, hc, hends⟩
      · exact ⟨[], (hstill.takes hg).gather, (hstill.takes hg).drop_notices, rfl, nofun⟩
      · have hgather : c.gather = id := by
          rw [Timer.isFor, hc, Option.any_some] at hfor
          exact beq_iff_eq.1 hfor
        obtain ⟨steps, htakes, hverdicts⟩ := hends.takes hgather hg
        refine ⟨steps, htakes.gather, htakes.drop_notices, ?_, fun hcancel => ?_⟩
        · refine List.filterMap_eq_nil_iff.2 fun step hstep => ?_
          obtain ⟨v, rfl⟩ := hverdicts step hstep
          unfold Gather.Verdict.step
          split <;> rfl
        · obtain ⟨v, hv⟩ := hverdicts _ hcancel
          exact absurd hv.symm v.step_ne_cancel
    | cancel id' =>
      -- cancelling is a step of its own, and runs no callback
      obtain rfl := beq_iff_eq.1 ht
      refine ⟨[.cancel], ?_, ?_, rfl, fun _ => rfl⟩
      · rw [turn, gather?_cancel, if_pos rfl, hg]
        rfl
      · have hnotices : (m.turn (.cancel id')).notices = m.notices := by
          rw [turn, cancel, hg]
        rw [hnotices, List.drop_length]
        rfl
    | onComplete id' label =>
      obtain rfl := beq_iff_eq.1 ht
      have htakes := takes_onGather hg (.onComplete label)
      refine ⟨[.onComplete label], htakes.gather, htakes.drop_notices, ?_, ?_⟩
      · rw [Turn.label?, if_pos rfl]
        rfl
      · intro hcancel
        cases List.mem_singleton.1 hcancel
    | pass _ | operate _ _ | setLinks _ _ | setMembers _ _ | openStream _ _ _
    | readStream _ | dropStream _ | addSweeper _ _ | finishSweepers _ => cases ht

/-- **A run of the mesh is a run of the gather**, with its callbacks: by induction on the turns. -/
theorem exists_steps_run (hm : m.Sound) (hid : id < m.nextId) (hg : m.gather? id = some g)
    (turns : List Turn) :
    ∃ steps, (m.run turns).gather? id = some (g.takeAll steps) ∧
      noticesIn id m turns = g.noticesAll steps ∧
      steps.filterMap Gather.Step.label? = turns.filterMap (Turn.label? id) := by
  induction turns generalizing m g with
  | nil => exact ⟨[], hg, rfl, rfl⟩
  | cons t turns ih =>
    obtain ⟨steps, hgather, hnotices, hlabels, -⟩ := exists_steps_turn hid hg t
    obtain ⟨steps', hgather', hnotices', hlabels'⟩ :=
      ih (hm.turn t) (lt_nextId_turn hm hid t) hgather
    refine ⟨steps ++ steps', ?_, ?_, ?_⟩
    · rw [Gather.takeAll_append]
      exact hgather'
    · rw [noticesIn, hnotices, hnotices', Gather.noticesAll_append]
    · rw [List.filterMap_append, hlabels, hlabels', List.filterMap_cons]
      cases t.label? id <;> rfl

/-- A gather that nobody cancels is not cancelled: by induction on the turns. -/
theorem phase_run_ne_cancelled (hm : m.Sound) (hid : id < m.nextId) (hg : m.gather? id = some g)
    (hphase : g.phase ≠ .cancelled) {turns : List Turn} (hturns : .cancel id ∉ turns) {g' : Gather}
    (hg' : (m.run turns).gather? id = some g') : g'.phase ≠ .cancelled := by
  induction turns generalizing m g with
  | nil => exact Option.some.inj (hg.symm.trans hg') ▸ hphase
  | cons t turns ih =>
    obtain ⟨hfirst, hrest⟩ : .cancel id ≠ t ∧ .cancel id ∉ turns := by simpa using hturns
    obtain ⟨steps, hgather, -, -, hcancel⟩ := exists_steps_turn hid hg t
    refine ih (hm.turn t) (lt_nextId_turn hm hid t) hgather (fun hcancelled => ?_) hrest hg'
    rcases Gather.cancelled_takeAll hcancelled with hbefore | hmem
    · exact hphase hbefore
    · exact hfirst (hcancel hmem).symm

/-- A gather that is over stays as it is. -/
theorem gather?_run_of_isDone (hm : m.Sound) (hid : id < m.nextId) (hg : m.gather? id = some g)
    (hdone : g.isDone = true) (turns : List Turn) : (m.run turns).gather? id = some g := by
  obtain ⟨steps, hgather, -, -⟩ := exists_steps_run hm hid hg turns
  rwa [Gather.takeAll_of_isDone hdone] at hgather

end Mesh

end PushMesh
