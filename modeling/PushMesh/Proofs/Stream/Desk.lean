import PushMesh.Proofs.Stream.Kept

/-!
# A node with its streams

A desk is the registry of a node with the streams that it serves. Streams are opened, polled and
dropped, and anything else is done to the registry that leaves their receiving ends alone: sends,
disconnects, sweeps, and a shutdown, which is a send to everybody and a `closeAll`. A step does to the
registry what some actions do (`registry_step`), and to a single stream one of three things
(`step_affects`), so that a stream stays in step with its connection all along (`sound_run`).
-/

namespace PushMesh

open Registry

/-- What is done to the registry in a move of a stream. -/
def Tap.Move.actions (t : Tap) : Tap.Move → List Registry.Action
  | .none | .greet | .wait => []
  | .quit => [.dropStream t.toStream]
  | .wake _ => [.use t.connection .takeCloseSignal, .dropStream t.toStream]
  | .pass .. => [.use t.connection .receive]

/-- A node with its streams, the oldest first. -/
structure Desk where
  registry : Registry
  taps : List Tap

namespace Desk

/-- A desk without streams, see `Registry.create`. -/
def create (nodeId : String) (limits : Limits) (salt : ConnectionId) : Desk :=
  { registry := Registry.create nodeId limits salt, taps := [] }

/-- What happens at a desk. -/
inductive Step where
  /-- A stream is opened, unless its connection is refused. -/
  | start (owner : Owner) (connectedAt : Instant) (capacity seconds now : Nat)
  /-- The stream at a position is polled, see `Tap.move`. -/
  | poll (i : Nat) (endFirst : Bool) (now : Nat)
  /-- The client of the stream at a position goes away. -/
  | drop (i : Nat)
  /-- Something else is done to the registry, unless it takes the receiving end from a stream. -/
  | act (a : Registry.Action)

/-- Whether an action leaves the receiving ends of all streams alone. -/
def spares (d : Desk) (a : Registry.Action) : Bool :=
  d.taps.all fun t => a.spares t.connection

/-- The desk after a step. -/
def step (d : Desk) : Step → Desk
  | .start owner connectedAt capacity seconds now =>
    match d.registry.register owner connectedAt (max capacity 1) with
    | (r, .error _) => { d with registry := r }
    | (r, .ok c) =>
      { registry := r, taps := d.taps ++ [Tap.start c.id d.registry.nodeId seconds now] }
  | .poll i endFirst now =>
    match d.taps[i]? with
    | none => d
    | some t =>
      let (t, r) := t.poll d.registry endFirst now
      { registry := r, taps := d.taps.set i t }
  | .drop i =>
    match d.taps[i]? with
    | none => d
    | some t =>
      let (t, r) := t.drop d.registry
      { registry := r, taps := d.taps.set i t }
  | .act a => if d.spares a then { d with registry := d.registry.act a } else d

/-- The desk after several steps. -/
def run (d : Desk) (steps : List Step) : Desk :=
  steps.foldl step d

/-- What is done to the registry in a step. -/
def actions (d : Desk) : Step → List Registry.Action
  | .start owner connectedAt capacity _ _ => [.register owner connectedAt (max capacity 1)]
  | .poll i endFirst _ => d.taps[i]?.elim [] fun t => (t.move d.registry endFirst).actions t
  | .drop i => d.taps[i]?.elim [] fun t => [.dropStream t.toStream]
  | .act a => if d.spares a then [a] else []

/-- What is done to the registry in several steps. -/
def trace : Desk → List Step → List Registry.Action
  | _, [] => []
  | d, s :: steps => d.actions s ++ trace (d.step s) steps

/-- The connection for which a step opens a stream. -/
def opened (d : Desk) : Step → List ConnectionId
  | .start owner connectedAt capacity _ _ =>
    d.registry.joined (.register owner connectedAt (max capacity 1))
  | _ => []

/-- How often the stream at a position is polled in a step. -/
def Step.polls (i : Nat) : Step → Nat
  | .poll j _ _ => if j = i then 1 else 0
  | _ => 0

/-- Whether the client of the stream at a position goes away in a step. -/
def Step.drops (i : Nat) : Step → Bool
  | .drop j => j == i
  | _ => false

variable {d : Desk} {t : Tap} {r : Registry} {salt : ConnectionId} {n i : Nat}

/-! ## The registry -/

/-- A stream's use of its connection is one write to the registry. -/
theorem act_use {id : ConnectionId} {c : Connection} (hc : r.handle? id = some c)
    (u : Connection.Use) : r.act (.use id u) = r.put (c.use u) := by
  rw [Registry.act, hc]

/-- The connection in a move is the one that the stream serves. -/
theorem handle?_of_move {endFirst : Bool} {c : Connection}
    (h : t.move r endFirst = .wake c ∨ ∃ m, t.move r endFirst = .pass c m) :
    r.handle? t.connection = some c := by
  unfold Tap.move at h
  grind

/-- What a poll does to the registry is the run of its move's actions. -/
theorem registry_poll (t : Tap) (r : Registry) (endFirst : Bool) (now : Nat) :
    (t.poll r endFirst now).2 = r.run ((t.move r endFirst).actions t) := by
  rw [Tap.poll]
  cases hmove : t.move r endFirst with
  | none | greet | wait | quit => rfl
  | wake c =>
    have huse := act_use (handle?_of_move (.inl hmove)) .takeCloseSignal
    rw [Tap.Move.actions, Registry.run, List.foldl_cons, huse]
    rfl
  | pass c m =>
    have huse := act_use (handle?_of_move (.inr ⟨m, hmove⟩)) .receive
    rw [Tap.Move.actions, Registry.run, List.foldl_cons, huse]
    rfl

/-- What a step does to the registry is the run of the actions it stands for. -/
theorem registry_step (d : Desk) (s : Step) :
    (d.step s).registry = d.registry.run (d.actions s) := by
  cases s with
  | start owner connectedAt capacity seconds now =>
    rw [actions, Registry.run, List.foldl_cons, Registry.act, step]
    cases d.registry.register owner connectedAt (max capacity 1) with
    | mk r result => cases result <;> rfl
  | poll i endFirst now =>
    rw [step, actions]
    cases d.taps[i]? with
    | none => rfl
    | some t => exact registry_poll t d.registry endFirst now
  | drop i =>
    rw [step, actions]
    cases d.taps[i]? with
    | none => rfl
    | some t => rfl
  | act a =>
    rw [step, actions]
    split <;> rfl

/-! ## One stream -/

/-- The moves of a stream leave the other connections alone. -/
theorem spares_actions {id : ConnectionId} (hne : id ≠ t.connection) (m : Tap.Move) :
    ∀ a ∈ m.actions t, a.spares id = true := by
  have hbne : (t.connection != id) = true := bne_iff_ne.2 hne.symm
  cases m <;> simp [Tap.Move.actions, Registry.Action.spares, hbne]

/-- Two streams never share a connection. -/
theorem connection_ne {j : Nat} {u : Tap} (hapart : (d.taps.map (·.connection)).Nodup)
    (ht : d.taps[i]? = some t) (hu : d.taps[j]? = some u) (hne : i ≠ j) :
    t.connection ≠ u.connection := by
  intro hsame
  apply hne
  have hlength : i < (d.taps.map (·.connection)).length := by
    rw [List.length_map]
    exact (List.getElem?_eq_some_iff.1 ht).1
  apply (List.getElem?_inj hlength hapart).1
  rw [List.getElem?_map, List.getElem?_map, ht, hu, Option.map_some, Option.map_some, hsame]

/-- A poll step replaces the one stream it polls. -/
theorem step_poll (ht : d.taps[i]? = some t) (endFirst : Bool) (now : Nat) :
    d.step (.poll i endFirst now) =
      { registry := (t.poll d.registry endFirst now).2,
        taps := d.taps.set i (t.poll d.registry endFirst now).1 } := by
  rw [step, ht]

/-- A drop step replaces the one stream it drops. -/
theorem step_drop (ht : d.taps[i]? = some t) :
    d.step (.drop i) =
      { registry := (t.drop d.registry).2, taps := d.taps.set i (t.drop d.registry).1 } := by
  rw [step, ht]

/-- What becomes of a stream in a step. -/
inductive Affects (d : Desk) (i : Nat) (t : Tap) : Step → Tap → Registry → Prop where
  | poll (endFirst : Bool) (now : Nat) : Affects d i t (.poll i endFirst now)
      (t.poll d.registry endFirst now).1 (t.poll d.registry endFirst now).2
  | drop : Affects d i t (.drop i) (t.drop d.registry).1 (t.drop d.registry).2
  | other {s : Step} (hpolls : s.polls i = 0) (hdrops : s.drops i = false)
      (hspared : ∀ a ∈ d.actions s, a.spares t.connection = true) :
      Affects d i t s t (d.registry.run (d.actions s))

/-- A stream is polled, its client goes away, or it is left alone. -/
theorem step_affects (hapart : (d.taps.map (·.connection)).Nodup) (ht : d.taps[i]? = some t)
    (s : Step) : ∃ u, (d.step s).taps[i]? = some u ∧ d.Affects i t s u (d.step s).registry := by
  have hlength : i < d.taps.length := (List.getElem?_eq_some_iff.1 ht).1
  -- a step that leaves the place of the stream alone runs actions of others only
  have hother : (d.step s).taps[i]? = some t → s.polls i = 0 → s.drops i = false →
      (∀ a ∈ d.actions s, a.spares t.connection = true) →
      ∃ u, (d.step s).taps[i]? = some u ∧ d.Affects i t s u (d.step s).registry := by
    intro htap hpolls hdrops hspared
    rw [registry_step]
    exact ⟨t, htap, .other hpolls hdrops hspared⟩
  cases s with
  | start owner connectedAt capacity seconds now =>
    apply hother
    · rw [step]
      split
      · exact ht
      · exact (List.getElem?_append_left hlength).trans ht
    · rfl
    · rfl
    · intro a ha
      rw [List.mem_singleton.1 ha]
      rfl
  | poll j endFirst now =>
    -- a poll of another stream uses another connection, as no two streams share one
    by_cases hij : j = i
    · subst hij
      rw [step_poll ht]
      exact ⟨_, List.getElem?_set_self hlength, .poll endFirst now⟩
    · cases hu : d.taps[j]? with
      | none => exact hother (by rw [step, hu]; exact ht) (if_neg hij) rfl (by simp [actions, hu])
      | some u =>
        apply hother
        · rw [step_poll hu]
          exact (List.getElem?_set_ne hij).trans ht
        · exact if_neg hij
        · rfl
        · rw [actions, hu]
          exact spares_actions (connection_ne hapart ht hu (Ne.symm hij)) _
  | drop j =>
    -- so does another client that goes away
    by_cases hij : j = i
    · subst hij
      rw [step_drop ht]
      exact ⟨_, List.getElem?_set_self hlength, .drop⟩
    · have hdrops : (Step.drop j).drops i = false := beq_eq_false_iff_ne.2 hij
      cases hu : d.taps[j]? with
      | none => exact hother (by rw [step, hu]; exact ht) rfl hdrops (by simp [actions, hu])
      | some u =>
        apply hother
        · rw [step_drop hu]
          exact (List.getElem?_set_ne hij).trans ht
        · rfl
        · exact hdrops
        · rw [actions, hu]
          exact spares_actions (connection_ne hapart ht hu (Ne.symm hij)) .quit
  | act a =>
    apply hother
    · rw [step]
      split <;> exact ht
    · rfl
    · rfl
    · intro b hb
      rw [actions] at hb
      split at hb
      · -- an action from outside is let through only if it spares all streams
        next hspares =>
        rw [List.mem_singleton.1 hb]
        exact List.all_eq_true.1 hspares t (List.mem_of_getElem? ht)
      · cases hb

/-- Replacing a stream by one on the same connection keeps the list of connections. -/
theorem connections_set {u : Tap} (ht : d.taps[i]? = some t) (hsame : u.connection = t.connection) :
    (d.taps.set i u).map (·.connection) = d.taps.map (·.connection) := by
  apply List.ext_getElem?
  intro j
  rw [List.getElem?_map, List.getElem?_map, List.getElem?_set]
  by_cases hij : i = j
  · subst hij
    rw [if_pos rfl, if_pos (List.getElem?_eq_some_iff.1 ht).1, ht, Option.map_some, hsame,
      Option.map_some]
  · rw [if_neg hij]

/-- The connections of the streams stay the same, but for that of a new stream. -/
theorem connections_step (d : Desk) (s : Step) :
    (d.step s).taps.map (·.connection) = d.taps.map (·.connection) ++ d.opened s := by
  cases s with
  | start owner connectedAt capacity seconds now =>
    rw [step, opened, joined]
    cases d.registry.register owner connectedAt (max capacity 1) with
    | mk r result =>
      cases result with
      | error e => exact (List.append_nil _).symm
      | ok c => exact List.map_append
  | poll i endFirst now =>
    show _ = _ ++ []
    rw [List.append_nil]
    cases ht : d.taps[i]? with
    | none => rw [step, ht]
    | some t =>
      rw [step_poll ht]
      exact connections_set ht (t.same_poll _ _ _).connection
  | drop i =>
    show _ = _ ++ []
    rw [List.append_nil]
    cases ht : d.taps[i]? with
    | none => rw [step, ht]
    | some t =>
      rw [step_drop ht]
      exact connections_set ht (t.same_drop _).connection
  | act a =>
    show _ = _ ++ []
    rw [List.append_nil, step]
    split <;> rfl

/-- The stream at a position after a step was there before, or is a new one. -/
theorem taps_step_cases {s : Step} {u : Tap} (hu : (d.step s).taps[i]? = some u) :
    (∃ t, d.taps[i]? = some t) ∨ ∃ owner connectedAt capacity seconds now c,
      s = .start owner connectedAt capacity seconds now ∧
      (d.registry.register owner connectedAt (max capacity 1)).2 = .ok c ∧
      u = Tap.start c.id d.registry.nodeId seconds now := by
  -- no stream is ever taken off the list
  have hold : i < d.taps.length → ∃ t, d.taps[i]? = some t :=
    fun hlt => ⟨d.taps[i], List.getElem?_eq_getElem hlt⟩
  have hlength : i < (d.step s).taps.length := (List.getElem?_eq_some_iff.1 hu).1
  have hconnections := congrArg List.length (d.connections_step s)
  rw [List.length_map, List.length_append, List.length_map] at hconnections
  cases s with
  | start owner connectedAt capacity seconds now =>
    rw [step] at hu hlength
    cases hregister : d.registry.register owner connectedAt (max capacity 1) with
    | mk r result =>
      rw [hregister] at hu hlength
      cases result with
      | error e => exact .inl (hold hlength)
      | ok c =>
        by_cases hlt : i < d.taps.length
        · exact .inl (hold hlt)
        · -- the stream at the end is the new one
          rw [List.getElem?_append_right (Nat.not_lt.1 hlt)] at hu
          have hlast := List.mem_of_getElem? hu
          rw [List.mem_singleton] at hlast
          exact .inr ⟨owner, connectedAt, capacity, seconds, now, c, rfl, by rw [hregister], hlast⟩
  | poll | drop | act => exact .inl (hold (hlength.trans_eq hconnections))

/-! ## All streams -/

/-- A desk after `trace` was done to a registry: every stream agrees with its connection, and no two
of them serve the same. -/
structure Sound (r : Registry) (trace : List Registry.Action) (d : Desk) : Prop where
  registry : d.registry = r.run trace
  apart : (d.taps.map (·.connection)).Nodup
  joined : ∀ id ∈ d.taps.map (·.connection), id ∈ (r.along joined trace).flatten
  nodeId : d.registry.nodeId = r.nodeId
  /-- What a stream got at its start. -/
  settled : ∀ t ∈ d.taps, t.nodeId = r.nodeId ∧ 0 < t.patience
  kept : ∀ t ∈ d.taps, t.Kept d.registry (r.heard t.connection trace)

/-- A new desk has no streams, so all of them are in order. -/
theorem sound_create (nodeId : String) (limits : Limits) (salt : ConnectionId) :
    (create nodeId limits salt).Sound (Registry.create nodeId limits salt) [] where
  registry := rfl
  apart := List.nodup_nil
  joined := nofun
  nodeId := rfl
  settled := nofun
  kept := nofun

/-- Nothing is accepted in the moves of a stream. -/
theorem heard_actions (r : Registry) (id : ConnectionId) (t : Tap) (m : Tap.Move) :
    r.heard id (m.actions t) = [] := by
  cases m <;> rfl

/-- The registry of a desk in order keeps its numbering. -/
theorem Sound.numbered {trace : List Registry.Action} (h : d.Sound r trace) (hr : Numbered salt n r)
    (hn : n + r.handedOut trace ≤ 2 ^ 64) : Numbered salt (n + r.handedOut trace) d.registry := by
  rw [h.registry]
  exact hr.run trace hn

variable {trace : List Registry.Action} {s : Step} {u : Tap}

/-- No step gives a stream another connection or another patience. -/
theorem Affects.same {r' : Registry} (h : d.Affects i t s u r') : t.Same u := by
  cases h with
  | poll endFirst now => exact t.same_poll d.registry endFirst now
  | drop => exact t.same_drop d.registry
  | other => exact ⟨rfl, rfl, rfl⟩

/-- A step keeps a stream in step with its connection. -/
theorem Affects.kept {r' : Registry} (h : d.Affects i t s u r') (hr : Numbered salt n d.registry)
    (hn : n + d.registry.handedOut (d.actions s) ≤ 2 ^ 64) (ht : d.taps[i]? = some t)
    {heard : List Message} (hkept : t.Kept d.registry heard) :
    u.Kept r' (heard ++ d.registry.heard u.connection (d.actions s)) := by
  cases h with
  | poll endFirst now =>
    rw [actions, ht, Option.elim, heard_actions, List.append_nil]
    exact hkept.poll hr.toStored endFirst now
  | drop =>
    have hnone := heard_actions d.registry (t.drop d.registry).1.connection t .quit
    rw [Tap.Move.actions] at hnone
    rw [actions, ht, Option.elim, hnone, List.append_nil]
    exact hkept.drop hr.toStored
  | other _ _ hspared => exact hkept.run hr hn hspared

/-- A new stream agrees with its connection, on which nothing was accepted. -/
theorem kept_start {owner : Owner} {connectedAt : Instant} {capacity : Nat} {c : Connection}
    (hr : Numbered salt n r)
    (hn : n + r.handsOut (.register owner connectedAt capacity) ≤ 2 ^ 64)
    (hc : (r.register owner connectedAt capacity).2 = .ok c) (nodeId : String) (seconds now : Nat) :
    r.handle? c.id = none ∧
      (Tap.start c.id nodeId seconds now).Kept (r.act (.register owner connectedAt capacity)) [] := by
  rcases register_cases (hr.tight .user) owner connectedAt capacity with
    ⟨-, heq⟩ | ⟨-, user, -, -, heq⟩ | ⟨hroom, -, heq⟩
  · rw [heq] at hc
    cases hc
  · rw [heq] at hc
    cases hc
  · rw [heq] at hc
    obtain rfl := Except.ok.inj hc
    rw [handsOut, if_pos hroom] at hn
    refine ⟨hr.fresh hn, ?_⟩
    let c := Connection.create (r.lastId + 1) owner connectedAt capacity
    have hnew : (r.enter c).handle? c.id = some c := by
      rw [handle?_enter]
      exact if_pos rfl
    rw [Registry.act, heq]
    exact Tap.kept_of_running rfl hnew ⟨rfl, rfl⟩ (List.append_nil []).symm (.inl ⟨rfl, rfl, rfl⟩)

/-- A stream is opened for a connection that is new. -/
theorem opened_new (hr : Numbered salt n d.registry)
    (hn : n + d.registry.handedOut (d.actions s) ≤ 2 ^ 64) :
    (d.opened s).Nodup ∧ ∀ id ∈ d.opened s, d.registry.handle? id = none ∧
      id ∈ (d.registry.along joined (d.actions s)).flatten := by
  cases s with
  | start owner connectedAt capacity seconds now =>
    rcases hr.joined_cases (.register owner connectedAt (max capacity 1)) hn with
      hnone | ⟨id, hone, hnew, -⟩
    · rw [opened, hnone]
      exact ⟨List.nodup_nil, fun _ hid => absurd hid List.not_mem_nil⟩
    · rw [opened, actions, along, along, List.flatten_singleton, hone]
      refine ⟨List.nodup_singleton id, fun id' hid' => ?_⟩
      rw [List.mem_singleton.1 hid']
      exact ⟨hnew, List.mem_singleton_self id⟩
  | poll | drop | act => exact ⟨List.nodup_nil, fun _ hid => absurd hid List.not_mem_nil⟩

/-- What a step keeps. -/
theorem Sound.step (h : d.Sound r trace) (hr : Numbered salt n r)
    (hn : n + r.handedOut (trace ++ d.actions s) ≤ 2 ^ 64) :
    (d.step s).Sound r (trace ++ d.actions s) := by
  rw [handedOut_append, ← h.registry, ← Nat.add_assoc] at hn
  have hbefore : n + r.handedOut trace ≤ 2 ^ 64 := by omega
  have hnow := h.numbered hr hbefore
  obtain ⟨hnodup, hnew⟩ := opened_new hnow hn
  constructor
  · rw [registry_step, h.registry, run_append]
  · rw [connections_step, List.nodup_append]
    refine ⟨h.apart, hnodup, ?_⟩
    -- the other connections are known, and the new one is not
    rintro id hid id' hid' rfl
    obtain ⟨t, ht, rfl⟩ := List.mem_map.1 hid
    have hknown := (h.kept t ht).known
    rw [(hnew _ hid').1] at hknown
    cases hknown
  · intro id hid
    rw [along_append, List.flatten_append, List.mem_append, ← h.registry]
    rw [connections_step, List.mem_append] at hid
    exact hid.imp (h.joined id) fun hid => (hnew id hid).2
  · rw [registry_step, hnow.toStored.nodeId_run, h.nodeId]
  · intro u hu
    obtain ⟨i, hu⟩ := List.mem_iff_getElem?.1 hu
    rcases taps_step_cases hu with ⟨t, ht⟩ | ⟨_, _, _, seconds, _, _, -, -, rfl⟩
    · obtain ⟨u', hu', haffects⟩ := step_affects h.apart ht s
      obtain rfl := Option.some.inj (hu.symm.trans hu')
      obtain ⟨hnode, hpatience⟩ := h.settled t (List.mem_of_getElem? ht)
      exact ⟨haffects.same.nodeId.trans hnode, haffects.same.patience ▸ hpatience⟩
    · refine ⟨h.nodeId, ?_⟩
      show 0 < max seconds 1 * 1000
      omega
  · intro u hu
    obtain ⟨i, hu⟩ := List.mem_iff_getElem?.1 hu
    rw [heard_append, ← h.registry]
    rcases taps_step_cases hu with
      ⟨t, ht⟩ | ⟨owner, connectedAt, capacity, seconds, now, c, rfl, hc, rfl⟩
    · obtain ⟨u', hu', haffects⟩ := step_affects h.apart ht s
      obtain rfl := Option.some.inj (hu.symm.trans hu')
      have hkept := h.kept t (List.mem_of_getElem? ht)
      rw [← haffects.same.connection] at hkept
      exact haffects.kept hnow hn ht hkept
    · obtain ⟨hnew, hkept⟩ := kept_start hnow hn hc d.registry.nodeId seconds now
      have hsilent := hr.heard_eq_nil trace hbefore (h.registry ▸ hnew)
      rw [registry_step]
      show Tap.Kept _ (r.heard c.id trace ++ []) _
      rw [hsilent]
      exact hkept

/-- What a run keeps: by induction on the steps. -/
theorem Sound.run (h : d.Sound r trace) (hr : Numbered salt n r) (steps : List Step)
    (hn : n + r.handedOut (trace ++ d.trace steps) ≤ 2 ^ 64) :
    (d.run steps).Sound r (trace ++ d.trace steps) := by
  induction steps generalizing d trace with
  | nil => rwa [Desk.trace, List.append_nil]
  | cons s steps ih =>
    rw [Desk.trace, ← List.append_assoc] at hn ⊢
    have hfirst := r.handedOut_le_append (trace ++ d.actions s) ((d.step s).trace steps)
    exact ih (h.step hr (by omega)) hn

/-- How often the stream at a position is polled in several steps. -/
def polls (i : Nat) (steps : List Step) : Nat :=
  (steps.map (Step.polls i)).sum

/-- A stream that ends is nearer to its end after a step, if it was polled. -/
theorem Affects.ending {r' : Registry} (h : d.Affects i t s u r')
    (hr : Numbered salt n d.registry) (hn : n + d.registry.handedOut (d.actions s) ≤ 2 ^ 64)
    {heard : List Message} (hkept : t.Kept d.registry heard) (he : t.Ending d.registry) :
    u.Ending r' ∧ Tap.Nearer (s.polls i) t u := by
  cases h with
  | poll endFirst now =>
    rw [Step.polls, if_pos rfl]
    exact he.poll hkept hr.toStored endFirst now
  | drop =>
    exact ⟨.inl (t.isOver_drop _), Tap.nearer_of_over (t.isOver_drop _) (t.told_drop _) _⟩
  | other hpolls _ hspared =>
    rw [hpolls]
    exact ⟨he.run hr hn hspared, t.nearer_self⟩

/-- A stream that ends is nearer to its end after a run: by induction on the steps. -/
theorem Sound.ending_run (h : d.Sound r trace) (hr : Numbered salt n r) (steps : List Step)
    (hn : n + r.handedOut (trace ++ d.trace steps) ≤ 2 ^ 64) (ht : d.taps[i]? = some t)
    (he : t.Ending d.registry) :
    ∃ u, (d.run steps).taps[i]? = some u ∧ t.Same u ∧ Tap.Nearer (polls i steps) t u := by
  induction steps generalizing d trace t with
  | nil => exact ⟨t, ht, ⟨rfl, rfl, rfl⟩, t.nearer_self⟩
  | cons s steps ih =>
    rw [Desk.trace, ← List.append_assoc] at hn
    have hfirst := r.handedOut_le_append (trace ++ d.actions s) ((d.step s).trace steps)
    have hbefore := r.handedOut_le_append trace (d.actions s)
    have hsound := h.step hr (s := s) (by omega)
    obtain ⟨u, hu, haffects⟩ := step_affects h.apart ht s
    have hids : n + r.handedOut trace + d.registry.handedOut (d.actions s) ≤ 2 ^ 64 := by
      rw [handedOut_append, ← h.registry] at hfirst
      omega
    obtain ⟨hending, hfirst⟩ := haffects.ending (h.numbered hr (by omega)) hids
      (h.kept t (List.mem_of_getElem? ht)) he
    obtain ⟨v, hv, hsame, hrest⟩ := ih hsound hn hu hending
    exact ⟨v, hv, haffects.same.trans hsame, hfirst.trans hrest⟩

end Desk

end PushMesh
