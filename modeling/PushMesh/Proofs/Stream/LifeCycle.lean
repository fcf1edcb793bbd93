import PushMesh.Proofs.Stream.Desk

/-!
# The life of a stream

Whatever happens at a desk in whatever order, a stream tells its client what its connection is and
then what was accepted on it, ends soon after the connection is closed, and leaves nothing behind
(`lives_run`). A stream that was never polled tells nothing, and whether one was polled is read off the
steps (`polled`). Reading a stream of a desk is polling it (`readAs_run`).
-/

namespace PushMesh

/-- Nothing is left of a connection among what is registered: neither itself nor an entry of a key. -/
def Registry.Unlisted (r : Registry) (id : ConnectionId) : Prop :=
  id ∉ r.registered ∧ ∀ kind key, id ∉ (r.index kind).ids key

namespace Desk

open Registry

variable {d : Desk} {r : Registry} {trace : List Registry.Action} {t u : Tap}
  {salt : ConnectionId} {n i : Nat}

theorem trace_append (d : Desk) (steps later : List Step) :
    d.trace (steps ++ later) = d.trace steps ++ (d.run steps).trace later := by
  induction steps generalizing d with
  | nil => rfl
  | cons s steps ih =>
    rw [List.cons_append, trace, trace, ih, List.append_assoc]
    rfl

/-! ## Who was polled -/

/-- Whether the stream at a position is polled, in several steps, before its client goes away. Until it
is opened nothing is done to it. -/
def polled (i : Nat) : Desk → List Step → Bool
  | _, [] => false
  | d, s :: steps =>
    if d.taps.length ≤ i then polled i (d.step s) steps
    else if s.polls i = 1 then true
    else if s.drops i then false
    else polled i (d.step s) steps

/-- A step leaves it open whether a stream is polled later, unless it polls the stream itself or is the
client going away. -/
theorem Affects.isFresh {s : Step} {r' : Registry} (h : d.Affects i t s u r') (rest : Bool) :
    (u.isFresh && (u.isOver || !rest)) = (t.isFresh && (t.isOver ||
      !(if s.polls i = 1 then true else if s.drops i then false else rest))) := by
  cases h with
  | poll endFirst now =>
    have hpolls : (Step.poll i endFirst now).polls i = 1 := if_pos rfl
    rw [t.isFresh_poll, if_pos hpolls]
    cases hover : t.isOver with
    | true => rw [Tap.poll_of_over hover, hover, Bool.true_or, Bool.true_or, Bool.and_true]
    | false => rw [Bool.and_false, Bool.false_and, Bool.not_true, Bool.or_false, Bool.and_false]
  | drop =>
    have hpolls : (Step.drop i).polls i ≠ 1 := Nat.zero_ne_one
    have hdrops : (Step.drop i).drops i = true := beq_self_eq_true i
    rw [t.isFresh_drop, t.isOver_drop, if_neg hpolls, if_pos hdrops, Bool.true_or, Bool.not_false,
      Bool.or_true]
  | other hpolls hdrops => rw [if_neg (by omega), hdrops, if_neg Bool.false_ne_true]

/-- A stream stays fresh as long as it is not polled, and for good where its client has gone away: by
induction on the steps. -/
theorem Sound.isFresh_run (h : d.Sound r trace) (hr : Numbered salt n r) (steps : List Step)
    (hn : n + r.handedOut (trace ++ d.trace steps) ≤ 2 ^ 64) (ht : d.taps[i]? = some t)
    (hu : (d.run steps).taps[i]? = some u) :
    u.isFresh = (t.isFresh && (t.isOver || !polled i d steps)) := by
  induction steps generalizing d trace t with
  | nil =>
    obtain rfl := Option.some.inj (ht.symm.trans hu)
    rw [polled, Bool.not_false, Bool.or_true, Bool.and_true]
  | cons s steps ih =>
    rw [Desk.trace, ← List.append_assoc] at hn
    have hfirst := r.handedOut_le_append (trace ++ d.actions s) ((d.step s).trace steps)
    have hsound := h.step hr (s := s) (by omega)
    have hthere : ¬d.taps.length ≤ i := Nat.not_le.2 (List.getElem?_eq_some_iff.1 ht).1
    obtain ⟨v, hv, haffects⟩ := step_affects h.apart ht s
    rw [ih hsound hn hv hu, polled, if_neg hthere]
    exact haffects.isFresh _

/-- A stream that was opened on the way is fresh unless it was polled: by induction on the steps, up to
the one with which it comes. -/
theorem Sound.isFresh_of_new (h : d.Sound r trace) (hr : Numbered salt n r) (steps : List Step)
    (hn : n + r.handedOut (trace ++ d.trace steps) ≤ 2 ^ 64) (hnew : d.taps.length ≤ i)
    (hu : (d.run steps).taps[i]? = some u) : u.isFresh = !polled i d steps := by
  induction steps generalizing d trace with
  | nil =>
    rw [Desk.run, List.foldl_nil, List.getElem?_eq_none hnew] at hu
    cases hu
  | cons s steps ih =>
    rw [Desk.trace, ← List.append_assoc] at hn
    have hfirst := r.handedOut_le_append (trace ++ d.actions s) ((d.step s).trace steps)
    have hsound := h.step hr (s := s) (by omega)
    rw [polled, if_pos hnew]
    cases hv : (d.step s).taps[i]? with
    | none => exact ih hsound hn (List.getElem?_eq_none_iff.1 hv) hu
    | some v =>
      rcases taps_step_cases hv with ⟨t, ht⟩ | ⟨_, _, _, _, _, _, -, -, rfl⟩
      · rw [List.getElem?_eq_none hnew] at ht
        cases ht
      · exact hsound.isFresh_run hr steps hn hv hu

/-! ## The life of a stream -/

/-- The life of the stream at a position of a desk, after `trace` was done to the registry `r` it
started with, and before the steps `later`; `polled` tells whether it was polled before its client went
away. -/
structure Lives (r : Registry) (trace : List Registry.Action) (polled : Bool) (d : Desk)
    (later : List Step) (i : Nat) (t : Tap) : Prop where
  /-- A stream that was polled tells its client its connection and its node first, and then of the
  messages that were accepted the beginning, in their order. -/
  told : polled = true → ∃ messages, messages <+: r.heard t.connection trace ∧
    t.events = .connected t.connection r.nodeId :: messages.map .message
  silent : polled = false → t.events = []
  /-- After its connection is closed a stream gives out one piece more at most, and two polls are
  enough to end it. -/
  ends : t.Ending d.registry → ∃ u more, (d.run later).taps[i]? = some u ∧
    u.connection = t.connection ∧ u.told = t.told ++ more ∧ more.length ≤ 1 ∧
    (2 ≤ polls i later → u.isOver = true)
  /-- A disconnect, a sweep and the closing of everything do close what they take out, with a signal to
  the stream, which ends then. -/
  closed : ∀ a c, d.registry.get? t.connection = some c → a.closes c = true →
    (d.step (.act a)).taps[i]? = some t ∧
    (d.step (.act a)).registry.handle? t.connection =
      some { c with isOpen := false, closeSignal := true } ∧
    (d.step (.act a)).registry.get? t.connection = none ∧ t.Ending (d.step (.act a)).registry
  /-- A stream whose client goes away is over, and tells nothing more. -/
  dropped : ∃ u, (d.step (.drop i)).taps[i]? = some u ∧ u.isOver = true ∧ u.told = t.told ∧
    (d.step (.drop i)).registry.Unlisted t.connection
  /-- Nothing is left of the connection in the registry when the stream is over. -/
  gone : t.isOver = true → d.registry.Unlisted t.connection
  /-- The connection has left once, unless it is registered still. -/
  released : (r.along left trace).flatten.count t.connection =
    if d.registry.registered.contains t.connection then 0 else 1

/-- A connection that joined is registered still or has left once. -/
theorem count_left (h : Conserved r trace) {id : ConnectionId}
    (hid : id ∈ (r.along joined trace).flatten) : (r.along left trace).flatten.count id =
      if (r.run trace).registered.contains id then 0 else 1 := by
  have hone := List.count_eq_one_of_mem h.distinct hid
  rw [← h.partition.count_eq, List.count_append] at hone
  split
  · next hregistered =>
    have hmem := Ascending.mem_def.1 (Ascending.contains_iff.1 hregistered)
    rw [List.count_eq_one_of_mem (Ascending.nodup _) hmem] at hone
    omega
  · next hregistered =>
    have hnot : id ∉ (r.run trace).registered.toList :=
      fun hmem => hregistered (Ascending.contains_iff.2 (Ascending.mem_def.2 hmem))
    rw [List.count_eq_zero_of_not_mem hnot] at hone
    exact hone

/-- Nothing is left of a connection whose stream is over. -/
theorem Sound.unlisted (h : d.Sound r trace) (hr : Numbered salt n r)
    (hn : n + r.handedOut trace ≤ 2 ^ 64) (ht : d.taps[i]? = some t) (hover : t.isOver = true) :
    d.registry.Unlisted t.connection := by
  have hgone := ((h.kept t (List.mem_of_getElem? ht)).ended hover).1
  refine ⟨hgone, fun kind key hlisted => ?_⟩
  obtain ⟨c, hc, -⟩ := ((h.numbered hr hn).indexed kind key t.connection).1 hlisted
  exact hgone (get?_eq_some_iff.1 hc).1

/-- What closes connections leaves the streams alone. -/
theorem spares_of_closes {a : Registry.Action} {c : Connection} (ha : a.closes c = true) (d : Desk) :
    d.spares a = true := by
  apply List.all_eq_true.2
  intro t _
  cases a with
  | execute | sweep | closeAll => rfl
  | _ => cases ha

/-- A stream whose connection is closed by an action ends after it. -/
theorem closed_step (h : d.registry.Aligned) (ht : d.taps[i]? = some t) {a : Registry.Action}
    {c : Connection} (hc : d.registry.get? t.connection = some c) (ha : a.closes c = true) :
    (d.step (.act a)).taps[i]? = some t ∧
      (d.step (.act a)).registry.handle? t.connection =
        some { c with isOpen := false, closeSignal := true } ∧
      (d.step (.act a)).registry.get? t.connection = none ∧
      t.Ending (d.step (.act a)).registry := by
  obtain ⟨hhandle, hget⟩ := h.closed_act hc ha
  rw [step, if_pos (spares_of_closes ha d)]
  exact ⟨ht, hhandle, hget, .inr ⟨_, hhandle, rfl⟩⟩

/-- A stream is over when its client has gone away, and nothing is left of its connection. -/
theorem Sound.dropped_step (h : d.Sound r trace) (hr : Numbered salt n r)
    (hn : n + r.handedOut trace ≤ 2 ^ 64) (ht : d.taps[i]? = some t) :
    ∃ u, (d.step (.drop i)).taps[i]? = some u ∧ u.isOver = true ∧ u.told = t.told ∧
      (d.step (.drop i)).registry.Unlisted t.connection := by
  have hnone : n + r.handedOut (trace ++ d.actions (.drop i)) ≤ 2 ^ 64 := by
    have hactions : d.actions (.drop i) = [.dropStream t.toStream] := by rw [actions, ht]; rfl
    rw [hactions, handedOut_append]
    exact hn
  have hafter : (d.step (.drop i)).taps[i]? = some (t.drop d.registry).1 := by
    rw [step_drop ht]
    exact List.getElem?_set_self (List.getElem?_eq_some_iff.1 ht).1
  have hunlisted := (h.step hr hnone).unlisted hr hnone hafter (t.isOver_drop _)
  rw [(t.same_drop d.registry).connection] at hunlisted
  exact ⟨_, hafter, t.isOver_drop _, t.told_drop _, hunlisted⟩

/-- A stream of a desk in order lives as `Lives` says from there on. -/
theorem Sound.lives (h : d.Sound r trace) (hr : Numbered salt n r) (hconserved : Conserved r trace)
    {later : List Step} (hn : n + r.handedOut (trace ++ d.trace later) ≤ 2 ^ 64)
    (ht : d.taps[i]? = some t) {polled : Bool} (hpolled : t.isFresh = !polled) :
    Lives r trace polled d later i t := by
  have hmem : t ∈ d.taps := List.mem_of_getElem? ht
  have hkept := h.kept t hmem
  have hbefore := r.handedOut_le_append trace (d.trace later)
  have hnow := h.numbered hr (by omega)
  obtain ⟨messages, hmessages, htells⟩ := hkept.tells
  constructor
  · rintro rfl
    -- a stream that was polled is not fresh, so it has told its greeting
    rcases htells with ⟨hfresh, -⟩ | ⟨-, htold⟩
    · rw [hpolled] at hfresh
      cases hfresh
    · rw [Tap.script, (h.settled t hmem).1] at htold
      exact ⟨messages, hmessages, htold⟩
  · rintro rfl
    -- a fresh one has told no event at all
    rcases htells with ⟨-, hnone, -⟩ | ⟨hfresh, -⟩
    · exact hnone
    · rw [hpolled] at hfresh
      cases hfresh
  · intro hending
    -- every poll brings an ending stream nearer to its end
    obtain ⟨u, hu, hsame, hnearer⟩ := h.ending_run hr later hn ht hending
    obtain ⟨more, hmore⟩ := hnearer.told
    have hlength := hnearer.length
    have hdue := t.due_le
    rw [← hmore, List.length_append] at hlength
    refine ⟨u, more, hu, hsame.connection, hmore.symm, by omega, fun hpolls => ?_⟩
    apply Tap.isOver_of_due
    have := hnearer.due
    omega
  · exact fun a c hc ha => closed_step hnow.toAligned ht hc ha
  · exact h.dropped_step hr (by omega) ht
  · exact h.unlisted hr (by omega) ht
  · rw [h.registry]
    exact count_left hconserved (h.joined _ (List.mem_map_of_mem hmem))

variable {nodeId : String} {limits : Limits}

/-- Every desk that runs from a new one is in order. -/
theorem sound_run {steps : List Step}
    (hids : (Registry.create nodeId limits salt).handedOut
      ((create nodeId limits salt).trace steps) ≤ 2 ^ 64) :
    ((create nodeId limits salt).run steps).Sound (Registry.create nodeId limits salt)
      ((create nodeId limits salt).trace steps) := by
  have hrun := (sound_create nodeId limits salt).run (numbered_create nodeId limits salt) steps
  rw [List.nil_append, Nat.zero_add] at hrun
  exact hrun hids

/-- **The life of a stream.** Let streams be opened at a node, polled and dropped by their clients, and
let anything else happen to their connections in between, in any order and with either choice where a
message and the end are both due. What a stream gives out is its connection and node and then the
beginning of the messages that were accepted, each once and in their order; it gives out nothing if its
client goes away before it polls. A disconnect, a sweep or a shutdown closes what it takes out. After
its connection is closed a stream gives out one piece more at most, and ends. When it is over, or its
client has gone away, its connection is found nowhere. And of the slots that were taken each is given
back once, by whoever comes first. -/
theorem lives_run (nodeId : String) (limits : Limits) (salt : ConnectionId) (steps later : List Step)
    (hids : (Registry.create nodeId limits salt).handedOut
      ((create nodeId limits salt).trace (steps ++ later)) ≤ 2 ^ 64) :
    let r := Registry.create nodeId limits salt
    let d := (create nodeId limits salt).run steps
    let trace := (create nodeId limits salt).trace steps
    d.registry = r.run trace ∧
      d.registry.active + (r.along left trace).flatten.length =
        (r.along joined trace).flatten.length ∧
      ∀ i t, d.taps[i]? = some t →
        Lives r trace (polled i (create nodeId limits salt) steps) d later i t := by
  intro r d trace
  have hr := numbered_create nodeId limits salt
  rw [trace_append] at hids
  have hbefore : r.handedOut trace ≤ 2 ^ 64 :=
    Nat.le_trans (r.handedOut_le_append trace (d.trace later)) hids
  have hconserved := conserved_run nodeId limits salt trace hbefore
  have hsound : d.Sound r trace := sound_run hbefore
  refine ⟨hsound.registry, ?_, fun i t ht => ?_⟩
  · have hactive := (hsound.numbered hr (by rwa [Nat.zero_add])).active_eq
    rw [hconserved.count, hconserved.reports, ← List.length_flatten, ← hsound.registry, hactive]
  · have hnone := sound_create nodeId limits salt
    have hfresh := hnone.isFresh_of_new hr steps (by rwa [Nat.zero_add]) (Nat.zero_le i) ht
    exact hsound.lives hr hconserved (by rwa [Nat.zero_add]) ht hfresh

/-- Three streams. The first is closed while it waits and a message waits too, which wins; the second
is closed before it has passed on its message; the third is dropped before it was polled, and closed
after that. -/
def threeLives : List Step :=
  let note : Message := ⟨none, .null, none⟩
  [.start ⟨some "u", none, []⟩ default 2 15 0, .start ⟨some "v", none, []⟩ default 2 15 0,
    .start ⟨some "w", none, []⟩ default 2 15 0, .act (.execute (.send .all note)),
    .poll 0 true 0, .poll 0 true 0, .poll 0 true 0, .drop 2,
    .act (.execute (.send (.key .user "u") note)), .act (.execute (.disconnect (.user "u"))),
    .poll 0 false 0, .poll 0 true 0, .poll 1 true 0, .act .closeAll, .poll 1 true 0]

example : ((create "a" .standard 0).run threeLives).taps.map (·.told.length) = [3, 1, 0] ∧
    [0, 1, 2].map (polled · (create "a" .standard 0) threeLives) = [true, true, false] := by
  decide

/-- A stream that is closed in time, one that is closed late, and one that is dropped early. -/
theorem lives_run_three :
    let r := Registry.create "a" .standard 0
    let d := (create "a" .standard 0).run threeLives
    let trace := (create "a" .standard 0).trace threeLives
    r.handedOut ((create "a" .standard 0).trace (threeLives ++ [.poll 0 true 0])) ≤ 2 ^ 64 ∧
      d.registry = r.run trace ∧
      d.registry.active + (r.along left trace).flatten.length =
        (r.along joined trace).flatten.length ∧
      ∀ i t, d.taps[i]? = some t →
        Lives r trace (polled i (create "a" .standard 0) threeLives) d [.poll 0 true 0] i t := by
  intro r d trace
  have hids :
      r.handedOut ((create "a" .standard 0).trace (threeLives ++ [.poll 0 true 0])) ≤ 2 ^ 64 := by
    decide
  exact ⟨hids, lives_run "a" .standard 0 threeLives [.poll 0 true 0] hids⟩

/-- **Reading is polling.** In every run of a desk, a read of a stream that does not stand still after
an event finds what polls come to that let the end win. -/
theorem readAs_run {steps : List Step}
    (hids : (Registry.create nodeId limits salt).handedOut
      ((create nodeId limits salt).trace steps) ≤ 2 ^ 64)
    (ht : ((create nodeId limits salt).run steps).taps[i]? = some t) {c : Connection}
    (hc : ((create nodeId limits salt).run steps).registry.handle? t.connection = some c)
    (hover : t.isOver = false) (hpaused : t.isPaused = false) (now : Nat)
    (hn : c.queue.length + 2 ≤ n) :
    let r := ((create nodeId limits salt).run steps).registry
    t.ReadAs (t.read r now) (t.polls true now n r) := by
  have hsound := sound_run hids
  have hmem : t ∈ ((create nodeId limits salt).run steps).taps := List.mem_of_getElem? ht
  have hnow := hsound.numbered (numbered_create nodeId limits salt) (by rwa [Nat.zero_add])
  exact Tap.readAs_polls hnow.toStored hc ((hsound.kept t hmem).running c hc hover).1 hover hpaused
    (hsound.settled t hmem).2 hn

end Desk

end PushMesh
