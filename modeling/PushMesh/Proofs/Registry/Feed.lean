import PushMesh.Proofs.Registry.Leaving

/-!
# What waits on a connection

The receiving end of a connection belongs to the stream that serves it. Whatever else is done to a
registry leaves it alone (`Action.spares`), and to such a connection only three things can happen: it
is closed, with a signal, or it is sent a message, or nothing (`Numbered.spared_act`). So messages are at
most put behind those that wait (`Numbered.fed_act`). `accepted` are those messages, and `heard` all of
a run.
-/

namespace PushMesh

namespace Connection

/-- A connection whose receiving end is there, and is given a signal when the connection is closed. -/
structure Attended (c : Connection) : Prop where
  hasReceiver : c.hasReceiver = true
  signal : c.closeSignal = !c.isOpen

/-- What becomes of a connection by something that leaves its receiving end alone, with the messages
that are accepted. -/
inductive Spared (c : Connection) : List Message → Connection → Prop where
  | same : Spared c [] c
  | closed : Spared c [] c.close
  | sent (m : Message) : Spared c (if c.accepts then [m] else []) (c.trySend m).1

/-- A connection after something that leaves its receiving end alone. -/
structure Fed (c : Connection) (messages : List Message) (d : Connection) : Prop where
  queue : d.queue = c.queue ++ messages
  closed : c.isOpen = false → d.isOpen = false
  attended : c.Attended → d.Attended

variable (c : Connection)

theorem fed_self : c.Fed [] c :=
  ⟨(List.append_nil _).symm, fun h => h, fun h => h⟩

/-- Closing a connection leaves its queue and its receiving end alone. -/
theorem fed_close : c.Fed [] c.close :=
  ⟨(List.append_nil _).symm, fun _ => rfl, fun h => ⟨h.hasReceiver, rfl⟩⟩

/-- A message joins the queue if it is accepted. -/
theorem fed_trySend (m : Message) :
    c.Fed (if c.accepts then [m] else []) (c.trySend m).1 := by
  rw [← c.snd_trySend m]
  unfold trySend
  cases hopen : c.isOpen with
  | false => exact c.fed_self
  | true =>
    cases hreceiver : c.hasReceiver with
    | false =>
      refine ⟨(List.append_nil _).symm, fun _ => rfl, fun h => ?_⟩
      rw [h.hasReceiver] at hreceiver
      cases hreceiver
    | true =>
      simp only [Bool.not_true, Bool.false_eq_true, if_false]
      split
      · refine ⟨rfl, fun h => ?_, fun h => ⟨rfl, ?_⟩⟩
        · rw [hopen] at h
          cases h
        · rw [h.signal, hopen]
      · exact c.fed_self

/-- Whatever others do to a connection only feeds it. -/
theorem Spared.fed {c d : Connection} {messages : List Message} (h : c.Spared messages d) :
    c.Fed messages d := by
  cases h with
  | same => exact c.fed_self
  | closed => exact c.fed_close
  | sent m => exact c.fed_trySend m

end Connection

namespace Registry

/-- Whether an action leaves the receiving end of a connection alone. -/
def Action.spares (id : ConnectionId) : Action → Bool
  | .use _ (.send _) | .use _ .close => true
  | .use id' _ => id' != id
  | .readStream s _ | .dropStream s => s.connection != id
  | _ => true

/-- The messages that an action gets accepted on a connection. -/
def accepted (id : ConnectionId) (r : Registry) : Action → List Message
  | .execute (.send audience m) =>
    if (Operation.send audience m).check = .ok () ∧
        (r.get? id).any (fun c => audience.reaches c && c.accepts) then [m]
    else []
  | .use id' (.send m) =>
    if id' = id ∧ (r.handle? id).any (·.accepts) then [m] else []
  | _ => []

/-- The messages that were accepted on a connection in a run, in their order. -/
def heard (r : Registry) (id : ConnectionId) (actions : List Action) : List Message :=
  (r.along (accepted id) actions).flatten

variable {r s : Registry} {salt : ConnectionId} {n : Nat} {a : Action} {id : ConnectionId}
  {c : Connection}

/-! ## Everything but the receiving end -/

/-- The cleanup of a stream takes out its own connection and no other. -/
theorem registered_cleanUp (hr : r.Stored) {s : Stream} :
    id ∈ (s.cleanUp r).registered ↔ id ∈ r.registered ∧ id ≠ s.connection := by
  obtain ⟨hstored, hsame⟩ := letGo_keeps hr s
  rw [Stream.cleanUp_eq, touches_closeOne.registered _ _ _ hstored, hsame]
  simp only [Bool.false_eq_true, false_or]

/-- The cleanup of a stream leaves every other connection as it was. -/
theorem handle?_cleanUp_of_ne (hr : r.Stored) {s : Stream} (hne : id ≠ s.connection) :
    (s.cleanUp r).handle? id = r.handle? id := by
  have hletGo : (s.letGo r).handle? id = r.handle? id := by
    unfold Stream.letGo
    cases hc : r.handle? s.connection with
    | none => rfl
    | some c =>
      have hid : c.dropReceiver.id = s.connection := hr.keyed s.connection c hc
      rw [handle?_put, hid, if_neg hne]
  rw [Stream.cleanUp_eq, touches_closeOne.handle _ _ _ (letGo_keeps hr s).1, if_neg hne, hletGo]

/-- Taking messages leaves every other connection as it was. -/
theorem handle?_takeMessages_of_ne (hr : r.Stored) {s : Stream} (hne : id ≠ s.connection) :
    (s.takeMessages r).1.handle? id = r.handle? id := by
  unfold Stream.takeMessages
  cases hc : r.handle? s.connection with
  | none => rfl
  | some c =>
    have hput : ∀ d : Connection, d.id = c.id → (r.put d).handle? id = r.handle? id := by
      intro d hd
      rw [handle?_put, hd, hr.keyed s.connection c hc, if_neg hne]
    dsimp only
    split
    · exact hput _ rfl
    · split
      · rfl
      · exact hput _ rfl

/-- Reading a stream leaves every other connection as it was. -/
theorem handle?_read_of_ne (hr : r.Stored) {s : Stream} (hne : id ≠ s.connection) (now : Nat) :
    (s.read r now).registry.handle? id = r.handle? id := by
  have htake := handle?_takeMessages_of_ne hr hne
  have hstored := (revised_takeMessages hr s).stored hr
  unfold Stream.read
  split
  · rfl
  · dsimp only
    split
    · next heq =>
      rw [heq] at htake hstored
      exact (handle?_cleanUp_of_ne hstored hne).trans htake
    · next heq =>
      rw [heq] at htake
      split
      · exact htake
      · split <;> exact htake

/-- Dropping a stream leaves every other connection as it was. -/
theorem handle?_drop_of_ne (hr : r.Stored) {s : Stream} (hne : id ≠ s.connection) :
    (s.drop r).2.1.handle? id = r.handle? id := by
  unfold Stream.drop
  split
  · rfl
  · exact handle?_cleanUp_of_ne hr hne

/-- A connection that is known is not touched by a registration. -/
theorem Numbered.handle?_register (h : Numbered salt n r) (hc : r.handle? id = some c)
    (owner : Owner) (connectedAt : Instant) (capacity : Nat)
    (hn : n + r.handsOut (.register owner connectedAt capacity) ≤ 2 ^ 64) :
    (r.register owner connectedAt capacity).1.handle? id = some c := by
  rcases register_cases (h.tight .user) owner connectedAt capacity with
    ⟨-, heq⟩ | ⟨-, user, -, -, heq⟩ | ⟨hroom, -, heq⟩
  · rwa [heq]
  · rwa [heq]
  · rw [handsOut, if_pos hroom] at hn
    have hne : id ≠ r.lastId + 1 := by
      rintro rfl
      rw [h.fresh hn] at hc
      cases hc
    rw [heq, handle?_enter]
    exact (if_neg hne).trans hc

/-! ## One action -/

/-- A connection is spared by the closing of any list of ids. -/
theorem spared_closeIds (hr : r.Stored) (hc : r.handle? id = some c) (ids : Ascending ConnectionId) :
    ∃ d, (r.closeIds ids.toList).1.handle? id = some d ∧ c.Spared [] d := by
  rw [handle?_closeIds hr]
  split
  · cases hget : r.get? id with
    | none => exact ⟨c, hc, .same⟩
    | some c' =>
      obtain rfl := Option.some.inj (hc.symm.trans (get?_eq_some_iff.1 hget).2)
      exact ⟨c.close, rfl, .closed⟩
  · exact ⟨c, hc, .same⟩

/-- A send puts its message behind what waits on a connection that it reaches. -/
theorem spared_deliver (h : r.Aligned) (hc : r.handle? id = some c) (a : Audience) (m : Message) :
    ∃ d, (r.deliver (r.audience a) m).1.handle? id = some d ∧
      c.Spared (if (r.get? id).any (fun c => a.reaches c && c.accepts) then [m] else []) d := by
  rw [handle?_deliver h.toStored]
  -- nobody is reached who is not registered
  cases hget : r.get? id with
  | none =>
    have hout : id ∉ (r.audience a).toList := by
      intro hin
      obtain ⟨c', hc', -⟩ := (mem_audience_iff h).1 hin
      rw [hget] at hc'
      cases hc'
    rw [if_neg hout]
    exact ⟨c, hc, .same⟩
  | some c' =>
    obtain rfl := Option.some.inj (hc.symm.trans (get?_eq_some_iff.1 hget).2)
    cases hreaches : a.reaches c with
    | true =>
      rw [if_pos ((mem_audience_iff h).2 ⟨c, hget, hreaches⟩), Option.any_some, hreaches, Bool.true_and]
      exact ⟨_, rfl, .sent m⟩
    | false =>
      have hout : id ∉ (r.audience a).toList := by
        intro hin
        obtain ⟨c', hc', hreaches'⟩ := (mem_audience_iff h).1 hin
        obtain rfl := Option.some.inj (hget.symm.trans hc')
        rw [hreaches] at hreaches'
        cases hreaches'
      rw [if_neg hout, Option.any_some, hreaches]
      exact ⟨c, hc, .same⟩

/-- A connection is spared by any operation, which sends it what it accepts. -/
theorem spared_respond (h : r.Aligned) (hc : r.handle? id = some c) (op : Operation) :
    ∃ d, (r.respond op).1.handle? id = some d ∧ c.Spared (r.accepted id (.execute op)) d := by
  have hsame : ∃ d, r.handle? id = some d ∧ c.Spared [] d := ⟨c, hc, .same⟩
  rw [fst_respond]
  cases op with
  | send audience m =>
    by_cases hcheck : (Operation.send audience m).check = .ok ()
    · simp only [accepted, hcheck, if_true, true_and]
      exact spared_deliver h hc audience m
    · simp only [accepted, hcheck, if_false, false_and]
      exact hsame
  | disconnect closing =>
    split
    · exact spared_closeIds h.toStored hc (r.closing closing)
    · exact hsame
  | query _ _ | queryAll | listKeys _ | count => split <;> exact hsame

/-- A connection whose receiving end is left alone gets what is accepted on it. -/
theorem Numbered.spared_act (h : Numbered salt n r) (hn : n + r.handsOut a ≤ 2 ^ 64)
    (hc : r.handle? id = some c) (ha : a.spares id = true) :
    ∃ d, (r.act a).handle? id = some d ∧ c.Spared (r.accepted id a) d := by
  cases a with
  | register owner connectedAt capacity =>
    exact ⟨c, h.handle?_register hc owner connectedAt capacity hn, .same⟩
  | unregister id' => exact ⟨c, (handle?_unregister r id' id).trans hc, .same⟩
  | execute op => exact spared_respond h.toAligned hc op
  | sweep =>
    -- the dead connections are some of those that are registered, in their order
    exact spared_closeIds h.toStored hc (r.registered.filter fun id => (r.get? id).any fun c => !c.isAlive)
  | closeAll => exact spared_closeIds h.toStored hc r.registered
  | use id' u =>
    by_cases hid : id' = id
    · subst hid
      have hput : ∀ u, (r.act (.use id' u)).handle? id' = some (c.use u) := by
        intro u
        simp only [Registry.act, hc, handle?_put, (c.twins_use u).id, h.keyed id' c hc, if_true]
      refine ⟨c.use u, hput u, ?_⟩
      cases u with
      | send m =>
        simp only [accepted, hc, true_and, Option.any_some]
        exact .sent m
      | close => exact .closed
      | takeCloseSignal | receive | receiveAll | dropReceiver => simp [Action.spares] at ha
    · have hother : (r.act (.use id' u)).handle? id = some c := by
        simp only [Registry.act]
        cases hc' : r.handle? id' with
        | none => exact hc
        | some c' =>
          dsimp only
          rw [handle?_put, (c'.twins_use u).id, h.keyed id' c' hc', if_neg (Ne.symm hid), hc]
      have hnone : r.accepted id (.use id' u) = [] := by
        cases u with
        | send m => exact if_neg fun hboth => hid hboth.1
        | _ => rfl
      rw [hnone]
      exact ⟨c, hother, .same⟩
  | readStream s now =>
    have hne : id ≠ s.connection := Ne.symm (bne_iff_ne.1 ha)
    exact ⟨c, (handle?_read_of_ne h.toStored hne now).trans hc, .same⟩
  | dropStream s =>
    have hne : id ≠ s.connection := Ne.symm (bne_iff_ne.1 ha)
    exact ⟨c, (handle?_drop_of_ne h.toStored hne).trans hc, .same⟩

/-- A connection is fed by any action that is not its own stream's. -/
theorem Numbered.fed_act (h : Numbered salt n r) (hn : n + r.handsOut a ≤ 2 ^ 64)
    (hc : r.handle? id = some c) (ha : a.spares id = true) :
    ∃ d, (r.act a).handle? id = some d ∧ c.Fed (r.accepted id a) d := by
  obtain ⟨d, hd, hspared⟩ := h.spared_act hn hc ha
  exact ⟨d, hd, hspared.fed⟩

/-- What has left does not come back. -/
theorem Numbered.not_mem_registered_act (h : Numbered salt n r)
    (hn : n + r.handsOut a ≤ 2 ^ 64) (hknown : (r.handle? id).isSome = true)
    (hid : id ∉ r.registered) : id ∉ (r.act a).registered := by
  intro hback
  have hpart := (h.partition_act a hn).1
  have hmem : id ∈ r.joined a ++ r.registered.toList :=
    hpart.mem_iff.1 (List.mem_append_right _ (Ascending.mem_def.1 hback))
  rcases List.mem_append.1 hmem with hjoined | hregistered
  · rcases h.joined_cases a hn with hnone | ⟨id', hone, hnew, -⟩
    · rw [hnone] at hjoined
      cases hjoined
    · rw [hone, List.mem_singleton] at hjoined
      rw [hjoined, hnew] at hknown
      cases hknown
  · exact hid (Ascending.mem_def.2 hregistered)

/-! ## A run -/

theorem heard_append (r : Registry) (id : ConnectionId) (actions actions' : List Action) :
    r.heard id (actions ++ actions') = r.heard id actions ++ (r.run actions).heard id actions' := by
  rw [heard, along_append, List.flatten_append]
  rfl

/-- Nothing is accepted on a connection that is not known. -/
theorem accepted_eq_nil (hid : r.handle? id = none) (a : Action) : r.accepted id a = [] := by
  have hget : r.get? id = none := by
    unfold get?
    split
    · exact hid
    · rfl
  cases a with
  | execute op => cases op <;> simp [accepted, hget]
  | use id' u => cases u <;> simp [accepted, hid]
  | _ => rfl

/-- A connection that is known stays known. -/
theorem Numbered.handle?_isSome_run (h : Numbered salt n r) (actions : List Action)
    (hn : n + r.handedOut actions ≤ 2 ^ 64) (hid : (r.handle? id).isSome = true) :
    ((r.run actions).handle? id).isSome = true := by
  induction actions generalizing r n with
  | nil => exact hid
  | cons a actions ih =>
    rw [handedOut, ← Nat.add_assoc] at hn
    exact ih (h.act a (by omega)) hn (handle?_isSome_act h.toAligned a hid)

/-- Nothing was accepted on a connection that is not known in the end. -/
theorem Numbered.heard_eq_nil (h : Numbered salt n r) (actions : List Action)
    (hn : n + r.handedOut actions ≤ 2 ^ 64) (hid : (r.run actions).handle? id = none) :
    r.heard id actions = [] := by
  induction actions generalizing r n with
  | nil => rfl
  | cons a actions ih =>
    have hunknown : r.handle? id = none := by
      by_contra hknown
      have hstays := h.handle?_isSome_run (a :: actions) hn (Option.isSome_iff_ne_none.2 hknown)
      rw [hid] at hstays
      cases hstays
    rw [handedOut, ← Nat.add_assoc] at hn
    have hrest := ih (h.act a (by omega)) hn hid
    show r.accepted id a ++ (r.act a).heard id actions = []
    rw [accepted_eq_nil hunknown, hrest, List.nil_append]

end Registry

end PushMesh
