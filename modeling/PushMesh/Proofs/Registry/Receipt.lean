import PushMesh.Proofs.Registry.Feed

/-!
# What becomes of accepted messages

A queue gives out what was put into it. `Connection.Moved` says that of anything that can be done to a
connection, and it is a relation that adds up (`Moved.trans`): so one step lemma for each action of a
registry (`Numbered.moved_act`) gives the same of a run (`Numbered.moved_run`). From the start on, what
was received from a connection and what waits on it is what was accepted on it (`receipted_run`).
-/

namespace PushMesh

namespace Connection

/-- A connection after something by which messages were accepted on it and others were taken from it. -/
structure Moved (c : Connection) (accepted taken : List Message) (d : Connection) : Prop where
  /-- What was taken and what waits is what had waited and what was accepted. -/
  queue : d.hasReceiver = true → taken ++ d.queue = c.queue ++ accepted
  /-- Where the receiving end is gone, the end of that may be lost. -/
  begins : taken ++ d.queue <+: c.queue ++ accepted
  fits : c.queue.length ≤ c.capacity → d.queue.length ≤ c.capacity
  capacity : d.capacity = c.capacity
  delivered : d.delivered = c.delivered + UInt64.ofNat accepted.length
  receiver : c.hasReceiver = false → d.hasReceiver = false
  /-- Nothing is accepted where nothing reaches the client, and that stays so. -/
  dead : c.isAlive = false → accepted = [] ∧ d.isAlive = false

variable {c d e : Connection} {accepted accepted' taken taken' : List Message}

/-- Without a receiving end a connection is not alive. -/
theorem isAlive_of_hasReceiver (h : c.hasReceiver = false) : c.isAlive = false := by
  rw [isAlive, h, Bool.and_false]

/-- Doing one thing after the other adds up. -/
theorem Moved.trans (h : c.Moved accepted taken d) (h' : d.Moved accepted' taken' e) :
    c.Moved (accepted ++ accepted') (taken ++ taken') e where
  queue hreceiver := by
    have hd : d.hasReceiver = true := by
      by_contra hgone
      rw [h'.receiver (Bool.eq_false_iff.2 hgone)] at hreceiver
      cases hreceiver
    rw [List.append_assoc, h'.queue hreceiver, ← List.append_assoc, h.queue hd, List.append_assoc]
  begins := by
    have hsecond : taken ++ (taken' ++ e.queue) <+: taken ++ (d.queue ++ accepted') :=
      (List.prefix_append_right_inj taken).2 h'.begins
    rw [List.append_assoc]
    refine hsecond.trans ?_
    rw [← List.append_assoc, ← List.append_assoc]
    cases hd : d.hasReceiver with
    | true => exact (h.queue hd) ▸ List.prefix_rfl
    | false =>
      -- without the receiving end nothing more is accepted
      rw [(h'.dead (isAlive_of_hasReceiver hd)).1, List.append_nil, List.append_nil]
      exact h.begins
  fits hfits := by
    have hd := h.fits hfits
    rw [← h.capacity] at hd ⊢
    exact h'.fits hd
  capacity := h'.capacity.trans h.capacity
  delivered := by
    rw [h'.delivered, h.delivered, List.length_append, UInt64.ofNat_add, UInt64.add_assoc]
  receiver hgone := h'.receiver (h.receiver hgone)
  dead hdead := by
    obtain ⟨rfl, hd⟩ := h.dead hdead
    obtain ⟨rfl, he⟩ := h'.dead hd
    exact ⟨rfl, he⟩

/-! ## One connection -/

/-- What changes neither queue nor counter, and brings nothing back to life, moves nothing. -/
theorem moved_of_queue (hqueue : d.queue = c.queue) (hcapacity : d.capacity = c.capacity)
    (hdelivered : d.delivered = c.delivered) (hreceiver : d.hasReceiver = c.hasReceiver)
    (hopen : c.isOpen = false → d.isOpen = false) : c.Moved [] [] d where
  queue _ := by rw [hqueue, List.nil_append, List.append_nil]
  begins := by
    have hsame : [] ++ d.queue = c.queue ++ [] := by
      rw [hqueue, List.nil_append, List.append_nil]
    exact hsame ▸ List.prefix_rfl
  fits h := by rwa [hqueue]
  capacity := hcapacity
  delivered := by rw [hdelivered]; exact (UInt64.add_zero _).symm
  receiver h := by rwa [hreceiver]
  dead h := by
    refine ⟨rfl, ?_⟩
    rw [isAlive, Bool.and_eq_false_iff] at h ⊢
    rw [hreceiver]
    exact h.imp_left hopen

theorem moved_self (c : Connection) : c.Moved [] [] c :=
  moved_of_queue rfl rfl rfl rfl fun h => h

/-- A send moves its message into the queue if it is accepted. -/
theorem moved_trySend (c : Connection) (m : Message) :
    c.Moved (if c.accepts then [m] else []) [] (c.trySend m).1 := by
  rw [← c.snd_trySend m]
  unfold trySend
  -- by cases as the send looks: closed, without receiving end, with or without room
  cases hopen : c.isOpen with
  | false => exact c.moved_self
  | true =>
    cases hreceiver : c.hasReceiver with
    | false => exact moved_of_queue rfl rfl rfl hreceiver.symm fun _ => rfl
    | true =>
      simp only [Bool.not_true, Bool.false_eq_true, if_false]
      split
      · next hroom =>
        constructor
        · intro _
          rfl
        · exact List.prefix_rfl
        · intro _
          show (c.queue ++ [m]).length ≤ c.capacity
          rw [List.length_append, List.length_singleton]
          omega
        · rfl
        · rfl
        · intro hgone
          rw [hreceiver] at hgone
          cases hgone
        · intro hdead
          rw [isAlive, hopen, hreceiver] at hdead
          cases hdead
      · exact c.moved_self

/-- What others do to a connection takes nothing from it. -/
theorem Spared.moved (h : c.Spared accepted d) : c.Moved accepted [] d := by
  cases h with
  | same => exact c.moved_self
  | closed => exact moved_of_queue rfl rfl rfl rfl fun _ => rfl
  | sent m => exact c.moved_trySend m

/-- What is taken from the front of the queue is received. -/
theorem moved_of_taken (hqueue : taken ++ d.queue = c.queue)
    (hsame : d = { c with queue := d.queue }) : c.Moved [] taken d := by
  rw [hsame]
  constructor
  · intro _
    rwa [List.append_nil]
  · rw [List.append_nil]
    exact hqueue ▸ List.prefix_rfl
  · intro hfits
    have hlength := congrArg List.length hqueue
    rw [List.length_append] at hlength
    show d.queue.length ≤ c.capacity
    omega
  · rfl
  · exact (UInt64.add_zero _).symm
  · exact fun hgone => hgone
  · exact fun hdead => ⟨rfl, hdead⟩

/-- Receiving takes the first message, if there is one. -/
theorem moved_receive (c : Connection) : c.Moved [] c.receive.2.toList c.receive.1 := by
  apply moved_of_taken
  · unfold receive
    split
    · rfl
    · next m rest hqueue => exact hqueue.symm
  · unfold receive
    split <;> rfl

/-- Receiving everything takes the whole queue. -/
theorem moved_receiveAll (c : Connection) : c.Moved [] c.receiveAll.2 c.receiveAll.1 :=
  moved_of_taken (List.append_nil _) rfl

/-- Taking the close signal leaves the messages alone. -/
theorem moved_takeCloseSignal (c : Connection) : c.Moved [] [] c.takeCloseSignal.1 :=
  moved_of_queue rfl rfl rfl rfl fun h => h

/-- With the receiving end what waits is lost. -/
theorem moved_dropReceiver (c : Connection) : c.Moved [] [] c.dropReceiver where
  queue h := by cases h
  begins := List.nil_prefix
  fits _ := Nat.zero_le _
  capacity := rfl
  delivered := (UInt64.add_zero _).symm
  receiver _ := rfl
  dead _ := ⟨rfl, isAlive_of_hasReceiver rfl⟩

end Connection

namespace Registry

/-- The messages that an action takes from a connection. -/
def taken (id : ConnectionId) (r : Registry) : Action → List Message
  | .use id' .receive => if id' = id then ((r.handle? id).bind (·.receive.2)).toList else []
  | .use id' .receiveAll => if id' = id then ((r.handle? id).map (·.receiveAll.2)).getD [] else []
  | .readStream s _ =>
    if s.connection = id ∧ s.isOver = false then (s.takeMessages r).2.getD [] else []
  | _ => []

/-- The messages that were received from a connection in a run, in their order. -/
def received (r : Registry) (id : ConnectionId) (actions : List Action) : List Message :=
  (r.along (taken id) actions).flatten

variable {r : Registry} {salt : ConnectionId} {n : Nat} {a : Action} {id : ConnectionId}
  {c : Connection} {s : Stream}

/-! ## The stream that serves a connection -/

/-- The cleanup of a stream gives no message to anybody. -/
theorem moved_cleanUp (hr : r.Stored) (hc : r.handle? s.connection = some c) :
    ∃ d, (s.cleanUp r).handle? s.connection = some d ∧ c.Moved [] [] d := by
  have hid : c.dropReceiver.id = s.connection := hr.keyed s.connection c hc
  have hletGo : (s.letGo r).handle? s.connection = some c.dropReceiver := by
    rw [Stream.letGo, hc]
    exact (handle?_put ..).trans (if_pos hid.symm)
  obtain ⟨hstored, -⟩ := letGo_keeps hr s
  have hclose := touches_closeOne.handle _ s.connection s.connection hstored
  rw [if_pos rfl] at hclose
  rw [Stream.cleanUp_eq, hclose]
  cases hget : (s.letGo r).get? s.connection with
  | none => exact ⟨_, hletGo, c.moved_dropReceiver⟩
  | some d =>
    obtain rfl := Option.some.inj (hletGo.symm.trans (get?_eq_some_iff.1 hget).2)
    exact ⟨_, rfl, c.moved_dropReceiver.trans Connection.Spared.closed.moved⟩

/-- Taking messages moves those that are returned. -/
theorem moved_takeMessages (hr : r.Stored) (hc : r.handle? s.connection = some c) :
    ∃ d, (s.takeMessages r).1.handle? s.connection = some d ∧
      c.Moved [] ((s.takeMessages r).2.getD []) d := by
  have hid : c.id = s.connection := hr.keyed s.connection c hc
  unfold Stream.takeMessages
  rw [hc]
  dsimp only
  split
  · exact ⟨_, (handle?_put ..).trans (if_pos hid.symm), c.moved_receiveAll⟩
  · split
    · exact ⟨c, hc, c.moved_self⟩
    · exact ⟨_, (handle?_put ..).trans (if_pos hid.symm), c.moved_takeCloseSignal⟩

/-- Reading a stream moves the messages that its text shows. -/
theorem moved_read (hr : r.Stored) (hc : r.handle? s.connection = some c) (now : Nat) :
    ∃ d, (s.read r now).registry.handle? s.connection = some d ∧
      c.Moved [] (r.taken s.connection (.readStream s now)) d := by
  obtain ⟨d, hd, hmoved⟩ := moved_takeMessages hr hc
  have hstored := (revised_takeMessages hr s).stored hr
  cases hover : s.isOver with
  | true =>
    have htaken : r.taken s.connection (.readStream s now) = [] :=
      if_neg fun hboth => absurd hover (by rw [hboth.2]; exact Bool.false_ne_true)
    rw [Stream.read, if_pos hover, htaken]
    exact ⟨c, hc, c.moved_self⟩
  | false =>
    have htaken : r.taken s.connection (.readStream s now) = (s.takeMessages r).2.getD [] :=
      if_pos ⟨rfl, hover⟩
    rw [htaken, Stream.read, hover, if_neg Bool.false_ne_true]
    rcases htake : s.takeMessages r with ⟨r', _ | messages⟩
    · rw [htake] at hd hmoved hstored
      obtain ⟨e, he, hdropped⟩ := moved_cleanUp hstored hd
      exact ⟨e, he, hmoved.trans hdropped⟩
    · rw [htake] at hd hmoved
      refine ⟨d, ?_, hmoved⟩
      dsimp only
      split
      · exact hd
      · split <;> exact hd

/-! ## One action -/

/-- The one who holds the receiving end of a connection uses it. -/
theorem moved_use (hr : r.Stored) (hc : r.handle? id = some c) (u : Connection.Use) :
    ∃ d, (r.act (.use id u)).handle? id = some d ∧
      c.Moved (r.accepted id (.use id u)) (r.taken id (.use id u)) d := by
  have hput : (r.act (.use id u)).handle? id = some (c.use u) := by
    simp only [Registry.act, hc, handle?_put, (c.twins_use u).id, hr.keyed id c hc, if_true]
  refine ⟨c.use u, hput, ?_⟩
  cases u with
  | send m =>
    simp only [accepted, hc, true_and, Option.any_some]
    exact c.moved_trySend m
  | close => exact Connection.Spared.closed.moved
  | takeCloseSignal => exact c.moved_takeCloseSignal
  | receive =>
    simp only [taken, hc, if_true, Option.bind_some]
    exact c.moved_receive
  | receiveAll =>
    simp only [taken, hc, if_true, Option.map_some, Option.getD_some]
    exact c.moved_receiveAll
  | dropReceiver => exact c.moved_dropReceiver

/-- What leaves the receiving end alone takes nothing. -/
theorem taken_of_spares (ha : a.spares id = true) : r.taken id a = [] := by
  cases a with
  | use id' u =>
    cases u with
    | receive | receiveAll => exact if_neg (bne_iff_ne.1 ha)
    | send _ | close | takeCloseSignal | dropReceiver => rfl
  | readStream s now => exact if_neg fun hboth => bne_iff_ne.1 ha hboth.1
  | _ => rfl

/-- Whatever is done, messages only move from those that send them to the one that receives them. -/
theorem Numbered.moved_act (h : Numbered salt n r) (hn : n + r.handsOut a ≤ 2 ^ 64)
    (hc : r.handle? id = some c) :
    ∃ d, (r.act a).handle? id = some d ∧ c.Moved (r.accepted id a) (r.taken id a) d := by
  cases ha : a.spares id with
  | true =>
    obtain ⟨d, hd, hspared⟩ := h.spared_act hn hc ha
    rw [taken_of_spares ha]
    exact ⟨d, hd, hspared.moved⟩
  | false =>
    cases a with
    | use id' u =>
      -- what does not spare the connection is about it
      have hid : id' = id := by
        cases u <;> simp_all [Action.spares]
      subst hid
      exact moved_use h.toStored hc u
    | readStream s now =>
      have hid : s.connection = id := by simpa [Action.spares] using ha
      subst hid
      exact moved_read h.toStored hc now
    | dropStream s =>
      have hid : s.connection = id := by simpa [Action.spares] using ha
      subst hid
      show ∃ d, (s.drop r).2.1.handle? s.connection = some d ∧ _
      unfold Stream.drop
      split
      · exact ⟨c, hc, c.moved_self⟩
      · exact moved_cleanUp h.toStored hc
    | _ => cases ha

/-! ## A run -/

/-- Over a run the moves of a connection add up: by induction on the actions. -/
theorem Numbered.moved_run (h : Numbered salt n r) (actions : List Action)
    (hn : n + r.handedOut actions ≤ 2 ^ 64) (hc : r.handle? id = some c) :
    ∃ d, (r.run actions).handle? id = some d ∧
      c.Moved (r.heard id actions) (r.received id actions) d := by
  induction actions generalizing r n c with
  | nil => exact ⟨c, hc, c.moved_self⟩
  | cons a actions ih =>
    rw [handedOut, ← Nat.add_assoc] at hn
    obtain ⟨d, hd, hfirst⟩ := h.moved_act (a := a) (by omega) hc
    obtain ⟨e, he, hrest⟩ := ih (h.act a (by omega)) hn hd
    exact ⟨e, he, hfirst.trans hrest⟩

/-! ## From the start on -/

/-- What is known of a connection after a run. -/
structure Receipted (r : Registry) (id : ConnectionId) (actions : List Action) (c : Connection) :
    Prop where
  /-- Until the receiving end is dropped, nothing is lost, doubled or out of order. -/
  whole : c.hasReceiver = true → r.received id actions ++ c.queue = r.heard id actions
  /-- After that, what was received is still the beginning of what was accepted. -/
  begins : r.received id actions ++ c.queue <+: r.heard id actions
  fits : c.queue.length ≤ c.capacity
  delivered : c.delivered = UInt64.ofNat (r.heard id actions).length

/-- Nothing is taken from a connection that is not known. -/
theorem taken_eq_nil (hid : r.handle? id = none) (a : Action) : r.taken id a = [] := by
  cases a with
  | use id' u => cases u <;> simp [taken, hid]
  | readStream s now =>
    by_cases hboth : s.connection = id ∧ s.isOver = false
    · have hnothing : s.takeMessages r = (r, none) := by
        unfold Stream.takeMessages
        rw [hboth.1, hid]
      show (if s.connection = id ∧ s.isOver = false then (s.takeMessages r).2.getD [] else []) = []
      rw [if_pos hboth, hnothing]
      rfl
    · exact if_neg hboth
  | _ => rfl

/-- A connection that was not known before is new. -/
theorem Numbered.eq_create_of_new (h : Numbered salt n r) (hnone : r.handle? id = none)
    (hc : (r.act a).handle? id = some c) :
    ∃ owner connectedAt capacity, c = Connection.create id owner connectedAt capacity := by
  cases ha : a.isRegister with
  | false =>
    -- only a registration makes a connection known
    obtain ⟨d, hd⟩ := (revised_act h.toStored ha).handle?_of_handle? hc
    rw [hnone] at hd
    cases hd
  | true =>
    cases a with
    | register owner connectedAt capacity =>
      have hc : (r.register owner connectedAt capacity).1.handle? id = some c := hc
      rcases register_cases (h.tight .user) owner connectedAt capacity with
        ⟨-, heq⟩ | ⟨-, user, -, -, heq⟩ | ⟨-, -, heq⟩
      · rw [heq, hnone] at hc
        cases hc
      · rw [heq] at hc
        exact absurd (hnone.symm.trans hc) nofun
      · rw [heq, handle?_enter] at hc
        split at hc
        · next hid => exact ⟨owner, connectedAt, capacity, by rw [hid]; exact (Option.some.inj hc).symm⟩
        · rw [hnone] at hc
          cases hc
    | _ => cases ha

/-- A new connection moves from an empty queue and a counter at zero. -/
theorem receipted_of_moved {d : Connection} {actions : List Action} {owner : Owner}
    {connectedAt : Instant} {capacity : Nat}
    (h : (Connection.create id owner connectedAt capacity).Moved (r.heard id actions)
      (r.received id actions) d) : r.Receipted id actions d where
  whole := h.queue
  begins := h.begins
  fits := by
    rw [h.capacity]
    exact h.fits (Nat.zero_le _)
  delivered := by
    rw [h.delivered]
    exact UInt64.zero_add _

/-- From where a connection is not known on, every run accounts for its messages: by induction on the
actions, up to the one with which it comes. -/
theorem Numbered.receipted_run (h : Numbered salt n r) (actions : List Action)
    (hn : n + r.handedOut actions ≤ 2 ^ 64) (hnone : r.handle? id = none)
    (hc : (r.run actions).handle? id = some c) : r.Receipted id actions c := by
  induction actions generalizing r n with
  | nil => exact absurd (hnone.symm.trans hc) nofun
  | cons a actions ih =>
    rw [handedOut, ← Nat.add_assoc] at hn
    have hact := h.act a (by omega)
    -- a connection that is not known yet hears nothing and takes nothing
    have hheard : r.heard id (a :: actions) = (r.act a).heard id actions := by
      show r.accepted id a ++ _ = _
      rw [accepted_eq_nil hnone]
      rfl
    have hreceived : r.received id (a :: actions) = (r.act a).received id actions := by
      show r.taken id a ++ _ = _
      rw [taken_eq_nil hnone]
      rfl
    have hrest : (r.act a).Receipted id actions c := by
      cases hd : (r.act a).handle? id with
      | none => exact ih hact hn hd hc
      | some d =>
        -- it comes with this action, and from here on only messages move
        obtain ⟨owner, connectedAt, capacity, rfl⟩ := h.eq_create_of_new hnone hd
        obtain ⟨e, he, hmoved⟩ := hact.moved_run actions hn hd
        obtain rfl := Option.some.inj (he.symm.trans hc)
        exact receipted_of_moved hmoved
    obtain ⟨hwhole, hbegins, hfits, hdelivered⟩ := hrest
    rw [← hheard] at hwhole hbegins hdelivered
    rw [← hreceived] at hwhole hbegins
    exact ⟨hwhole, hbegins, hfits, hdelivered⟩

/-! ## What is reported -/

/-- What those who send messages are told. -/
structure Reports (r : Registry) : Prop where
  /-- A send is answered with the number of connections on which its message is accepted. -/
  send : ∀ a m s n, r.send a m = .ok (s, n) →
    n = r.registered.toList.countP fun id => !(r.accepted id (.execute (.send a m))).isEmpty
  /-- A message that is refused is accepted nowhere. -/
  refused : ∀ a m e id, r.send a m = .error e → r.accepted id (.execute (.send a m)) = []
  /-- One who holds a connection is told whether it is accepted. -/
  offer : ∀ id c m, r.handle? id = some c →
    r.accepted id (.use id (.send m)) = if (c.trySend m).2 then [m] else []

/-- A registry whose indexes agree with its roster reports what it does. -/
theorem reports_of_aligned (h : r.Aligned) : r.Reports := by
  refine ⟨?send, ?refused, ?offer⟩
  case send =>
    intro a m s n hsend
    obtain ⟨hcheck, hdeliver⟩ := send_eq_ok_iff.1 hsend
    have hdeliver : (r.deliver (r.audience a) m).2 = n := congrArg Prod.snd hdeliver
    -- a message is accepted where the audience reaches and there is room
    have hsame : ∀ id, (!(r.accepted id (.execute (.send a m))).isEmpty) =
        (r.get? id).any fun c => a.reaches c && c.accepts := by
      intro id
      simp only [accepted, hcheck, true_and]
      split
      · next hany => rw [hany]; rfl
      · next hany => rw [Bool.eq_false_iff.2 hany]; rfl
    rw [← hdeliver, snd_deliver_audience h, roster, ← countP_ids]
    simp only [hsame]
  case refused =>
    intro a m e id hsend
    refine if_neg fun hboth => ?_
    rw [send_eq_error_iff.1 hsend] at hboth
    cases hboth.1
  case offer =>
    intro id c m hc
    simp only [accepted, hc, true_and, Option.any_some, c.snd_trySend]

end Registry

end PushMesh
