import PushMesh.Proofs.Registry.Clearing
import PushMesh.Proofs.Registry.Distinct
import PushMesh.Proofs.Registry.Refusal

/-!
# What becomes of each connection

`Sent` says what a send does to every connection of a registry, and `Closed` the same of a disconnect.
Both hold wherever the places agree in which a registry keeps what it knows (`sent_deliver`,
`closed_closeIds`), so they hold in every registry that can come about (`sent_send`).
-/

namespace PushMesh

/-! ## One connection -/

namespace Connection

variable {c : Connection} {m : Message}

/-- A connection accepts if it is open, has a receiving end and room in its queue. -/
theorem accepts_iff : c.accepts = true ↔
    c.isOpen = true ∧ c.hasReceiver = true ∧ c.queue.length < c.capacity := by
  simp [accepts, and_assoc]

/-- A message that is accepted is queued and counted. -/
theorem trySend_of_accepts (h : c.accepts = true) : (c.trySend m).1 =
    { c with queue := c.queue ++ [m], delivered := c.delivered + 1 } := by
  obtain ⟨hopen, hreceiver, hroom⟩ := accepts_iff.1 h
  simp [trySend, hopen, hreceiver, hroom]

/-- A connection that is found without its receiving end is closed for good. -/
theorem trySend_of_lost (hopen : c.isOpen = true) (hreceiver : c.hasReceiver = false) :
    (c.trySend m).1 = { c with isOpen := false } := by
  simp [trySend, hopen, hreceiver]

/-- Neither a closed connection nor one without room is changed. -/
theorem trySend_of_full (h : c.isOpen = false ∨ c.hasReceiver = true ∧ c.capacity ≤ c.queue.length) :
    (c.trySend m).1 = c := by
  unfold trySend
  rcases h with hclosed | ⟨hreceiver, hfull⟩
  · simp [hclosed]
  · cases c.isOpen <;> simp [hreceiver, Nat.not_lt.2 hfull]

end Connection

namespace Registry

variable {r s : Registry} {m : Message} {n : Nat}

/-! ## Sending -/

/-- What a send does to the connections of a registry, which number it answers, and that it changes
nothing else. -/
structure Sent (a : Audience) (m : Message) (r s : Registry) (n : Nat) : Prop where
  /-- Where there is room, the message is put at the end of the queue, once. -/
  accepted : ∀ id c, r.get? id = some c → a.reaches c = true →
    c.isOpen = true → c.hasReceiver = true → c.queue.length < c.capacity →
    s.handle? id = some { c with queue := c.queue ++ [m], delivered := c.delivered + 1 }
  /-- A connection whose receiving end is gone is found to be dead. -/
  lost : ∀ id c, r.get? id = some c → a.reaches c = true →
    c.isOpen = true → c.hasReceiver = false → s.handle? id = some { c with isOpen := false }
  full : ∀ id c, r.get? id = some c → a.reaches c = true →
    c.isOpen = false ∨ c.hasReceiver = true ∧ c.capacity ≤ c.queue.length → s.handle? id = some c
  others : ∀ id, (∀ c, r.get? id = some c → a.reaches c = false) → s.handle? id = r.handle? id
  /-- Ids, indexes, limits and counters are what they were, but for the messages counted. -/
  frame : s = { r with pool := s.pool, delivered := r.delivered + n }
  count : n = r.roster.countP fun c =>
    a.reaches c && (c.isOpen && c.hasReceiver && decide (c.queue.length < c.capacity))

/-- Going through connections to offer them a message changes nothing but connections. -/
theorem each_sendOne_frame (r : Registry) (ids : List ConnectionId) (m : Message) :
    (each (·.sendOne · m) r ids).1 = { r with pool := (each (·.sendOne · m) r ids).1.pool } := by
  refine each_induction (P := fun s => s = { r with pool := s.pool }) ?_ r ids rfl
  intro s id hs
  unfold sendOne
  cases s.get? id with
  | none => exact hs
  | some c => exact congrArg (fun t : Registry => { t with pool := (s.put (c.trySend m).1).pool }) hs

/-- A send to an audience, connection by connection. -/
theorem sent_deliver (h : r.Aligned) (a : Audience) (m : Message) :
    Sent a m r (r.deliver (r.audience a) m).1 (r.deliver (r.audience a) m).2 := by
  have hhandle := handle?_deliver h.toStored (r.audience a) m
  -- every connection that the audience reaches is offered the message once
  have htarget : ∀ id c, r.get? id = some c → a.reaches c = true →
      (r.deliver (r.audience a) m).1.handle? id = some (c.trySend m).1 := by
    intro id c hc hreaches
    rw [hhandle, if_pos ((mem_audience_iff h).2 ⟨c, hc, hreaches⟩), hc]
    rfl
  constructor
  · intro id c hc hreaches hopen hreceiver hroom
    rw [htarget id c hc hreaches,
      Connection.trySend_of_accepts (Connection.accepts_iff.2 ⟨hopen, hreceiver, hroom⟩)]
  · intro id c hc hreaches hopen hreceiver
    rw [htarget id c hc hreaches, Connection.trySend_of_lost hopen hreceiver]
  · intro id c hc hreaches hfull
    rw [htarget id c hc hreaches, Connection.trySend_of_full hfull]
  · intro id hnone
    rw [hhandle, if_neg]
    intro hin
    obtain ⟨c, hc, hreaches⟩ := (mem_audience_iff h).1 hin
    rw [hnone c hc] at hreaches
    cases hreaches
  · have hframe := each_sendOne_frame r (r.audience a).toList m
    rw [deliver_eq]
    dsimp only
    rw [hframe]
  · exact snd_deliver_audience h a m

/-- A send that is not refused reaches its audience. -/
theorem send_eq_deliver {a : Audience} (hkeys : ∀ k ∈ a.given, Text.isBlankText k = false)
    (hm : m.isWellFormed = true) : r.send a m = .ok (r.deliver (r.audience a) m) := by
  have hcheck : a.check = .ok () := Audience.check_eq_ok_iff.2 hkeys
  have hmessage : m.check = .ok () := by rw [Message.check, hm, if_pos rfl]
  rw [send, hcheck, hmessage]
  rfl

/-- A list of keys reaches the connections of its members, in whatever order and how often they
stand in it. -/
theorem audience_keys_congr (r : Registry) (kind : KeyKind) {ks ks' : List String}
    (h : ∀ k, k ∈ ks' ↔ k ∈ ks) : r.audience (.keys kind ks') = r.audience (.keys kind ks) := by
  apply Ascending.ext_mem
  intro id
  rw [audience, audience, Index.mem_idsOfAny, Index.mem_idsOfAny]
  simp only [h]

/-- A list with one key reaches the connections of that key. -/
theorem audience_keys_singleton (r : Registry) (kind : KeyKind) (k : String) :
    r.audience (.keys kind [k]) = r.audience (.key kind k) := by
  apply Ascending.ext_mem
  intro id
  rw [audience, audience, Index.mem_idsOfAny]
  simp

/-- **What a send does.** In every registry that can come about, a send with a well-formed message and
no blank key is run. Each registered connection that it is for and that has room gets the message once,
at the end of its queue; each that has lost its receiving end is closed; nothing else changes; and the
answer is the number of the former. A list with a single key is as good as that key, and neither order
nor repetitions matter in a list. -/
theorem sent_send (hr : r.Reachable) (a : Audience) (hm : m.isWellFormed = true)
    (hkeys : ∀ k ∈ a.given, Text.isBlankText k = false) :
    ∃ s n, r.send a m = .ok (s, n) ∧ Sent a m r s n ∧
      (∀ kind k, a = .keys kind [k] → r.send (.key kind k) m = .ok (s, n)) ∧
      ∀ kind ks ks', a = .keys kind ks → (∀ k, k ∈ ks' ↔ k ∈ ks) →
        r.send (.keys kind ks') m = .ok (s, n) := by
  refine ⟨_, _, send_eq_deliver hkeys hm, sent_deliver hr.aligned a m, ?_, ?_⟩
  · rintro kind k rfl
    rw [audience_keys_singleton]
    exact send_eq_deliver (a := .key kind k) hkeys hm
  · rintro kind ks ks' rfl hsame
    rw [← audience_keys_congr r kind hsame]
    exact send_eq_deliver (a := .keys kind ks') (fun k hk => hkeys k ((hsame k).1 hk)) hm

/-- A run that leaves a connection with room, one without, one that has lost its receiving end, one
that is not for the tags below, and one that has left. -/
def mixedRun : List Action :=
  [.register ⟨some "u", none, ["x", "y"]⟩ default 1, .register ⟨none, some "t", ["y"]⟩ default 0,
    .register ⟨some "u", some "t", ["x"]⟩ default 2, .register ⟨none, none, ["z"]⟩ default 2,
    .register ⟨none, none, ["x"]⟩ default 2, .use (saltOf 7 + 3) .dropReceiver,
    .unregister (saltOf 7 + 5)]

/-- A send by tags that overlap and are repeated. -/
theorem sent_send_mixed :
    let r := (create "a" ⟨8, 8⟩ (saltOf 7)).run mixedRun
    let a : Audience := .keys .tag ["y", "x", "y"]
    let m : Message := ⟨some "note", .null, none⟩
    r.Reachable ∧ m.isWellFormed = true ∧ (∀ k ∈ a.given, Text.isBlankText k = false) ∧
      ∃ s n, r.send a m = .ok (s, n) ∧ Sent a m r s n ∧
        (∀ kind k, a = .keys kind [k] → r.send (.key kind k) m = .ok (s, n)) ∧
        ∀ kind ks ks', a = .keys kind ks → (∀ k, k ∈ ks' ↔ k ∈ ks) →
          r.send (.keys kind ks') m = .ok (s, n) := by
  intro r a m
  have hids : (create "a" ⟨8, 8⟩ (saltOf 7)).handedOut mixedRun ≤ 2 ^ 64 :=
    Nat.le_trans (handedOut_le_length _ mixedRun) (by decide)
  have hr : r.Reachable := ⟨"a", ⟨8, 8⟩, saltOf 7, mixedRun, hids, rfl⟩
  have hm : m.isWellFormed = true := by decide
  have hkeys : ∀ k ∈ a.given, Text.isBlankText k = false := by decide
  exact ⟨hr, hm, hkeys, sent_send hr a hm hkeys⟩

/-! ## Closing -/

/-- What a disconnect does to the connections of a registry, and which number it answers. -/
structure Closed (a : Closing) (r s : Registry) (n : Nat) : Prop where
  /-- What is registered and covered is closed, with a signal to its receiving end, and leaves. -/
  closed : ∀ id c, r.get? id = some c → a.covers c = true →
    s.handle? id = some { c with isOpen := false, closeSignal := true } ∧ s.get? id = none
  /-- Everything else stays as it is, with its queue and its count, and stays registered if it is. -/
  others : ∀ id, (∀ c, r.get? id = some c → a.covers c = false) →
    s.handle? id = r.handle? id ∧ s.get? id = r.get? id
  aligned : s.Aligned
  count : n = r.roster.countP a.covers

/-- A disconnect that is not refused closes exactly what it covers. -/
theorem closed_closeIds (h : r.Aligned) (a : Closing) :
    Closed a r (r.closeIds (r.closing a).toList).1 (r.closeIds (r.closing a).toList).2 := by
  have hcleared := cleared_closeIds (p := a.covers) h fun _ _ hc => mem_closing_iff h a hc
  exact ⟨hcleared.closed, hcleared.others, hcleared.aligned, hcleared.count⟩

/-- What is closed depends on which connections are meant, not on how that is put. -/
theorem Closed.congr {a b : Closing} (h : Closed b r s n) (hcovers : ∀ c, b.covers c = a.covers c) :
    Closed a r s n where
  closed id c hc hcovered := h.closed id c hc ((hcovers c).trans hcovered)
  others id hnone := h.others id fun c hc => (hcovers c).trans (hnone c hc)
  aligned := h.aligned
  count := by
    rw [h.count]
    congr 1
    funext c
    exact hcovers c

/-- Which of the registered connections an action takes out and closes: a disconnect that is not refused
those that it covers, a sweep those that are dead, and the closing of everything all of them. -/
def Action.closes : Action → Connection → Bool
  | .execute (.disconnect a), c => a.given.all (!Text.isBlankText ·) && a.covers c
  | .sweep, c => !c.isOpen || !c.hasReceiver
  | .closeAll, _ => true
  | _, _ => false

/-- What an action closes is found closed, with a signal to its receiving end, and is registered no
longer. -/
theorem Aligned.closed_act (h : r.Aligned) {a : Action} {id : ConnectionId} {c : Connection}
    (hc : r.get? id = some c) (ha : a.closes c = true) :
    (r.act a).handle? id = some { c with isOpen := false, closeSignal := true } ∧
      (r.act a).get? id = none := by
  cases a with
  | execute op =>
    cases op with
    | disconnect a =>
      obtain ⟨hgiven, hcovers⟩ := Bool.and_eq_true_iff.1 ha
      have hcheck : (Operation.disconnect a).check = .ok () :=
        Closing.check_eq_ok_iff.2 (by simpa using hgiven)
      rw [act, fst_respond, if_pos hcheck]
      exact (closed_closeIds h a).closed id c hc hcovers
    | _ => cases ha
  | sweep => exact h.clears.sweep.closed id c hc ha
  | closeAll => exact h.clears.closeAll.closed id c hc ha
  | _ => cases ha

end Registry

end PushMesh
