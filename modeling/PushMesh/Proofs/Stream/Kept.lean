import PushMesh.Proofs.Stream.Poll

/-!
# What a stream tells its client

`Tap.Kept` relates what a stream has given out to what was accepted on its connection: the messages
were told in their order, and those that were not wait; once the stream is over, its connection is
registered no longer. Polls and the end of the stream keep that (`Kept.poll`, `Kept.drop`), and so
does everything that leaves the receiving end alone (`Kept.run`).

A stream whose connection is closed is `Ending`: every poll takes it nearer to its end, with at most
one event on the way (`Ending.poll`).
-/

namespace PushMesh.Tap

open Registry

variable {t : Tap} {r : Registry} {heard : List Message} {salt : ConnectionId} {n : Nat}

/-- The events of a stream that has passed on messages. -/
def script (t : Tap) (messages : List Message) : List Piece :=
  .connected t.connection t.nodeId :: messages.map .message

/-- Whether a stream has told exactly these messages. -/
def Tells (t : Tap) (messages : List Message) : Prop :=
  t.isFresh = true ∧ t.events = [] ∧ messages = [] ∨
    t.isFresh = false ∧ t.events = t.script messages

/-- A stream that agrees with its connection, on which the messages `heard` were accepted. -/
structure Kept (r : Registry) (heard : List Message) (t : Tap) : Prop where
  known : (r.handle? t.connection).isSome = true
  /-- What was accepted has been told or waits. -/
  running : ∀ c, r.handle? t.connection = some c → t.isOver = false →
    c.Attended ∧ ∃ taken, heard = taken ++ c.queue ∧ t.Tells taken
  /-- Of what was accepted the beginning has been told, and no more will be. -/
  ended : t.isOver = true → t.connection ∉ r.registered ∧ ∃ taken, taken <+: heard ∧ t.Tells taken

/-- A stream whose task runs is kept when what it took out and what is still queued make up what was
heard. -/
theorem kept_of_running {c : Connection} {taken : List Message} (hover : t.isOver = false)
    (hc : r.handle? t.connection = some c) (ha : c.Attended) (hheard : heard = taken ++ c.queue)
    (htells : t.Tells taken) : t.Kept r heard where
  known := Option.isSome_of_eq_some hc
  running c' hc' _ := by
    obtain rfl := Option.some.inj (hc.symm.trans hc')
    exact ⟨ha, taken, hheard, htells⟩
  ended hover' := by
    rw [hover] at hover'
    cases hover'

/-- What a stream has told is the beginning of what was accepted. -/
theorem Kept.tells (h : t.Kept r heard) : ∃ taken, taken <+: heard ∧ t.Tells taken := by
  cases hover : t.isOver with
  | true => exact (h.ended hover).2
  | false =>
    obtain ⟨c, hc⟩ := Option.isSome_iff_exists.1 h.known
    obtain ⟨-, taken, rfl, htells⟩ := h.running c hc hover
    exact ⟨taken, List.prefix_append taken c.queue, htells⟩

/-! ## What others do -/

/-- Where its receiving end is left alone, a stream stays in step with its connection. -/
theorem Kept.act (h : t.Kept r heard) (hr : Numbered salt n r) {a : Registry.Action}
    (hn : n + r.handsOut a ≤ 2 ^ 64) (ha : a.spares t.connection = true) :
    t.Kept (r.act a) (heard ++ r.accepted t.connection a) := by
  obtain ⟨c, hc⟩ := Option.isSome_iff_exists.1 h.known
  obtain ⟨d, hd, hfed⟩ := hr.fed_act hn hc ha
  cases hover : t.isOver with
  | false =>
    obtain ⟨hattended, taken, rfl, htells⟩ := h.running c hc hover
    refine kept_of_running hover hd (hfed.attended hattended) ?_ htells
    rw [hfed.queue, List.append_assoc]
  | true =>
    obtain ⟨hgone, taken, htaken, htells⟩ := h.ended hover
    refine ⟨Option.isSome_of_eq_some hd, fun _ _ hover' => ?_, fun _ => ⟨?_, ?_⟩⟩
    · rw [hover] at hover'
      cases hover'
    · exact hr.not_mem_registered_act hn h.known hgone
    · exact ⟨taken, htaken.trans (List.prefix_append _ _), htells⟩

/-- A stream stays kept through a run of others: what they send it joins the end of its queue. -/
theorem Kept.run (h : t.Kept r heard) (hr : Numbered salt n r) {actions : List Registry.Action}
    (hn : n + r.handedOut actions ≤ 2 ^ 64) (ha : ∀ a ∈ actions, a.spares t.connection = true) :
    t.Kept (r.run actions) (heard ++ r.heard t.connection actions) := by
  induction actions generalizing r n heard with
  | nil =>
    show t.Kept r (heard ++ [])
    rwa [List.append_nil]
  | cons a actions ih =>
    rw [handedOut, ← Nat.add_assoc] at hn
    have hfirst := h.act hr (by omega) (ha a List.mem_cons_self)
    have hrest := ih hfirst (hr.act a (by omega)) hn fun b hb => ha b (List.mem_cons_of_mem a hb)
    rw [List.append_assoc] at hrest
    exact hrest

/-! ## What the stream does -/

/-- A stream that is over keeps what it has told. -/
theorem kept_cleanUp (hr : r.Stored) (hknown : (r.handle? t.connection).isSome = true)
    (htells : ∃ taken, taken <+: heard ∧ t.Tells taken) :
    Kept (t.cleanUp r) heard { t with isOver := true } where
  known := (revised_cleanUp hr t.toStream).handle?_isSome hknown
  running _ _ hover := by cases hover
  ended _ := ⟨fun hid => ((registered_cleanUp hr).1 hid).2 rfl, htells⟩

/-- The task of a stream that runs is ended, and its cleanup runs then. -/
theorem drop_of_running (hover : t.isOver = false) (r : Registry) :
    t.drop r = ({ t with isOver := true }, t.cleanUp r) := by
  simp [drop, Stream.drop, hover]

/-- A task that has ended is not cleaned up again. -/
theorem drop_of_over (hover : t.isOver = true) (r : Registry) : t.drop r = (t, r) := by
  simp [drop, Stream.drop, hover]

/-- Dropping a stream leaves it kept, and over. -/
theorem Kept.drop (h : t.Kept r heard) (hr : r.Stored) : (t.drop r).1.Kept (t.drop r).2 heard := by
  cases hover : t.isOver with
  | true =>
    rw [drop_of_over hover]
    exact h
  | false =>
    rw [drop_of_running hover]
    exact kept_cleanUp hr h.known h.tells

/-- A drop does not poll. -/
theorem isFresh_drop (t : Tap) (r : Registry) : (t.drop r).1.isFresh = t.isFresh := by
  cases hover : t.isOver with
  | true => rw [drop_of_over hover]
  | false => rw [drop_of_running hover]

/-- An event that is given out is the last of the events. -/
theorem events_give {p : Piece} (hp : p.isEvent = true) (now : Nat) :
    (t.give p now).events = t.events ++ [p] := by
  rw [events, give, List.filter_append, List.filter_singleton, hp]
  rfl

/-- The stream that two taps have in common, whatever has become of it. -/
structure Same (t u : Tap) : Prop where
  connection : u.connection = t.connection
  nodeId : u.nodeId = t.nodeId
  patience : u.patience = t.patience

theorem Same.trans {u v : Tap} (h : Same t u) (h' : Same u v) : Same t v :=
  ⟨h'.connection.trans h.connection, h'.nodeId.trans h.nodeId, h'.patience.trans h.patience⟩

/-- A drop keeps the connection and the patience. -/
theorem same_drop (t : Tap) (r : Registry) : Same t (t.drop r).1 := by
  cases hover : t.isOver with
  | true =>
    rw [drop_of_over hover]
    exact ⟨rfl, rfl, rfl⟩
  | false =>
    rw [drop_of_running hover]
    exact ⟨rfl, rfl, rfl⟩

/-- Waiting for the next comment keeps the connection and the patience. -/
theorem same_wait (t : Tap) (now : Nat) : Same t (t.wait now) := by
  unfold wait
  split <;> exact ⟨rfl, rfl, rfl⟩

/-- A poll keeps the connection and the patience, whatever it gives out. -/
theorem same_poll (t : Tap) (r : Registry) (endFirst : Bool) (now : Nat) :
    Same t (t.poll r endFirst now).1 := by
  rw [Tap.poll]
  cases t.move r endFirst with
  | none | greet | pass => exact ⟨rfl, rfl, rfl⟩
  | quit | wake => exact same_drop t _
  | wait => exact same_wait t now

/-- Waiting gives out no event. -/
theorem wait_silent (t : Tap) (now : Nat) : (t.wait now).events = t.events ∧
    (t.wait now).isFresh = t.isFresh ∧ (t.wait now).isOver = t.isOver := by
  unfold wait
  split
  · refine ⟨?_, rfl, rfl⟩
    rw [events, List.filter_append]
    exact List.append_nil _
  · exact ⟨rfl, rfl, rfl⟩

/-- A poll keeps a stream in step with its connection. -/
theorem Kept.poll (h : t.Kept r heard) (hr : r.Stored) (endFirst : Bool) (now : Nat) :
    (t.poll r endFirst now).1.Kept (t.poll r endFirst now).2 heard := by
  obtain ⟨c, hc⟩ := Option.isSome_iff_exists.1 h.known
  have hid : c.id = t.connection := hr.keyed _ c hc
  have hmoves := moves_move hc (fun hover => (h.running c hc hover).1) endFirst
  rw [Tap.poll]
  -- by cases on the move that the poll comes to
  generalize t.move r endFirst = move at hmoves
  cases hmoves with
  | none => exact h
  | greet hover hfresh =>
    -- the first event of a stream is its greeting
    obtain ⟨hattended, taken, hheard, htells⟩ := h.running c hc hover
    refine kept_of_running hover hc hattended hheard (.inr ⟨rfl, ?_⟩)
    rcases htells with ⟨-, hnone, rfl⟩ | ⟨hfresh', -⟩
    · rw [events_give rfl, hnone]
      rfl
    · rw [hfresh] at hfresh'
      cases hfresh'
  | quit => exact h.drop hr
  | wake hover =>
    dsimp only
    -- the close signal was taken, so the stream ends and cleans up
    rw [drop_of_running hover]
    apply kept_cleanUp (hr.put _) _ h.tells
    rw [handle?_put]
    split
    · rfl
    · exact h.known
  | @pass m rest hover hfresh halive hqueue =>
    obtain ⟨hattended, taken, hheard, htells⟩ := h.running c hc hover
    have hreceive : c.receive.1 = { c with queue := rest } := by
      rw [Connection.receive, hqueue]
    have hafter : (r.put c.receive.1).handle? t.connection = some { c with queue := rest } := by
      rw [hreceive, handle?_put, if_pos hid.symm]
    -- the message that is passed on was the first of the queue
    have htaken : heard = taken ++ [m] ++ rest := by
      rw [hheard, hqueue, List.append_assoc]
      rfl
    refine kept_of_running hover hafter ⟨hattended.hasReceiver, hattended.signal⟩ htaken
      (.inr ⟨rfl, ?_⟩)
    rcases htells with ⟨hfresh', -⟩ | ⟨-, htold⟩
    · rw [hfresh] at hfresh'
      cases hfresh'
    · rw [events_give rfl, htold, script, script, List.map_append]
      rfl
  | wait hover hfresh hopen hqueue =>
    obtain ⟨hattended, taken, hheard, htells⟩ := h.running c hc hover
    -- a stream that waits gives out comments at most, which are no events
    obtain ⟨hevents, hfresh', hover'⟩ := t.wait_silent now
    have hsame := t.same_wait now
    refine kept_of_running (hover'.trans hover) (hsame.connection ▸ hc) hattended hheard ?_
    rwa [Tells, script, hevents, hsame.connection, hsame.nodeId, hfresh']

/-- The first poll of a stream that is not over takes its freshness, and nothing gives it back. -/
theorem isFresh_poll (t : Tap) (r : Registry) (endFirst : Bool) (now : Nat) :
    (t.poll r endFirst now).1.isFresh = (t.isFresh && t.isOver) := by
  cases hover : t.isOver with
  | true => rw [poll_of_over hover, Bool.and_true]
  | false =>
    rw [Bool.and_false]
    cases hfresh : t.isFresh with
    | true =>
      have hgreet : t.move r endFirst = .greet := by simp [move, hover, hfresh]
      rw [Tap.poll, hgreet]
      rfl
    | false =>
      rw [Tap.poll]
      cases t.move r endFirst with
      | none => exact hfresh
      | greet | pass => rfl
      | quit | wake => exact (t.isFresh_drop _).trans hfresh
      | wait => exact (t.wait_silent now).2.1.trans hfresh

/-! ## How a stream ends -/

/-- The number of polls after which a stream whose connection is closed is over. -/
def due (t : Tap) : Nat :=
  if t.isOver then 0 else if t.isPaused && !t.isFresh then 1 else 2

/-- A stream that is over or whose connection is closed. -/
def Ending (r : Registry) (t : Tap) : Prop :=
  t.isOver = true ∨ ∃ c, r.handle? t.connection = some c ∧ c.isOpen = false

/-- A stream that has come nearer to its end by some polls, with one event at most on the way. -/
structure Nearer (polls : Nat) (t u : Tap) : Prop where
  told : t.told <+: u.told
  due : u.due ≤ t.due - polls
  length : u.told.length + (u.due - 1) ≤ t.told.length + (t.due - 1)

/-- No stream needs more than two polls to be over. -/
theorem due_le (t : Tap) : t.due ≤ 2 := by
  unfold due
  split
  · exact Nat.zero_le 2
  · split <;> decide

/-- A stream that is over needs none. -/
theorem due_of_over (hover : t.isOver = true) : t.due = 0 := if_pos hover

/-- Only a stream that is over needs none. -/
theorem isOver_of_due (h : t.due = 0) : t.isOver = true := by
  by_contra hover
  rw [due, if_neg hover] at h
  split at h <;> cases h

theorem nearer_self (t : Tap) : Nearer 0 t t :=
  ⟨List.prefix_refl _, Nat.le_refl _, Nat.le_refl _⟩

theorem Nearer.trans {u v : Tap} {k l : Nat} (h : Nearer k t u) (h' : Nearer l u v) :
    Nearer (k + l) t v := by
  refine ⟨h.told.trans h'.told, ?_, Nat.le_trans h'.length h.length⟩
  have := h.due
  have := h'.due
  omega

/-- A stream that is over and has told nothing more is as near as need be. -/
theorem nearer_of_over {u : Tap} (hover : u.isOver = true) (htold : u.told = t.told) (k : Nat) :
    Nearer k t u := by
  refine ⟨htold ▸ List.prefix_refl _, ?_, ?_⟩
  · rw [due_of_over hover]
    exact Nat.zero_le _
  · rw [due_of_over hover, htold]
    exact Nat.le_add_right _ _

/-- Giving out a piece where two polls are due leaves at most one. -/
theorem nearer_give (hdue : t.due = 2) (p : Piece) (now : Nat) : Nearer 1 t (t.give p now) := by
  have hone : (t.give p now).due ≤ 1 := by
    unfold due
    split
    · exact Nat.zero_le 1
    · exact Nat.le_refl 1
  refine ⟨List.prefix_append _ _, by omega, ?_⟩
  have hlength : (t.give p now).told.length = t.told.length + 1 := List.length_append
  omega

/-- A dropped stream is over. -/
theorem isOver_drop (t : Tap) (r : Registry) : (t.drop r).1.isOver = true := by
  cases hover : t.isOver with
  | true => rwa [drop_of_over hover]
  | false => rw [drop_of_running hover]

/-- A drop tells the reader nothing. -/
theorem told_drop (t : Tap) (r : Registry) : (t.drop r).1.told = t.told := by
  cases hover : t.isOver with
  | true => rw [drop_of_over hover]
  | false => rw [drop_of_running hover]

/-- Each poll takes a stream that ends nearer to its end. -/
theorem Ending.poll (he : t.Ending r) (h : t.Kept r heard) (hr : r.Stored) (endFirst : Bool)
    (now : Nat) :
    (t.poll r endFirst now).1.Ending (t.poll r endFirst now).2 ∧
      Nearer 1 t (t.poll r endFirst now).1 := by
  obtain ⟨c, hc⟩ := Option.isSome_iff_exists.1 h.known
  have hid : c.id = t.connection := hr.keyed _ c hc
  have hclosed : t.isOver = false → c.isOpen = false := by
    intro hover
    rcases he with hover' | ⟨c', hc', hclosed⟩
    · rw [hover] at hover'
      cases hover'
    · obtain rfl := Option.some.inj (hc.symm.trans hc')
      exact hclosed
  have hmoves := moves_move hc (fun hover => (h.running c hc hover).1) endFirst
  rw [Tap.poll]
  generalize t.move r endFirst = move at hmoves
  cases hmoves with
  | none hover => exact ⟨.inl hover, nearer_of_over hover rfl 1⟩
  | greet hover hfresh =>
    have hdue : t.due = 2 := by simp [due, hover, hfresh]
    exact ⟨.inr ⟨c, hc, hclosed hover⟩, nearer_give hdue _ now⟩
  | quit => exact ⟨.inl (t.isOver_drop r), nearer_of_over (t.isOver_drop r) (t.told_drop r) 1⟩
  | wake => exact ⟨.inl (t.isOver_drop _), nearer_of_over (t.isOver_drop _) (t.told_drop _) 1⟩
  | @pass m rest hover hfresh halive hqueue =>
    -- it waited, for after an event it would have found the connection dead
    have hpaused : t.isPaused = false := by
      by_contra hpaused
      have hopen := halive (eq_true_of_ne_false hpaused)
      rw [hclosed hover] at hopen
      cases hopen
    have hdue : t.due = 2 := by simp [due, hover, hpaused]
    refine ⟨.inr ⟨c.receive.1, ?_, ?_⟩, nearer_give hdue _ now⟩
    · have hsame : c.receive.1.id = t.connection := (c.twins_receive.id).trans hid
      show (r.put c.receive.1).handle? t.connection = _
      rw [handle?_put, if_pos hsame.symm]
    · rw [Connection.receive, hqueue]
      exact hclosed hover
  | wait hover hfresh hopen =>
    rw [hclosed hover] at hopen
    cases hopen

/-- What others do does not keep a stream from ending. -/
theorem Ending.run (he : t.Ending r) (hr : Numbered salt n r) {actions : List Registry.Action}
    (hn : n + r.handedOut actions ≤ 2 ^ 64) (ha : ∀ a ∈ actions, a.spares t.connection = true) :
    t.Ending (r.run actions) := by
  induction actions generalizing r n with
  | nil => exact he
  | cons a actions ih =>
    rw [handedOut, ← Nat.add_assoc] at hn
    refine ih ?_ (hr.act a (by omega)) hn fun b hb => ha b (List.mem_cons_of_mem a hb)
    rcases he with hover | ⟨c, hc, hclosed⟩
    · exact .inl hover
    · obtain ⟨d, hd, hfed⟩ := hr.fed_act (by omega) hc (ha a List.mem_cons_self)
      exact .inr ⟨d, hd, hfed.closed hclosed⟩

end PushMesh.Tap
