import PushMesh.Proofs.Registry.Feed
import PushMesh.Stream.Poll

/-!
# What a poll does

`Tap.Moves` says when a stream makes which of its moves, and a stream that serves a connection makes
no other (`moves_move`). A read is what polls come to at one time, the signal to close going first
(`readAs_polls`).
-/

namespace PushMesh

namespace Registry

/-- Of two writes to one connection the later counts. -/
theorem put_put (r : Registry) {c d : Connection} (h : d.id = c.id) :
    (r.put c).put d = r.put d := by
  have hpool : ((r.put c).put d).pool = (r.put d).pool := by
    apply Table.ext_get?
    intro id
    show ((r.put c).put d).handle? id = (r.put d).handle? id
    rw [handle?_put, handle?_put, handle?_put, h]
    split <;> rfl
  exact congrArg (fun pool => { r with pool }) hpool

/-- Writing back what is stored changes nothing. -/
theorem put_self {r : Registry} {c : Connection} (h : r.handle? c.id = some c) : r.put c = r := by
  have hpool : (r.put c).pool = r.pool := by
    apply Table.ext_get?
    intro id
    show (r.put c).handle? id = r.handle? id
    rw [handle?_put]
    split
    · next hid => rw [hid, h]
    · rfl
  exact congrArg (fun pool => { r with pool }) hpool

end Registry

open Registry

namespace Tap

/-- When a stream makes which move, given the connection that it serves. -/
inductive Moves (t : Tap) (c : Connection) : Move → Prop where
  | none (hover : t.isOver = true) : Moves t c .none
  | greet (hover : t.isOver = false) (hfresh : t.isFresh = true) : Moves t c .greet
  | quit (hover : t.isOver = false) (hfresh : t.isFresh = false) (hclosed : c.isOpen = false) :
      Moves t c .quit
  | wake (hover : t.isOver = false) (hfresh : t.isFresh = false) (hclosed : c.isOpen = false) :
      Moves t c (.wake c)
  | pass {m : Message} {rest : List Message} (hover : t.isOver = false) (hfresh : t.isFresh = false)
      (halive : t.isPaused = true → c.isOpen = true) (hqueue : c.queue = m :: rest) :
      Moves t c (.pass c m)
  | wait (hover : t.isOver = false) (hfresh : t.isFresh = false) (hopen : c.isOpen = true)
      (hqueue : c.queue = []) : Moves t c .wait

variable {t : Tap} {r : Registry} {c : Connection} {endFirst : Bool} {now n : Nat}

/-- A stream makes no other moves as long as its connection is attended to. -/
theorem moves_move (hc : r.handle? t.connection = some c) (ha : t.isOver = false → c.Attended)
    (endFirst : Bool) : t.Moves c (t.move r endFirst) := by
  cases hover : t.isOver with
  | true =>
    rw [move, hover]
    exact .none hover
  | false =>
    cases hfresh : t.isFresh with
    | true =>
      rw [move, hover, hfresh]
      exact .greet hover hfresh
    | false =>
      have hsignal := (ha hover).signal
      have halive : c.isAlive = c.isOpen := by
        rw [Connection.isAlive, (ha hover).hasReceiver, Bool.and_true]
      simp only [move, hover, hfresh, hc, halive, hsignal, Bool.false_eq_true, if_false]
      cases hopen : c.isOpen with
      | false =>
        cases hpaused : t.isPaused with
        | true => exact .quit hover hfresh hopen
        | false =>
          simp only [Bool.false_and, Bool.false_eq_true, if_false, Bool.not_false, Bool.true_and]
          split
          · exact .wake hover hfresh hopen
          · next hlast =>
            -- a message is there, or the signal would have won
            cases hqueue : c.queue with
            | nil => exact absurd (by simp [hqueue]) hlast
            | cons m rest => exact .pass hover hfresh (fun h => by simp [hpaused] at h) hqueue
      | true =>
        simp only [Bool.not_true, Bool.and_false, Bool.false_and, Bool.false_eq_true, if_false]
        cases hqueue : c.queue with
        | nil => exact .wait hover hfresh hopen hqueue
        | cons m rest => exact .pass hover hfresh (fun _ => hopen) hqueue

/-! ## Reading is polling -/

/-- An open connection with an empty queue has its stream wait. -/
theorem move_eq_wait (hc : r.handle? t.connection = some c) (ha : c.Attended)
    (hover : t.isOver = false) (hfresh : t.isFresh = false) (hopen : c.isOpen = true)
    (hqueue : c.queue = []) : t.move r endFirst = .wait := by
  simp [move, hover, hfresh, hc, Connection.isAlive, hopen, ha.hasReceiver, ha.signal, hqueue]

/-- An open connection with a message queued has its stream pass that message on. -/
theorem move_eq_pass (hc : r.handle? t.connection = some c) (ha : c.Attended)
    (hover : t.isOver = false) (hfresh : t.isFresh = false) (hopen : c.isOpen = true) {m : Message}
    {rest : List Message} (hqueue : c.queue = m :: rest) : t.move r endFirst = .pass c m := by
  simp [move, hover, hfresh, hc, Connection.isAlive, hopen, ha.hasReceiver, ha.signal, hqueue]

theorem polls_succ (endFirst : Bool) (now n : Nat) (t : Tap) (r : Registry) :
    t.polls endFirst now (n + 1) r = (t.poll r endFirst now).1.polls endFirst now n
      (t.poll r endFirst now).2 := rfl

/-- Where a poll changes nothing, more polls change nothing. -/
theorem polls_eq_self (h : t.poll r endFirst now = (t, r)) : t.polls endFirst now n r = (t, r) := by
  induction n with
  | zero => rfl
  | succ n ih => rw [polls_succ, h, ih]

/-- Polling a stream that is over changes nothing. -/
theorem poll_of_over (hover : t.isOver = true) : t.poll r endFirst now = (t, r) := by
  rw [poll, move, hover]
  rfl

/-- A piece given out while the timer stands at a full patience only joins what is told. -/
theorem give_of_timer (hfresh : t.isFresh = false) (htimer : t.nextComment = now + t.patience)
    (p : Piece) : t.give p now = { t with isPaused := true, told := t.told ++ [p] } := by
  rw [give, ← htimer, ← hfresh]

/-- Before the timer is due, waiting gives out nothing. -/
theorem wait_of_lt (hearly : now < t.nextComment) : t.wait now = { t with isPaused := false } := by
  rw [wait, if_neg (by omega)]

/-- A stream that waits goes on waiting where there is nothing to give out. -/
theorem poll_idle (hc : r.handle? t.connection = some c) (ha : c.Attended)
    (hover : t.isOver = false) (hfresh : t.isFresh = false) (hopen : c.isOpen = true)
    (hqueue : c.queue = []) (hearly : now < t.nextComment) :
    t.poll r endFirst now = ({ t with isPaused := false }, r) := by
  rw [poll, move_eq_wait hc ha hover hfresh hopen hqueue]
  dsimp only
  rw [wait_of_lt hearly]

/-- A stream that waits changes nothing more at the time. -/
theorem polls_idle (hc : r.handle? t.connection = some c) (ha : c.Attended)
    (hover : t.isOver = false) (hfresh : t.isFresh = false) (hpaused : t.isPaused = false)
    (hopen : c.isOpen = true) (hqueue : c.queue = []) (hearly : now < t.nextComment) (n : Nat) :
    t.polls endFirst now n r = (t, r) := by
  apply polls_eq_self
  rw [poll_idle hc ha hover hfresh hopen hqueue hearly, ← hpaused]

/-- An open stream gives out every message that waits, and then waits itself. -/
theorem polls_drain (hr : r.Stored) (hc : r.handle? t.connection = some c) (ha : c.Attended)
    (hover : t.isOver = false) (hfresh : t.isFresh = false) (hopen : c.isOpen = true)
    (hpatience : 0 < t.patience) (htimer : t.nextComment = now + t.patience)
    (hn : c.queue.length < n) :
    t.polls endFirst now n r =
      ({ t with isPaused := false, told := t.told ++ c.queue.map .message },
        r.put c.receiveAll.1) := by
  have hid : c.id = t.connection := hr.keyed _ c hc
  induction hqueue : c.queue generalizing t r c n with
  | nil =>
    obtain ⟨n, rfl⟩ : ∃ k, n = k + 1 := ⟨n - 1, by omega⟩
    have hearly : now < t.nextComment := by omega
    have hsame : c.receiveAll.1 = c := by
      rw [Connection.receiveAll, ← hqueue]
    rw [polls_succ, poll_idle hc ha hover hfresh hopen hqueue hearly, hsame, put_self (hid ▸ hc),
      List.map_nil, List.append_nil]
    exact polls_idle (t := { t with isPaused := false }) hc ha hover hfresh rfl hopen hqueue hearly n
  | cons m rest ih =>
    obtain ⟨n, rfl⟩ : ∃ k, n = k + 1 := ⟨n - 1, by omega⟩
    have hreceive : c.receive.1 = { c with queue := rest } := by
      rw [Connection.receive, hqueue]
    have hafter : (r.put { c with queue := rest }).handle? t.connection =
        some { c with queue := rest } := by
      rw [handle?_put, if_pos hid.symm]
    have hshorter : rest.length < n := by
      rw [hqueue, List.length_cons] at hn
      exact Nat.lt_of_succ_lt_succ hn
    have hrest := ih (t := { t with isPaused := true, told := t.told ++ [.message m] }) (hr.put _)
      hafter ⟨ha.hasReceiver, ha.signal⟩ hover hfresh hopen hpatience htimer hshorter hid rfl
    have htwice : (r.put { c with queue := rest }).put { c with queue := [] } =
        r.put { c with queue := [] } := put_put r rfl
    rw [polls_succ, poll, move_eq_pass hc ha hover hfresh hopen hqueue]
    dsimp only
    rw [give_of_timer hfresh htimer, hreceive, hrest]
    dsimp only [Connection.receiveAll]
    rw [htwice, List.append_assoc]
    rfl

/-- What a stream comes to in polls is what a read finds. -/
structure ReadAs (t : Tap) (read : Stream.Read) (after : Tap × Registry) : Prop where
  registry : after.2 = read.registry
  text : ∃ pieces, after.1.told = t.told ++ pieces ∧ read.text = String.join (pieces.map Piece.text)
  isOver : after.1.isOver = read.stream.isOver
  stream : read.stream.isOver = false → after.1.toStream = read.stream ∧ after.1.isPaused = false

/-- On a closed connection two polls read the stream to its end. -/
theorem readAs_of_closed (hc : r.handle? t.connection = some c) (ha : c.Attended)
    (hover : t.isOver = false) (hpaused : t.isPaused = false) (hclosed : c.isOpen = false)
    (hn : 2 ≤ n) : t.ReadAs (t.read r now) (t.polls true now n r) := by
  obtain ⟨n, rfl⟩ : ∃ k, n = k + 2 := ⟨n - 2, by omega⟩
  have halive : c.isAlive = false := by rw [Connection.isAlive, hclosed, Bool.false_and]
  cases hfresh : t.isFresh with
  | true =>
    -- it greets, and finds the connection dead when it is polled again
    have hgreet : t.poll r true now = (t.give (.connected t.connection t.nodeId) now, r) := by
      simp [poll, move, hover, hfresh]
    have hquit : (t.give (.connected t.connection t.nodeId) now).poll r true now =
        (t.give (.connected t.connection t.nodeId) now).drop r := by
      simp [poll, move, give, hover, hc, halive]
    have hread : t.read r now =
        { stream := { t.toStream with isFresh := false, isOver := true }, registry := t.cleanUp r,
          text := EventText.connected t.connection t.nodeId, ends := true } := by
      simp [Stream.read, Stream.takeMessages, hover, hfresh, hc, hclosed]
    have hdrop : (t.give (.connected t.connection t.nodeId) now).drop r =
        ({ t.give (.connected t.connection t.nodeId) now with isOver := true }, t.cleanUp r) := by
      simp [drop, Stream.drop, give, hover]
      rfl
    rw [polls_succ, hgreet, polls_succ, hquit, hdrop, polls_eq_self (poll_of_over rfl), hread]
    refine ⟨rfl, ⟨[.connected t.connection t.nodeId], rfl, ?_⟩, rfl, nofun⟩
    simp [Piece.text]
  | false =>
    have hwake : t.poll r true now = t.drop (r.put c.takeCloseSignal.1) := by
      simp [poll, move, hover, hfresh, hc, hpaused, ha.signal, hclosed]
    have hread : t.read r now =
        { stream := { t.toStream with isFresh := false, isOver := true },
          registry := t.cleanUp (r.put c.takeCloseSignal.1), text := "", ends := true } := by
      simp [Stream.read, Stream.takeMessages, hover, hfresh, hc, hclosed]
    have hdrop : t.drop (r.put c.takeCloseSignal.1) =
        ({ t with isOver := true }, t.cleanUp (r.put c.takeCloseSignal.1)) := by
      simp [drop, Stream.drop, hover]
    rw [polls_succ, hwake, hdrop, polls_eq_self (poll_of_over rfl), hread]
    exact ⟨rfl, ⟨[], (List.append_nil _).symm, rfl⟩, rfl, nofun⟩

/-- The pieces of messages read as the event texts of those messages. -/
theorem join_messages (messages : List Message) :
    String.join ((messages.map Piece.message).map Piece.text) =
      String.join (messages.map EventText.ofMessage) := by
  rw [List.map_map]
  rfl

/-- An open stream for which nothing waits gives out a comment if one is due. -/
theorem readAs_of_silence (hr : r.Stored) (hc : r.handle? t.connection = some c) (ha : c.Attended)
    (hover : t.isOver = false) (hfresh : t.isFresh = false) (hopen : c.isOpen = true)
    (hqueue : c.queue = []) (hpatience : 0 < t.patience) (hn : 0 < n) :
    t.ReadAs (t.read r now) (t.polls true now n r) := by
  obtain ⟨n, rfl⟩ : ∃ k, n = k + 1 := ⟨n - 1, by omega⟩
  -- there is nothing to take out of the queue
  have hkept : c.receiveAll.1 = c := by
    rw [Connection.receiveAll, ← hqueue]
  have hsame : r = r.put c.receiveAll.1 := by
    have hid : c.id = t.connection := hr.keyed _ c hc
    rw [hkept]
    exact (put_self (hid ▸ hc)).symm
  rw [polls_succ, poll, move_eq_wait hc ha hover hfresh hopen hqueue]
  dsimp only
  -- the comment is due, or the stream is silent
  by_cases hdue : t.nextComment ≤ now
  · let u : Tap := { t with isPaused := false, nextComment := now + t.patience,
                            told := t.told ++ [.comment] }
    have hcomment : t.wait now = u := if_pos hdue
    have hread : t.read r now =
        { stream := { t.toStream with nextComment := now + t.patience },
          registry := r.put c.receiveAll.1, text := EventText.keepAlive, ends := false } := by
      simp [Stream.read, Stream.takeMessages, hover, hfresh, hc, hopen, Connection.receiveAll,
        hqueue, hdue]
    have hrest : u.polls true now n r = (u, r) :=
      polls_idle (t := u) hc ha hover hfresh rfl hopen hqueue (Nat.lt_add_of_pos_right hpatience) n
    rw [hcomment, hrest, hread]
    refine ⟨hsame, ⟨[.comment], rfl, ?_⟩, rfl, fun _ => ⟨rfl, rfl⟩⟩
    simp [Piece.text]
  · have hearly : now < t.nextComment := Nat.lt_of_not_le hdue
    have hread : t.read r now =
        { stream := t.toStream, registry := r.put c.receiveAll.1, text := "", ends := false } := by
      simp [Stream.read, Stream.takeMessages, hover, hfresh, hc, hopen, Connection.receiveAll,
        hqueue, hdue]
    let u : Tap := { t with isPaused := false }
    have hquiet : t.wait now = u := wait_of_lt hearly
    have hrest : u.polls true now n r = (u, r) :=
      polls_idle (t := u) hc ha hover hfresh rfl hopen hqueue hearly n
    rw [hquiet, hrest, hread]
    exact ⟨hsame, ⟨[], (List.append_nil _).symm, rfl⟩, rfl, fun _ => ⟨rfl, rfl⟩⟩

/-- After an event an open stream gives out what waits, its timer started again. -/
theorem polls_of_event {s : Registry} {d : Connection} {p : Piece}
    (hevent : t.poll r true now = (t.give p now, s)) (hs : s.Stored)
    (hd : s.handle? t.connection = some d) (ha : d.Attended) (hover : t.isOver = false)
    (hopen : d.isOpen = true) (hpatience : 0 < t.patience) (hn : d.queue.length + 1 < n) :
    t.polls true now n r =
      ({ t with isFresh := false, isPaused := false, nextComment := now + t.patience,
                told := t.told ++ p :: d.queue.map .message },
        s.put d.receiveAll.1) := by
  obtain ⟨n, rfl⟩ : ∃ k, n = k + 1 := ⟨n - 1, by omega⟩
  have hshort : d.queue.length < n := Nat.lt_of_succ_lt_succ hn
  rw [polls_succ, hevent]
  refine (polls_drain (t := t.give p now) hs hd ha hover rfl hopen hpatience rfl hshort).trans ?_
  rw [give, List.append_assoc]
  rfl

/-- On an open connection the polls read out the whole queue and then wait. -/
theorem readAs_of_open (hr : r.Stored) (hc : r.handle? t.connection = some c) (ha : c.Attended)
    (hover : t.isOver = false) (hopen : c.isOpen = true) (hpatience : 0 < t.patience)
    (hn : c.queue.length + 2 ≤ n) : t.ReadAs (t.read r now) (t.polls true now n r) := by
  cases hfresh : t.isFresh with
  | true =>
    -- a fresh stream gives out its greeting before it looks at the queue
    have hgreet : t.poll r true now = (t.give (.connected t.connection t.nodeId) now, r) := by
      simp [poll, move, hover, hfresh]
    have hread : t.read r now =
        { stream := { t.toStream with isFresh := false, nextComment := now + t.patience },
          registry := r.put c.receiveAll.1,
          text := EventText.connected t.connection t.nodeId ++
            String.join (c.queue.map EventText.ofMessage),
          ends := false } := by
      simp [Stream.read, Stream.takeMessages, hover, hfresh, hc, hopen, Connection.receiveAll]
    rw [polls_of_event hgreet hr hc ha hover hopen hpatience (by omega), hread]
    refine ⟨rfl, ⟨_, rfl, ?_⟩, rfl, fun _ => ⟨rfl, rfl⟩⟩
    rw [List.map_cons, String.join_cons, join_messages]
    rfl
  | false =>
    -- otherwise the first message goes out, and the rest is drained after it
    cases hqueue : c.queue with
    | nil => exact readAs_of_silence hr hc ha hover hfresh hopen hqueue hpatience (by omega)
    | cons m rest =>
      have hreceive : c.receive.1 = { c with queue := rest } := by
        rw [Connection.receive, hqueue]
      have hpass : t.poll r true now =
          (t.give (.message m) now, r.put { c with queue := rest }) := by
        rw [poll, move_eq_pass hc ha hover hfresh hopen hqueue, ← hreceive]
      have hafter : (r.put { c with queue := rest }).handle? t.connection =
          some { c with queue := rest } := by
        rw [handle?_put, if_pos (hr.keyed _ c hc).symm]
      have hread : t.read r now =
          { stream := { t.toStream with isFresh := false, nextComment := now + t.patience },
            registry := r.put c.receiveAll.1,
            text := String.join (c.queue.map EventText.ofMessage),
            ends := false } := by
        simp [Stream.read, Stream.takeMessages, hover, hfresh, hc, hopen, Connection.receiveAll,
          hqueue]
      rw [hqueue, List.length_cons] at hn
      rw [polls_of_event hpass (hr.put _) hafter ⟨ha.hasReceiver, ha.signal⟩ hover hopen hpatience
        (Nat.lt_of_succ_lt hn), hread]
      refine ⟨put_put r rfl, ⟨_, rfl, ?_⟩, rfl, fun _ => ⟨rfl, rfl⟩⟩
      rw [hqueue, ← join_messages]
      rfl

/-- **A read is polling until nothing is ready.** A stream that does not stand still after an event
gives out in polls what a read finds, and leaves the registry as the read does; the polls that it
takes are one for each message, one for the `connected` event and one that comes back empty. -/
theorem readAs_polls (hr : r.Stored) (hc : r.handle? t.connection = some c) (ha : c.Attended)
    (hover : t.isOver = false) (hpaused : t.isPaused = false) (hpatience : 0 < t.patience)
    (hn : c.queue.length + 2 ≤ n) : t.ReadAs (t.read r now) (t.polls true now n r) := by
  cases hopen : c.isOpen with
  | false => exact readAs_of_closed hc ha hover hpaused hopen (by omega)
  | true => exact readAs_of_open hr hc ha hover hopen hpatience hn

end Tap

end PushMesh
