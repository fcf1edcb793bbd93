import PushMesh.Stream.Basic

/-!
# Polling a stream

A client takes a stream piece by piece. After an event the stream stands still until it is polled
again. It looks then whether its connection is alive, and waits for a message or for the signal to
close; while it waits it does not look again. Where a message and the signal are both there when a
waiting stream is polled, either may win.
-/

namespace PushMesh

/-- What a stream gives out in one piece. -/
inductive Piece where
  | connected (id : ConnectionId) (nodeId : String)
  | message (m : Message)
  | comment

namespace Piece

/-- The text of a piece. -/
def text : Piece → String
  | connected id nodeId => EventText.connected id nodeId
  | message m => EventText.ofMessage m
  | comment => EventText.keepAlive

/-- Whether a piece is an event, and not just a comment. -/
def isEvent : Piece → Bool
  | comment => false
  | _ => true

end Piece

/-- A stream between two polls. -/
structure Tap extends Stream where
  /-- Whether the stream stands still after an event. -/
  isPaused : Bool
  /-- Everything that was given out, in order. -/
  told : List Piece

namespace Tap

/-- A new stream for a connection, see `Stream.start`. -/
def start (connection : ConnectionId) (nodeId : String) (seconds now : Nat) : Tap :=
  { Stream.start connection nodeId seconds now with isPaused := false, told := [] }

/-- The events that were given out. -/
def events (t : Tap) : List Piece :=
  t.told.filter (·.isEvent)

/-- The stream gives out an event and stands still. -/
def give (t : Tap) (p : Piece) (now : Nat) : Tap :=
  { t with isFresh := false, isPaused := true, nextComment := now + t.patience,
           told := t.told ++ [p] }

/-- The stream waits, and gives out a comment if one is due. -/
def wait (t : Tap) (now : Nat) : Tap :=
  if t.nextComment ≤ now then
    { t with isPaused := false, nextComment := now + t.patience, told := t.told ++ [.comment] }
  else { t with isPaused := false }

/-- The stream is over, at its end or because its client goes away. -/
def drop (t : Tap) (r : Registry) : Tap × Registry :=
  ({ t with toStream := (t.toStream.drop r).1 }, (t.toStream.drop r).2.1)

/-- What a stream does when it is polled. -/
inductive Move where
  /-- The stream is over. -/
  | none
  /-- It gives out the `connected` event. -/
  | greet
  /-- It finds its connection dead. -/
  | quit
  /-- It takes the signal to close its connection. -/
  | wake (c : Connection)
  /-- It passes on the oldest message of its connection. -/
  | pass (c : Connection) (m : Message)
  | wait

/-- What a stream does next. Where a message and the signal to close are both there, `endFirst`
tells which of them wins. -/
def move (t : Tap) (r : Registry) (endFirst : Bool) : Move :=
  if t.isOver then .none
  else if t.isFresh then .greet
  else
    match r.handle? t.connection with
    | none => .quit
    | some c =>
      if t.isPaused && !c.isAlive then .quit
      else if c.closeSignal && (endFirst || c.queue.isEmpty) then .wake c
      else
        match c.queue with
        | [] => .wait
        | m :: _ => .pass c m

/-- Asks a stream for its next piece. -/
def poll (t : Tap) (r : Registry) (endFirst : Bool) (now : Nat) : Tap × Registry :=
  match t.move r endFirst with
  | .none => (t, r)
  | .greet => (t.give (.connected t.connection t.nodeId) now, r)
  | .quit => t.drop r
  | .wake c => t.drop (r.put c.takeCloseSignal.1)
  | .pass c m => (t.give (.message m) now, r.put c.receive.1)
  | .wait => (t.wait now, r)

/-- The stream and the registry after several polls at one time. -/
def polls (endFirst : Bool) (now : Nat) : Nat → Tap → Registry → Tap × Registry
  | 0, t, r => (t, r)
  | n + 1, t, r =>
    let (t, r) := t.poll r endFirst now
    polls endFirst now n t r

end Tap

end PushMesh
