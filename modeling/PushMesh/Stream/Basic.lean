import PushMesh.Registry.Basic
import PushMesh.Stream.EventText

/-!
# Event streams

A stream serves one connection to its client. It starts with the `connected` event, goes on with the
messages of the connection in the order in which they were accepted, and ends when the connection is
closed; what is still queued then is lost. An idle stream writes a comment now and then, its timer
starting again with everything that is written.

When a stream ends or its client goes away, its connection leaves the registry.
-/

namespace PushMesh

/-- A stream that serves a connection. -/
structure Stream where
  connection : ConnectionId
  nodeId : String
  /-- Whether the `connected` event is still to be written. -/
  isFresh : Bool
  /-- Whether the stream is over. -/
  isOver : Bool
  /-- The milliseconds of silence after which a comment is written. -/
  patience : Nat
  /-- The time at which the next comment is due. -/
  nextComment : Nat
deriving DecidableEq

namespace Stream

/-- A new stream for a connection. The patience is given in seconds, at least one. -/
def start (connection : ConnectionId) (nodeId : String) (seconds now : Nat) : Stream :=
  let patience := max seconds 1 * 1000
  { connection, nodeId, isFresh := true, isOver := false, patience, nextComment := now + patience }

/-- The registry after the stream is over: the receiving end is gone, and the connection is removed
unless that has been done before. -/
def cleanUp (s : Stream) (r : Registry) : Registry :=
  let r := match r.handle? s.connection with
    | none => r
    | some c => r.put c.dropReceiver
  (r.closeOne s.connection).1

/-- What a read finds. -/
structure Read where
  stream : Stream
  registry : Registry
  /-- Everything that is ready. -/
  text : String
  /-- Whether the stream ended in this read. -/
  ends : Bool

/-- The messages that a stream takes: all that wait on an open connection. On a closed one it takes the
signal that it waited for; a new stream finds out without it. -/
def takeMessages (s : Stream) (r : Registry) : Registry × Option (List Message) :=
  match r.handle? s.connection with
  | none => (r, none)
  | some c =>
    if c.isOpen then
      let (c, messages) := c.receiveAll
      (r.put c, some messages)
    else if s.isFresh then (r, none)
    else (r.put c.takeCloseSignal.1, none)

/-- Reads everything that is ready at a time. -/
def read (s : Stream) (r : Registry) (now : Nat) : Read :=
  if s.isOver then { stream := s, registry := r, text := "", ends := false }
  else
    let first := if s.isFresh then EventText.connected s.connection s.nodeId else ""
    match s.takeMessages r with
    | (r, none) =>
      { stream := { s with isFresh := false, isOver := true }, registry := s.cleanUp r,
        text := first, ends := true }
    | (r, some messages) =>
      let text := first ++ String.join (messages.map EventText.ofMessage)
      if s.isFresh || !messages.isEmpty then
        { stream := { s with isFresh := false, nextComment := now + s.patience }, registry := r,
          text, ends := false }
      else if s.nextComment ≤ now then
        { stream := { s with nextComment := now + s.patience }, registry := r,
          text := EventText.keepAlive, ends := false }
      else { stream := s, registry := r, text := "", ends := false }

/-- The client goes away, and the stream with it; says whether the stream was not over before. -/
def drop (s : Stream) (r : Registry) : Stream × Registry × Bool :=
  if s.isOver then (s, r, false) else ({ s with isOver := true }, s.cleanUp r, true)

end Stream

end PushMesh
