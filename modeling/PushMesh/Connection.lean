import PushMesh.Data.Ascending
import PushMesh.Descriptor
import PushMesh.Message

/-!
# Connections

A connection has a sending end, which its node keeps, and a receiving end, which serves the client.
Messages wait in a queue of bounded length between the two. A message is accepted as long as the
connection is not closed, the receiving end is there and the queue has room; closing leaves a signal
that wakes the receiving end once.
-/

namespace PushMesh

/-- Whom a connection belongs to. -/
structure Owner where
  userId : Option String
  accessToken : Option String
  tags : List String

/-- One connection with a client. -/
structure Connection where
  id : ConnectionId
  userId : Option String
  accessToken : Option String
  tags : Ascending String
  connectedAt : Instant
  /-- The number of messages that may wait. -/
  capacity : Nat
  /-- The messages that wait, the oldest first. -/
  queue : List Message
  /-- Whether the connection has been neither closed nor found without its receiving end. -/
  isOpen : Bool
  /-- Whether the receiving end is there. -/
  hasReceiver : Bool
  /-- Whether a signal to close has been given that nobody has taken. -/
  closeSignal : Bool
  /-- The number of messages accepted so far. -/
  delivered : UInt64

namespace Connection

instance : Inhabited Connection :=
  ⟨⟨0, none, none, ∅, default, 0, [], false, false, false, 0⟩⟩

/-- A new connection of an owner; repeated tags collapse. -/
def create (id : ConnectionId) (owner : Owner) (connectedAt : Instant) (capacity : Nat) :
    Connection :=
  { id, userId := owner.userId, accessToken := owner.accessToken,
    tags := Ascending.ofList owner.tags, connectedAt, capacity, queue := [], isOpen := true,
    hasReceiver := true, closeSignal := false, delivered := 0 }

/-- Whether messages can still reach the client. -/
def isAlive (c : Connection) : Bool :=
  c.isOpen && c.hasReceiver

/-- Queues a message without waiting and says whether it was accepted. A missing receiving end
closes the connection for good. -/
def trySend (c : Connection) (m : Message) : Connection × Bool :=
  if !c.isOpen then (c, false)
  else if !c.hasReceiver then ({ c with isOpen := false }, false)
  else if c.queue.length < c.capacity then
    ({ c with queue := c.queue ++ [m], delivered := c.delivered + 1 }, true)
  else (c, false)

/-- Closes the connection and signals it to the receiving end. -/
def close (c : Connection) : Connection :=
  { c with isOpen := false, closeSignal := true }

/-- Takes the signal to close, if there is one. -/
def takeCloseSignal (c : Connection) : Connection × Bool :=
  ({ c with closeSignal := false }, c.closeSignal)

/-- Takes the oldest message that waits. -/
def receive (c : Connection) : Connection × Option Message :=
  match c.queue with
  | [] => (c, none)
  | m :: rest => ({ c with queue := rest }, some m)

/-- Takes every message that waits. -/
def receiveAll (c : Connection) : Connection × List Message :=
  ({ c with queue := [] }, c.queue)

/-- Drops the receiving end together with the messages that wait. -/
def dropReceiver (c : Connection) : Connection :=
  { c with hasReceiver := false, queue := [] }

/-- What is known about the connection on its node. -/
def describe (c : Connection) (nodeId : String) : Descriptor :=
  { id := c.id, nodeId, userId := c.userId, accessToken := c.accessToken, tags := c.tags.toList,
    connectedAt := c.connectedAt, alive := c.isAlive, delivered := c.delivered }

end Connection

end PushMesh
