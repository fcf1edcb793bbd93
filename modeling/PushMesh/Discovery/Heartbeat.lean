import PushMesh.Discovery.Store
import PushMesh.Membership

/-!
# Heartbeats

With a heartbeat a node writes its descriptor and the time into the shared store, removes the nodes
whose last heartbeat is too old, and reads the descriptors of the others. What it finds are its
peers. A heartbeat is a sequence of commands, and the commands of other nodes may come between any
two of them.
-/

namespace PushMesh.Discovery

/-- Commands that are sent one after the other, each depending on the replies before it. -/
inductive Exchange (α : Type) where
  | done (a : α)
  /-- Nothing more is sent, because a reply was of the wrong form. -/
  | failed
  | ask (c : Command) (next : Reply → Exchange α)

namespace Exchange

variable {α : Type}

/-- Sends a command that is only acknowledged. -/
def order (c : Command) (next : Exchange α) : Exchange α :=
  .ask c fun _ => next

/-- Sends a command that is replied to with ids. -/
def askIds (c : Command) (next : List String → Exchange α) : Exchange α :=
  .ask c fun
    | .ids l => next l
    | _ => .failed

/-- Sends a command that is replied to with descriptors. -/
def askDescriptors (c : Command) (next : List (Option String) → Exchange α) : Exchange α :=
  .ask c fun
    | .descriptors l => next l
    | _ => .failed

/-- Runs all commands on a store, with nothing between them. -/
def run : Exchange α → Store → Store × Option α
  | done a, s => (s, some a)
  | failed, s => (s, none)
  | ask c next, s =>
    let (s, reply) := s.run c
    run (next reply) s

/-- Runs the next command on a store. -/
def step : Exchange α → Store → Store × Exchange α
  | ask c next, s =>
    let (s, reply) := s.run c
    (s, next reply)
  | e, s => (s, e)

/-- The commands that are sent when they are answered one after the other, up to the first that is
not. -/
def sent (answers : List Reply) : Exchange α → List Command
  | ask c next =>
    match answers with
    | [] => [c]
    | reply :: answers => c :: sent answers (next reply)
  | _ => []

end Exchange

/-- The milliseconds after which a node without a heartbeat is gone: its seconds, at least one, in
words of 64 bits. -/
def lifetime (seconds : UInt64) : Int64 :=
  (max seconds 1 * 1000).toInt64

/-- The time before which a heartbeat is too old. -/
def cutoff (now : Int64) (seconds : UInt64) : Int64 :=
  now - lifetime seconds

/-- The descriptor of a node as it is written into the store. -/
def descriptorText (self : Node) : String :=
  (Node.peer self.id self.address).toJson.text

/-- The peers that descriptors name; what cannot be read is passed over. -/
def peersOf (self : Node) (descriptors : List (Option String)) : List Node :=
  Membership.remotePeers self <|
    descriptors.filterMap fun d => do
      let n ← (Node.reader.decode (← d)).toOption
      return { n with isSelf := false }

/-- Removes the nodes that are gone. -/
def prune (expired : List String) (next : Exchange (List Node)) : Exchange (List Node) :=
  if expired.isEmpty then next
  else .order (.removeBeats expired) (.order (.removeDescriptors expired) next)

/-- Reads the peers among the nodes that are alive. As many descriptors count as there are ids. -/
def readPeers (self : Node) (live : List String) : Exchange (List Node) :=
  let ids := live.filter (· != self.id)
  if ids.isEmpty then .done []
  else .askDescriptors (.getDescriptors ids) fun l => .done (peersOf self (l.take ids.length))

/-- The heartbeat of a node at a time. -/
def heartbeat (self : Node) (seconds : UInt64) (now : Int64) : Exchange (List Node) :=
  let limit := (cutoff now seconds).toInt
  .order (.setDescriptor self.id (descriptorText self)) <|
    .order (.setBeat self.id now.toInt) <|
      .askIds (.beatsBefore limit) fun expired =>
        prune expired <|
          .askIds (.beatsFrom limit) (readPeers self)

/-- What a node sends when it goes away. -/
def deregister (self : Node) : Exchange Unit :=
  .order (.removeBeats [self.id]) (.order (.removeDescriptors [self.id]) (.done ()))

end PushMesh.Discovery
