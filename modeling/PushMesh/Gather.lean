import PushMesh.Registry.Execute
import PushMesh.Tally

/-!
# Gathering the answers of the peers

A gather starts with the answer of the node itself and one outstanding entry for each peer that is
called. Every peer resolves its entry once, with an answer that is merged into the value or with a
failure that is recorded. With the last entry the gather is complete; until then it can be
cancelled. A gather that is no longer running never changes again.

Callbacks stand in the gather by their labels. They are run with the final outcome, in the order in
which they were registered, and dropped when the gather is cancelled.
-/

namespace PushMesh

/-- Why an operation on the cluster fails as a whole. -/
inductive DispatchError where
  /-- The node's own registry refused it, and no peer was called. -/
  | refused (e : Refusal)
  | cancelled
  /-- The wait was over and a partial result was not wanted. -/
  | timeout (pending : List String)
deriving DecidableEq

/-- The wording of a failure. -/
def DispatchError.text : DispatchError → String
  | refused e => "Local operation failed: " ++ e.text
  | cancelled => "Operation was cancelled"
  | timeout pending => "Timed out waiting for " ++ toString pending.length ++ " node(s)"

/-- What a gather holds when it is looked at. -/
structure Gathered where
  /-- The merged answers. -/
  value : Tally
  /-- The nodes whose answers are in the value, the node itself first. -/
  responded : List String
  /-- The calls that failed, in the order in which they did. -/
  failures : List NodeFailure
  /-- The peers that have not answered yet. -/
  pending : List String
deriving DecidableEq

/-- Whether the answer of a peer that was called is missing from the value. -/
def Gathered.isPartial (g : Gathered) : Bool :=
  !g.failures.isEmpty || !g.pending.isEmpty

/-- Whether anything was found. -/
def Gathered.foundAny (g : Gathered) : Bool :=
  g.value.size != 0

/-- How an operation on the cluster ends for one who waits for it. -/
abbrev Outcome := Except DispatchError Gathered

/-- Where a gather stands. -/
inductive Gather.Phase where
  | running
  | completed
  | cancelled
  /-- It never started. -/
  | failed (e : DispatchError)
deriving DecidableEq

/-- The answers to one operation, gathered from the peers. -/
structure Gather where
  value : Tally
  responded : List String
  /-- The peers that have not answered yet. -/
  outstanding : Ascending String
  failures : List NodeFailure
  phase : Gather.Phase
  /-- The labels of the callbacks that have still to run. -/
  callbacks : List String
  /-- The peer calls that a cancellation stops. -/
  tasks : List Nat
  /-- Whether one who gives up waiting gets what has been gathered so far. -/
  partialOnTimeout : Bool

namespace Gather

/-- A gather with the node's own answer and the peers that are to be called. -/
def start (nodeId : String) (value : Tally) (peers : List String) (partialOnTimeout : Bool) :
    Gather :=
  let outstanding := Ascending.ofList peers
  { value, responded := [nodeId], outstanding, failures := [],
    phase := if outstanding.isEmpty then .completed else .running,
    callbacks := [], tasks := [], partialOnTimeout }

/-- A gather that failed before any peer was called. -/
def failed (kind : Tally.Kind) (e : DispatchError) : Gather :=
  { value := .empty kind, responded := [], outstanding := ∅, failures := [], phase := .failed e,
    callbacks := [], tasks := [], partialOnTimeout := false }

/-- What the gather holds now. -/
def snapshot (g : Gather) : Gathered :=
  { value := g.value, responded := g.responded, failures := g.failures,
    pending := g.outstanding.toList }

/-- The final outcome, once the gather no longer runs. -/
def outcome? (g : Gather) : Option Outcome :=
  match g.phase with
  | .running => none
  | .completed => some (.ok g.snapshot)
  | .cancelled => some (.error .cancelled)
  | .failed e => some (.error e)

/-- Whether the gather no longer runs. -/
def isDone (g : Gather) : Bool := g.phase != .running

/-- Whether the gather was cancelled. -/
def isCancelled (g : Gather) : Bool := g.phase == .cancelled

/-- The outcome for one who waits no longer. -/
def expired (g : Gather) : Outcome :=
  match g.outcome? with
  | some o => o
  | none => if g.partialOnTimeout then .ok g.snapshot else .error (.timeout g.outstanding.toList)

/-- A callback that is run, with the outcome it is given. -/
abbrev Notice := String × Outcome

/-- Completes the gather when nothing is outstanding, and runs its callbacks. -/
def settle (g : Gather) : Gather × List Notice :=
  if g.outstanding.isEmpty then
    let done := { g with phase := .completed, tasks := [], callbacks := [] }
    (done, g.callbacks.map (·, .ok done.snapshot))
  else (g, [])

/-- Whether an answer of the node still counts. -/
def awaits (g : Gather) (nodeId : String) : Bool :=
  g.phase == .running && g.outstanding.contains nodeId

/-- Merges the answer of a peer, if it is still awaited. -/
def complete (g : Gather) (nodeId : String) (value : Tally) : Gather × List Notice :=
  if g.awaits nodeId then
    settle { g with
      value := g.value.merge value
      responded := g.responded ++ [nodeId]
      outstanding := g.outstanding.erase nodeId }
  else (g, [])

/-- Records the failure of a peer, if its answer is still awaited. -/
def fail (g : Gather) (failure : NodeFailure) : Gather × List Notice :=
  if g.awaits failure.nodeId then
    settle { g with
      failures := g.failures ++ [failure]
      outstanding := g.outstanding.erase failure.nodeId }
  else (g, [])

/-- Attaches a peer call, and says whether it has to be stopped at once. -/
def track (g : Gather) (task : Nat) : Gather × Bool :=
  match g.phase with
  | .running => ({ g with tasks := g.tasks ++ [task] }, false)
  | .cancelled => (g, true)
  | _ => (g, false)

/-- Stops the gather: says whether it was running, and which peer calls are to be stopped. The
callbacks are dropped. -/
def cancel (g : Gather) : Gather × Bool × List Nat :=
  match g.phase with
  | .running => ({ g with phase := .cancelled, callbacks := [], tasks := [] }, true, g.tasks)
  | _ => (g, false, [])

/-- Registers a callback, which is run at once if the final outcome is known. It is dropped if that
outcome is a cancellation. -/
def onComplete (g : Gather) (label : String) : Gather × List Notice :=
  match g.outcome? with
  | none => ({ g with callbacks := g.callbacks ++ [label] }, [])
  | some (.error .cancelled) => (g, [])
  | some o => (g, [(label, o)])

end Gather

end PushMesh
