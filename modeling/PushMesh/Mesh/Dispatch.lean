import PushMesh.Inquiry
import PushMesh.Mesh.Basic

/-!
# Dispatching an operation to the peers

A node runs an operation on its own registry first. If that refuses it, no peer is called. Otherwise
one call to each peer is set up, and the answers are gathered as they arrive.

A call that gets no answer in time is given up, and made once more if the node is so configured. A
call that fails is recorded in the gather and in the metrics, and so is one that succeeds.
-/

namespace PushMesh.Mesh

/-- Runs the operation of a call on the node that is called. -/
def execute (m : Mesh) (call : PeerCall) : Mesh × Except PeerError Output :=
  match m.host? call.callee.id with
  | none => (m, .error (.unreachable ("connect failed: " ++ call.callee.address ++ " refused")))
  | some h =>
    match h.registry.execute call.operation with
    | .error e => (m.note (.ran call), .error (.domain e.text))
    | .ok (r, output) => ((m.setRegistry call.callee.id h.registry r).note (.ran call), .ok output)

/-- What an attempt brings when it arrives or is given up. -/
def answer (m : Mesh) (call : PeerCall) (link : Link) (early : Option (Except PeerError Output)) :
    Mesh × Except PeerError Output :=
  if call.timeout < link.delay then (m, .error (.timeout call.timeout))
  else
    match early, link.fate with
    | some result, _ => (m, result)
    | none, .runs => m.execute call
    | none, .fails e => (m, .error e)
    | none, .timesOut => (m, .error (.timeout call.timeout))
    | none, .answers output => (m, .ok output)

/-- Ends an attempt. -/
def arrive (m : Mesh) (call : PeerCall) (link : Link) (early : Option (Except PeerError Output)) :
    Mesh × Except PeerError Output :=
  let (m, result) := m.answer call link early
  (m.note (.ended call result), result)

/-- Makes a call: takes the next link to the callee, and runs the operation if that is done first. -/
def begin (m : Mesh) (call : PeerCall) : Mesh × Link × Option (Except PeerError Output) :=
  let record : CallRecord := ⟨call.caller, call.callee.id, call.operation.name⟩
  let m := { m with calls := m.calls ++ [record] }.note (.began call)
  let (m, link) := m.takeLink call.callee.id
  match link.runsFirst, link.fate with
  | true, .runs =>
    let (m, result) := m.execute call
    (m, link, some result)
  | _, _ => (m, link, none)

/-- Makes a call. If it neither takes time nor may take any, its result is there at once. -/
def attempt (m : Mesh) (call : PeerCall) (isSecond : Bool) :
    Mesh × Option (Except PeerError Output) :=
  let (m, link, early) := m.begin call
  let wait := min link.delay call.timeout
  if wait = 0 then
    let (m, result) := m.arrive call link early
    (m, some result)
  else (m.schedule wait (.arrival call isSecond link early), none)

/-- Ends a call with its last result. -/
def conclude (m : Mesh) (call : PeerCall) (result : Except PeerError Output) : Mesh :=
  match result.bind (Tally.ofOutput call.kind) with
  | .ok value =>
    (m.record (·.recordCall .ok)).onGather call.gather (·.complete call.callee.id value)
  | .error e =>
    (m.record (·.recordCall (.ofError e))).onGather call.gather
      (·.fail ⟨call.callee.id, call.callee.address, e⟩)

/-- Whether a call is made once more after a result. -/
def wantsRetry (call : PeerCall) : Except PeerError Output → Bool
  | .ok _ => false
  | .error e => call.retries && e.isTimeout

/-- Goes on after an attempt: a second one follows a first one that was given up. -/
def afterAttempt (m : Mesh) (call : PeerCall) (isSecond : Bool)
    (result : Except PeerError Output) : Mesh :=
  if !isSecond && wantsRetry call result then
    match m.attempt call true with
    | (m, some result) => m.conclude call result
    | (m, none) => m
  else m.conclude call result

/-- Sets up the call to one peer. -/
def spawn (m : Mesh) (gather : Nat) (caller : Host) (inquiry : Inquiry) (peer : Node) : Mesh :=
  let (m, task) := m.freshId
  let call : PeerCall :=
    { task, gather, caller := caller.self.id, callee := peer, operation := inquiry.operation,
      kind := inquiry.kind, timeout := caller.config.requestTimeout,
      retries := caller.config.retryOnTimeout }
  let m := m.schedule 0 (.call call)
  m.onGather gather fun g => ((g.track task).1, [])

/-- Starts an operation from a node, and names its gather. -/
def dispatch (m : Mesh) (h : Host) (inquiry : Inquiry) : Mesh × Nat :=
  let m := m.record (·.recordDispatch inquiry.operation.name)
  match inquiry.runLocally h.registry with
  | .error e =>
    (m.record (·.recordLocalFailure)).addGather (.failed inquiry.kind (.refused e))
  | .ok (r, value) =>
    let m := m.setRegistry h.self.id h.registry r
    let peers := h.peers
    let (m, id) :=
      m.addGather (.start h.registry.nodeId value (peers.map (·.id)) h.config.partialOnTimeout)
    (peers.foldl (fun m peer => m.spawn id h inquiry peer) m, id)

/-- The call that a timer belongs to. -/
def Timer.task? (t : Timer) : Option Nat :=
  match t.event with
  | .call call => some call.task
  | .arrival call .. => some call.task
  | _ => none

/-- Cancels a gather and stops its calls; says whether it was running. -/
def cancel (m : Mesh) (id : Nat) : Mesh × Bool :=
  match m.gather? id with
  | none => (m, false)
  | some g =>
    let (g, wasRunning, tasks) := g.cancel
    ({ m with
        gathers := m.gathers.insert id g
        timers := m.timers.filter fun t => (Timer.task? t).all fun task => !tasks.contains task },
      wasRunning)

end PushMesh.Mesh
