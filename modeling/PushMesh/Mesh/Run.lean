import PushMesh.Mesh.Dispatch

/-!
# Letting time pass

Timers go off one after the other, by the moment they are due and then in the order in which they
were set. One who waits for something sees it as soon as it holds; until then the clock jumps from
timer to timer, and at last to the end of the wait. A wait that ends at a moment goes before the
timers that are due at that moment.
-/

namespace PushMesh.Mesh

/-- Starts a sweeper: its first sweep is one interval away. -/
def startSweeper (m : Mesh) (s : Sweeper) : Mesh :=
  m.schedule s.interval (.sweep s)

/-- Whether a sweeper is finished. -/
def isFinished (m : Mesh) (s : Sweeper) : Bool :=
  m.sweepers.any fun (t, finished) => t == s && finished

/-- Lets a sweeper sweep, and sets its next timer. -/
def runSweep (m : Mesh) (s : Sweeper) : Mesh :=
  if m.isFinished s then m
  else (m.onRegistry s.node (·.sweep)).1.schedule s.interval (.sweep s)

/-- Does what is due. -/
def perform (m : Mesh) : Event → Mesh
  | .call call =>
    match m.attempt call false with
    | (m, some result) => m.afterAttempt call false result
    | (m, none) => m
  | .arrival call isSecond link early =>
    let (m, result) := m.arrive call link early
    m.afterAttempt call isSecond result
  | .sweeperStart s => if m.isFinished s then m else m.startSweeper s
  | .sweep s => m.runSweep s

/-- Whether a timer goes off before another one. -/
def Timer.isBefore (s t : Timer) : Bool :=
  s.due < t.due || (s.due = t.due && s.order < t.order)

/-- The timer that goes off next. -/
def nextTimer? (m : Mesh) : Option Timer :=
  m.timers.foldl (fun best t =>
    match best with
    | none => some t
    | some b => if Timer.isBefore t b then some t else some b) none

/-- Lets a timer go off. -/
def fire (m : Mesh) (t : Timer) : Mesh :=
  { m with
    timers := m.timers.filter (·.order != t.order)
    now := max m.now t.due }.perform t.event

/-- Lets the timers go off that are due by now. -/
def drain : Nat → Mesh → Mesh
  | 0, m => m
  | fuel + 1, m =>
    match m.nextTimer? with
    | none => m
    | some t => if t.due ≤ m.now then drain fuel (m.fire t) else m

/-- Lets timers go off until something holds or the deadline is reached. -/
def runUntil (holds : Mesh → Bool) (deadline : Option Nat) : Nat → Mesh → Mesh
  | 0, m => m
  | fuel + 1, m =>
    if holds m then drain (fuel + 1) m
    else
      match m.nextTimer?, deadline with
      | none, none => m
      | none, some d => { m with now := max m.now d }
      | some t, none => runUntil holds deadline fuel (m.fire t)
      | some t, some d =>
        if t.due < d then runUntil holds deadline fuel (m.fire t)
        else { m with now := max m.now d }

/-- The moment by which every call that is under way has ended. -/
def horizon (m : Mesh) : Nat :=
  m.timers.foldl (fun d t =>
    match t.event with
    | .call call => max d (t.due + 2 * call.timeout)
    | .arrival call .. => max d (t.due + call.timeout)
    | _ => max d t.due) m.now

/-- A bound on the timers that go off until a moment: a call sets at most two more, and a sweeper at
most one a millisecond. -/
def steps (m : Mesh) (until_ : Nat) : Nat :=
  (m.timers.length + 1) * (until_ - m.now + 4)

/-- Waits until something holds, but not beyond the deadline. -/
def waitFor (m : Mesh) (holds : Mesh → Bool) (deadline : Option Nat) : Mesh :=
  if holds m then m
  else runUntil holds deadline (m.steps (deadline.getD m.horizon)) m

/-- Lets some milliseconds pass. -/
def advance (m : Mesh) (milliseconds : Nat) : Mesh :=
  m.waitFor (fun _ => false) (some (m.now + milliseconds))

/-- Whether a gather no longer runs. -/
def isDone (m : Mesh) (id : Nat) : Bool :=
  (m.gather? id).all (·.isDone)

/-- The outcome of a gather for one who waits no longer. -/
def outcome (m : Mesh) (id : Nat) : Outcome :=
  match m.gather? id with
  | none => .error .cancelled
  | some g => g.expired

/-- Waits for a gather, for some milliseconds or without a limit. -/
def wait (m : Mesh) (id : Nat) (limit : Option Nat) : Mesh × Outcome :=
  let m := m.waitFor (·.isDone id) (limit.map (m.now + ·))
  (m, m.outcome id)

/-- Asks whether a user has a connection anywhere, and waits for all answers. A peer that cannot be
reached counts as having none. -/
def isOnline (m : Mesh) (h : Host) (userId : String) : Mesh × Except DispatchError Bool :=
  let (m, id) := m.dispatch h (.queryByUserId userId)
  let (m, outcome) := m.wait id none
  (m, outcome.map (·.foundAny))

/-! ## Sweepers -/

/-- Starts a background task that sweeps a node, every so many seconds but at least one. -/
def addSweeper (m : Mesh) (node : String) (seconds : Nat) : Mesh :=
  let (m, id) := m.freshId
  let s : Sweeper := ⟨id, node, max seconds 1 * 1000⟩
  { m with sweepers := m.sweepers ++ [(s, false)] }.schedule 0 (.sweeperStart s)

/-- Finishes the sweepers of a node. -/
def finishSweepers (m : Mesh) (node : String) : Mesh :=
  { m with sweepers := m.sweepers.map fun (s, finished) => (s, finished || s.node == node) }

/-- Whether the sweeper of a node that was started last is finished, if there is one. -/
def sweeperFinished? (m : Mesh) (node : String) : Option Bool :=
  (m.sweepers.reverse.find? fun (s, _) => s.node == node).map (·.2)

end PushMesh.Mesh
