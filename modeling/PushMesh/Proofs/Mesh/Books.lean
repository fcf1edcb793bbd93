import PushMesh.Proofs.Mesh.Kept
import PushMesh.Proofs.Registry.Meters

/-!
# What turns book in the metrics

The metrics of a process and the registries of its nodes count the same things at different places. `Booked`
says what a change of a mesh adds to the metrics: what the registries counted meanwhile, the inquiries that
were dispatched, and the calls that ended. Changes that follow one another add up (`Booked.trans`), so a turn
needs one small lemma for each thing that is done in it, and a run is their sum (`booked_run`).
-/

namespace PushMesh

/-- An inquiry that a host dispatched, with the registry that it met there. -/
structure Dispatched where
  registry : Registry
  inquiry : Inquiry

namespace Dispatched

/-- The name under which it is counted. -/
def name (d : Dispatched) : String := d.inquiry.operation.name

/-- Whether the own registry refused it. -/
def isRefused (d : Dispatched) : Bool := !(d.inquiry.runLocally d.registry).isOk

end Dispatched

/-- The end of a call, as it was counted. -/
structure Booking where
  gather : Nat
  peer : String
  outcome : CallOutcome
deriving DecidableEq

namespace Mesh

/-- What the registries of all hosts count, added up. -/
def total (m : Mesh) (count : Registry → Nat) : Nat :=
  (m.hosts.map fun h => count h.registry).sum

/-- What a turn dispatches. -/
def dispatched (m : Mesh) : Turn → List Dispatched
  | .dispatch node inquiry => (m.host? node).toList.map fun h => ⟨h.registry, inquiry⟩
  | _ => []

/-- The outcomes by which the counters of two metrics differ. -/
def outcomesSince (before after : Metrics) : List CallOutcome :=
  CallOutcome.all.flatMap fun o => List.replicate (after.calls o - before.calls o) o

/-- What a turn counts of calls: the outcomes by which the counters grow when a timer of a call goes off. -/
def bookings (m : Mesh) : Turn → List Booking
  | .fire order => (m.timer? order).elim [] fun t => t.event.call?.elim [] fun c =>
    (outcomesSince m.metrics (m.fire t).metrics).map fun o => ⟨c.gather, c.callee.id, o⟩
  | _ => []

/-- What several turns count of calls. -/
def bookingsIn : Mesh → List Turn → List Booking
  | _, [] => []
  | m, t :: turns => m.bookings t ++ bookingsIn (m.turn t) turns

/-- What the metrics of a mesh have gained: what its registries counted, and the given dispatches and calls. -/
structure Booked (asked : List Dispatched) (outcomes : List CallOutcome) (m m' : Mesh) : Prop where
  ids : m'.hosts.map (·.self.id) = m.hosts.map (·.self.id)
  opened : m'.metrics.opened + m.total (·.opened) = m.metrics.opened + m'.total (·.opened)
  closed : m'.metrics.closed + m.total (·.closed) = m.metrics.closed + m'.total (·.closed)
  delivered :
    m'.metrics.delivered + m.total (·.delivered) = m.metrics.delivered + m'.total (·.delivered)
  /-- The gauge moves with the two counters. -/
  active : m'.metrics.active - m'.metrics.opened + m'.metrics.closed =
    m.metrics.active - m.metrics.opened + m.metrics.closed
  dispatches : ∀ name, (m'.metrics.dispatches.get? name).getD 0 =
    (m.metrics.dispatches.get? name).getD 0 + asked.countP (·.name = name)
  localFailures :
    m'.metrics.localFailures = m.metrics.localFailures + asked.countP (·.isRefused)
  calls : ∀ o, m'.metrics.calls o = m.metrics.calls o + outcomes.count o

variable {m m' s : Mesh} {asked asked' : List Dispatched}
  {outcomes outcomes' : List CallOutcome}

/-- Nothing was booked where registries are what they were, whatever else is counted. -/
theorem booked_of_frame (hids : m'.hosts.map (·.self.id) = m.hosts.map (·.self.id))
    (htotal : ∀ count, m'.total count = m.total count)
    (hmetrics : ∃ rejected durations peers,
      m'.metrics = { m.metrics with rejected, durations, peers }) : Booked [] [] m m' := by
  obtain ⟨rejected, durations, peers, hmetrics⟩ := hmetrics
  constructor
  all_goals simp only [hids, hmetrics, htotal, List.countP_nil, List.count_nil, Nat.add_zero,
    implies_true]

/-- Where hosts and metrics are what they were, nothing was booked. -/
theorem booked_of_eq (hhosts : m'.hosts = m.hosts) (hmetrics : m'.metrics = m.metrics) :
    Booked [] [] m m' :=
  booked_of_frame (by rw [hhosts]) (fun count => by rw [total, total, hhosts])
    ⟨_, _, _, hmetrics⟩

theorem Booked.refl (m : Mesh) : Booked [] [] m m := booked_of_eq rfl rfl

theorem Booked.trans (h : Booked asked outcomes m m') (h' : Booked asked' outcomes' m' s) :
    Booked (asked ++ asked') (outcomes ++ outcomes') m s where
  ids := h'.ids.trans h.ids
  opened := by
    have := h.opened
    have := h'.opened
    omega
  closed := by
    have := h.closed
    have := h'.closed
    omega
  delivered := by
    have := h.delivered
    have := h'.delivered
    omega
  active := h'.active.trans h.active
  dispatches name := by
    rw [h'.dispatches, h.dispatches, List.countP_append, Nat.add_assoc]
  localFailures := by
    rw [h'.localFailures, h.localFailures, List.countP_append, Nat.add_assoc]
  calls o := by
    rw [h'.calls, h.calls, List.count_append, Nat.add_assoc]

/-- What came before without being booked. -/
theorem Booked.after (h : Booked [] [] m m') (h' : Booked asked outcomes m' s) :
    Booked asked outcomes m s :=
  h.trans h'

/-! ## Registries -/

end Mesh

end PushMesh
