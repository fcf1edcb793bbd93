import PushMesh.Inquiry
import PushMesh.Proofs.Registry.Bulk

/-!
# Operations in two halves

Whether an operation is refused depends on the operation alone, and what it does if it is not on the
registry: `execute_eq` takes the two apart. So nodes agree on what they refuse. The node that makes
an inquiry runs the same operation as its peers (`Inquiry.runLocally_eq_ok_iff`).
-/

namespace PushMesh

/-- Refuses an operation that no registry runs. -/
def Operation.check : Operation → Except Refusal Unit
  | .query kind key => kind.check key
  | .send audience m => do
    audience.check
    m.check
  | .disconnect closing => closing.check
  | .queryAll => .ok ()
  | .listKeys _ => .ok ()
  | .count => .ok ()

/-- A send passes its check when its audience and its message do. -/
theorem Operation.check_send_iff {a : Audience} {m : Message} :
    (send a m).check = .ok () ↔ a.check = .ok () ∧ m.check = .ok () := by
  rw [check]
  cases a.check <;> simp [bind, Except.bind]

namespace Registry

/-- Runs an operation that is not refused. -/
def perform (r : Registry) : Operation → Registry × Output
  | .query kind key => (r, .connections (r.describe ((r.index kind).ids key)))
  | .queryAll => (r, .connections r.queryAll)
  | .listKeys kind => (r, .keys (r.keys kind))
  | .send audience m =>
    let (s, n) := r.deliver (r.audience audience) m
    (s, .count (UInt64.ofNat n))
  | .disconnect closing =>
    let (s, n) := r.closeIds (r.closing closing).toList
    (s, .count (UInt64.ofNat n))
  | .count => (r, .count (UInt64.ofNat r.count))

/-- Refusing and running are independent of each other. -/
theorem execute_eq (r : Registry) (op : Operation) :
    r.execute op = op.check.map fun _ => r.perform op := by
  cases op with
  | query kind key =>
    simp only [execute, query, Operation.check, bind, Except.bind]
    cases kind.check key <;> rfl
  | send audience m =>
    simp only [execute, send, Operation.check, bind, Except.bind]
    cases audience.check with
    | error e => rfl
    | ok _ => cases m.check <;> rfl
  | disconnect closing =>
    simp only [execute, disconnect, Operation.check, bind, Except.bind]
    cases closing.check <;> rfl
  | queryAll | listKeys _ | count => rfl

/-- An operation is run just if it passes its check. -/
theorem execute_eq_ok_iff {r : Registry} {op : Operation} {result : Registry × Output} :
    r.execute op = .ok result ↔ op.check = .ok () ∧ r.perform op = result := by
  rw [execute_eq]
  cases op.check <;> simp [Except.map]

/-- A send is run just if it passes its check. -/
theorem send_eq_ok_iff {r : Registry} {a : Audience} {m : Message} {result : Registry × Nat} :
    r.send a m = .ok result ↔
      (Operation.send a m).check = .ok () ∧ r.deliver (r.audience a) m = result := by
  rw [send, Operation.check]
  cases a.check with
  | error e => simp [bind, Except.bind]
  | ok _ => cases m.check <;> simp [bind, Except.bind, pure, Except.pure]

/-- A send is refused with what its check finds. -/
theorem send_eq_error_iff {r : Registry} {a : Audience} {m : Message} {e : Refusal} :
    r.send a m = .error e ↔ (Operation.send a m).check = .error e := by
  rw [send, Operation.check]
  cases a.check with
  | error e => simp [bind, Except.bind]
  | ok _ => cases m.check <;> simp [bind, Except.bind, pure, Except.pure]

/-- The registry after an operation for a peer: what it was if the operation is refused. -/
theorem fst_respond (r : Registry) (op : Operation) :
    (r.respond op).1 = if op.check = .ok () then (r.perform op).1 else r := by
  unfold respond
  rw [execute_eq]
  cases op.check <;> simp [Except.map]

end Registry

/-- The tally of what an operation brings. -/
theorem Inquiry.exists_ofOutput (inquiry : Inquiry) (r : Registry) :
    ∃ t, Tally.ofOutput inquiry.kind (r.perform inquiry.operation).2 = .ok t := by
  cases inquiry <;> exact ⟨_, rfl⟩

/-- A node's own part of an inquiry is the tally of the operation that it sends to its peers. -/
theorem Inquiry.runLocally_eq_ok_iff {inquiry : Inquiry} {r s : Registry} {t : Tally} :
    inquiry.runLocally r = .ok (s, t) ↔ inquiry.operation.check = .ok () ∧
      (r.perform inquiry.operation).1 = s ∧
      Tally.ofOutput inquiry.kind (r.perform inquiry.operation).2 = .ok t := by
  cases inquiry with
  | query kind key =>
    simp only [runLocally, Registry.query, operation, Operation.check, bind, Except.bind]
    cases kind.check key <;>
      simp [pure, Except.pure, Registry.perform, Inquiry.kind, Tally.ofOutput]
  | send audience m =>
    simp only [runLocally, Registry.send, operation, Operation.check, bind, Except.bind]
    cases audience.normalized.check with
    | error e => simp
    | ok _ =>
      cases m.check <;> simp [pure, Except.pure, Registry.perform, Inquiry.kind, Tally.ofOutput]
  | disconnect closing =>
    simp only [runLocally, Registry.disconnect, operation, Operation.check, bind, Except.bind]
    cases closing.normalized.check <;>
      simp [pure, Except.pure, Registry.perform, Inquiry.kind, Tally.ofOutput]
  | queryAll | listKeys _ | countKeys _ | count =>
    simp [runLocally, operation, Operation.check, Registry.perform, Inquiry.kind,
      Tally.ofOutput, pure, Except.pure]

/-- A node refuses its own part of an inquiry just as it refuses the operation that it sends. -/
theorem Inquiry.runLocally_eq_error_iff {inquiry : Inquiry} {r : Registry} {e : Refusal} :
    inquiry.runLocally r = .error e ↔ inquiry.operation.check = .error e := by
  cases inquiry with
  | query kind key =>
    simp only [runLocally, Registry.query, operation, Operation.check, bind, Except.bind]
    cases kind.check key <;> simp [pure, Except.pure]
  | send audience m =>
    simp only [runLocally, Registry.send, operation, Operation.check, bind, Except.bind]
    cases audience.normalized.check with
    | error e => simp
    | ok _ => cases m.check <;> simp [pure, Except.pure]
  | disconnect closing =>
    simp only [runLocally, Registry.disconnect, operation, Operation.check, bind, Except.bind]
    cases closing.normalized.check <;> simp [pure, Except.pure]
  | queryAll | listKeys _ | countKeys _ | count =>
    simp [runLocally, operation, Operation.check, pure, Except.pure]

end PushMesh
