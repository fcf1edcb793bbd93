import PushMesh.Proofs.Registry.Bulk
import PushMesh.Proofs.Registry.Perform

/-!
# What registries refuse

An operation is refused for what it says and for nothing else: a blank key, wherever it stands, or a
message whose name or id does not fit on its line (`Operation.check_eq_error_iff`). So all registries refuse the
same operations.

The registry of a node is changed in place, and what has been changed when a refusal comes stays
changed. `Operation.serve` runs an operation that way, one connection after the other. It comes to the
same as `Registry.execute`, which has no registry to show for a refusal (`run_serve`): nothing is
changed before everything has been checked.
-/

namespace PushMesh

/-! ## What is wrong with an operation -/

/-- The keys that an audience is given by. -/
def Audience.given : Audience → List String
  | .key _ k => [k]
  | .keys _ ks => ks
  | .connection _ => []
  | .all => []

/-- The keys that connections to be closed are given by. -/
def Closing.given : Closing → List String
  | .user k => [k]
  | .token k => [k]
  | .connection _ => []
  | .connections _ => []

/-- A message whose name or id has a line break or a NUL in it. -/
def Message.Broken (m : Message) : Prop :=
  ∃ s, (m.event = some s ∨ m.id = some s) ∧
    ('\n' ∈ s.toList ∨ '\r' ∈ s.toList ∨ '\x00' ∈ s.toList)

namespace Operation

/-- The keys that an operation is given by. -/
def given : Operation → List String
  | .query _ k => [k]
  | .send audience _ => audience.given
  | .disconnect closing => closing.given
  | .queryAll => []
  | .listKeys _ => []
  | .count => []

/-- An operation with a blank key, or with a broken message. -/
def Flawed (op : Operation) : Prop :=
  (∃ k ∈ op.given, Text.isBlankText k = true) ∨ ∃ audience m, op = .send audience m ∧ m.Broken

end Operation

/-! ## Checks -/

/-- A key passes iff it is not blank. -/
theorem KeyKind.check_eq_ok_iff {kind : KeyKind} {key : String} :
    kind.check key = .ok () ↔ Text.isBlankText key = false := by
  unfold check
  cases Text.isBlankText key <;> simp

/-- A list of keys is refused for a blank one, wherever it stands. -/
theorem KeyKind.checkAll_eq (kind : KeyKind) (keys : List String) :
    kind.checkAll keys = if keys.any Text.isBlankText then .error (.blankKey kind) else .ok () := by
  rw [checkAll, List.forM_eq_forM]
  induction keys with
  | nil => rfl
  | cons k keys ih =>
    rw [List.forM_cons, List.any_cons, ih, check]
    cases Text.isBlankText k <;> rfl

/-- A list of keys passes iff none of them is blank. -/
theorem KeyKind.checkAll_eq_ok_iff {kind : KeyKind} {keys : List String} :
    kind.checkAll keys = .ok () ↔ ∀ k ∈ keys, Text.isBlankText k = false := by
  have hany : keys.any Text.isBlankText = false ↔ ∀ k ∈ keys, Text.isBlankText k = false := by
    simp
  rw [checkAll_eq, ← hany]
  cases keys.any Text.isBlankText <;> simp

/-- The verdict on a list of keys depends neither on their order nor on repetitions. -/
theorem KeyKind.checkAll_congr {kind : KeyKind} {ks ks' : List String}
    (h : ∀ k, k ∈ ks' ↔ k ∈ ks) : kind.checkAll ks' = kind.checkAll ks := by
  have hany : ks'.any Text.isBlankText = ks.any Text.isBlankText := by
    rw [Bool.eq_iff_iff, List.any_eq_true, List.any_eq_true]
    simp only [h]
  rw [checkAll_eq, checkAll_eq, hany]

/-- A text breaks a field iff it has a line break or a null character. -/
theorem Message.isFieldText_eq_false_iff {s : String} : isFieldText s = false ↔
    '\n' ∈ s.toList ∨ '\r' ∈ s.toList ∨ '\x00' ∈ s.toList := by
  rw [isFieldText, List.all_eq_false]
  constructor
  · rintro ⟨c, hc, hbad⟩
    have hone : c = '\n' ∨ c = '\r' ∨ c = '\x00' := by
      by_contra hgood
      simp_all
    rcases hone with rfl | rfl | rfl
    · exact .inl hc
    · exact .inr (.inl hc)
    · exact .inr (.inr hc)
  · rintro (hc | hc | hc)
    · exact ⟨_, hc, by decide⟩
    · exact ⟨_, hc, by decide⟩
    · exact ⟨_, hc, by decide⟩

/-- A message is not well formed iff one of its fields is broken. -/
theorem Message.isWellFormed_eq_false_iff {m : Message} : m.isWellFormed = false ↔ m.Broken := by
  have hfield : ∀ o : Option String, o.all isFieldText = false ↔
      ∃ s, o = some s ∧ isFieldText s = false := by
    intro o
    cases o <;> simp
  rw [isWellFormed, Bool.and_eq_false_iff, hfield, hfield, ← exists_or]
  simp only [Broken, isFieldText_eq_false_iff, or_and_right]

/-- A message passes iff no field of it is broken. -/
theorem Message.check_eq_ok_iff {m : Message} : m.check = .ok () ↔ ¬m.Broken := by
  rw [← isWellFormed_eq_false_iff, check]
  cases m.isWellFormed <;> simp

/-- An audience passes iff none of the keys given is blank. -/
theorem Audience.check_eq_ok_iff {a : Audience} :
    a.check = .ok () ↔ ∀ k ∈ a.given, Text.isBlankText k = false := by
  cases a with
  | key kind k => rw [check, kind.check_eq_ok_iff, given, List.forall_mem_singleton]
  | keys kind ks => exact kind.checkAll_eq_ok_iff
  | connection _ | all => simp [check, given]

/-- A request to close passes iff none of the keys given is blank. -/
theorem Closing.check_eq_ok_iff {a : Closing} :
    a.check = .ok () ↔ ∀ k ∈ a.given, Text.isBlankText k = false := by
  cases a with
  | user k | token k => rw [check, KeyKind.check_eq_ok_iff, given, List.forall_mem_singleton]
  | connection _ | connections _ => simp [check, given]

namespace Operation

/-- An operation passes iff it has no flaw. -/
theorem check_eq_ok_iff {op : Operation} : op.check = .ok () ↔ ¬op.Flawed := by
  have hflawed : ¬op.Flawed ↔ (∀ k ∈ op.given, Text.isBlankText k = false) ∧
      ∀ audience m, op = .send audience m → ¬m.Broken := by
    simp [Flawed]
  rw [hflawed]
  cases op with
  | query kind key => simp [check, given, kind.check_eq_ok_iff]
  | send audience m =>
    rw [check_send_iff, audience.check_eq_ok_iff, m.check_eq_ok_iff]
    simp [given]
  | disconnect closing =>
    rw [check, closing.check_eq_ok_iff]
    simp [given]
  | queryAll | listKeys _ | count => simp [check, given]

/-- An operation is refused just for what it says. -/
theorem check_eq_error_iff {op : Operation} : (∃ e, op.check = .error e) ↔ op.Flawed := by
  have hok := op.check_eq_ok_iff
  cases hcheck : op.check with
  | error e =>
    rw [hcheck] at hok
    simpa using hok
  | ok u =>
    rw [hcheck] at hok
    simpa using hok

end Operation

/-- An operation is refused iff it does not pass, and with the same error. -/
theorem Registry.execute_eq_error_iff {r : Registry} {op : Operation} {e : Refusal} :
    r.execute op = .error e ↔ op.check = .error e := by
  rw [execute_eq]
  cases op.check <;> simp [Except.map]

/-! ## Serving in place -/

/-- Something that is done to a registry in place. When it is refused, what has been changed until
then stays changed. -/
abbrev InPlace (α : Type) := ExceptT Refusal (StateM Registry) α

namespace InPlace

variable {α β : Type}

/-- What becomes of a registry, and what the answer is. -/
def on (x : InPlace α) (r : Registry) : Except Refusal α × Registry :=
  (ExceptT.run x).run r

/-- Goes on only if a check is passed. -/
def require : Except Refusal Unit → InPlace Unit
  | .ok () => pure ()
  | .error e => throw e

/-- Runs a step for one id after the other, and counts how often it succeeds. -/
def each (step : Registry → ConnectionId → Registry × Bool) : List ConnectionId → InPlace Nat
  | [] => pure 0
  | id :: ids => do
    let done ← modifyGet fun r => ((step r id).2, (step r id).1)
    let n ← each step ids
    return if done then n + 1 else n

/-- A computation in place stops at its first error and keeps the registry of that moment. -/
theorem on_bind (x : InPlace α) (f : α → InPlace β) (r : Registry) :
    (x >>= f).on r =
      match x.on r with
      | (.ok a, s) => (f a).on s
      | (.error e, s) => (.error e, s) := by
  unfold on
  rw [ExceptT.run_bind, StateT.run_bind]
  rcases (ExceptT.run x).run r with ⟨_ | _, s⟩ <;> rfl

/-- What fails a check is refused at once, and everything else goes on. -/
theorem on_require_bind (check : Except Refusal Unit) (f : Unit → InPlace α) (r : Registry) :
    (require check >>= f).on r =
      match check with
      | .ok _ => (f ()).on r
      | .error e => (.error e, r) := by
  rw [on_bind]
  cases check <;> rfl

/-- Reading the registry changes nothing. -/
theorem on_get_bind (f : Registry → InPlace α) (r : Registry) :
    (get >>= f).on r = (f r).on r := rfl

/-- Going through ids in place is going through them. -/
theorem on_each (step : Registry → ConnectionId → Registry × Bool) (ids : List ConnectionId)
    (r : Registry) :
    (each step ids).on r = (.ok (Registry.each step r ids).2, (Registry.each step r ids).1) := by
  induction ids generalizing r with
  | nil => rfl
  | cons id ids ih =>
    rw [each, on_bind]
    show ((each step ids >>= fun n => pure (if (step r id).2 then n + 1 else n)).on (step r id).1) = _
    rw [on_bind, ih]
    rfl

/-- Checking one key after the other is checking the list. -/
theorem on_forM_require_bind (kind : KeyKind) (keys : List String) (f : Unit → InPlace α)
    (r : Registry) :
    ((keys.forM fun k => require (kind.check k)) >>= f).on r =
      match kind.checkAll keys with
      | .ok _ => (f ()).on r
      | .error e => (.error e, r) := by
  rw [KeyKind.checkAll, List.forM_eq_forM, List.forM_eq_forM]
  induction keys with
  | nil => rfl
  | cons k keys ih =>
    rw [List.forM_cons, List.forM_cons, bind_assoc, on_require_bind]
    cases kind.check k with
    | error e => rfl
    | ok u => exact ih

end InPlace

/-- Refuses an audience with a blank key, in place. -/
def Audience.require : Audience → InPlace Unit
  | .key kind k => InPlace.require (kind.check k)
  | .keys kind ks => ks.forM fun k => InPlace.require (kind.check k)
  | .connection _ => pure ()
  | .all => pure ()

/-- A check at the front leaves the registry as it is when it fails. -/
theorem Audience.on_require_bind {α : Type} (a : Audience) (f : Unit → InPlace α) (r : Registry) :
    (a.require >>= f).on r =
      match a.check with
      | .ok _ => (f ()).on r
      | .error e => (.error e, r) := by
  cases a with
  | key kind k => exact InPlace.on_require_bind _ f r
  | keys kind ks => exact InPlace.on_forM_require_bind kind ks f r
  | connection _ | all => rfl

namespace Operation

/-- Runs an operation in place, one connection after the other. -/
def serve : Operation → InPlace Output
  | .query kind key => do
    InPlace.require (kind.check key)
    let r ← get
    return .connections (r.describe ((r.index kind).ids key))
  | .queryAll => do
    let r ← get
    return .connections r.queryAll
  | .listKeys kind => do
    let r ← get
    return .keys (r.keys kind)
  | .send audience m => do
    audience.require
    InPlace.require m.check
    let r ← get
    let n ← InPlace.each (·.sendOne · m) (r.audience audience).toList
    modify fun r => { r with delivered := r.delivered + n }
    return .count (UInt64.ofNat n)
  | .disconnect closing => do
    InPlace.require closing.check
    let r ← get
    let n ← InPlace.each Registry.closeOne (r.closing closing).toList
    return .count (UInt64.ofNat n)
  | .count => do
    let r ← get
    return .count (UInt64.ofNat r.count)

/-- Serving in place comes to the same as running the operation, and a refusal leaves everything as it
was. -/
theorem run_serve (op : Operation) (r : Registry) :
    op.serve.on r =
      match r.execute op with
      | .ok (s, output) => (.ok output, s)
      | .error e => (.error e, r) := by
  rw [Registry.execute_eq]
  cases op with
  | query kind key =>
    rw [serve, InPlace.on_require_bind, check]
    cases kind.check key <;> rfl
  | send audience m =>
    rw [serve, audience.on_require_bind, check]
    -- the audience is judged before the message, as in the pure form
    cases audience.check with
    | error e => rfl
    | ok _ =>
      dsimp only
      rw [InPlace.on_require_bind]
      cases hm : m.check with
      | error e => rfl
      | ok _ =>
        dsimp only
        rw [InPlace.on_get_bind, InPlace.on_bind, InPlace.on_each]
        simp only [bind, Except.bind, Except.map, Registry.perform, Registry.deliver_eq]
        rfl
  | disconnect closing =>
    rw [serve, InPlace.on_require_bind, check]
    cases closing.check with
    | error e => rfl
    | ok _ =>
      dsimp only
      rw [InPlace.on_get_bind, InPlace.on_bind, InPlace.on_each]
      simp only [Except.map, Registry.perform, Registry.closeIds_eq]
      rfl
  | queryAll | listKeys _ | count => rfl

/-- What registries make of an operation: either all of them run it or all of them refuse it, for what
it says and without a trace. -/
structure JudgedAlike (op : Operation) : Prop where
  exact (r : Registry) : (∃ e, r.execute op = .error e) ↔ op.Flawed
  alike (r s : Registry) (e : Refusal) : r.execute op = .error e → s.execute op = .error e
  untouched (r : Registry) (e : Refusal) : r.execute op = .error e → op.serve.on r = (.error e, r)
  response (r : Registry) (e : Refusal) : r.execute op = .error e → r.respond op = (r, .error e.text)

/-- Every operation is judged alike by all registries. -/
theorem judgedAlike (op : Operation) : op.JudgedAlike where
  exact r := by
    rw [← op.check_eq_error_iff]
    simp only [Registry.execute_eq_error_iff]
  alike r s e he := by
    rw [Registry.execute_eq_error_iff] at he ⊢
    exact he
  untouched r e he := by
    rw [run_serve, he]
  response r e he := by
    rw [Registry.respond, he]

end Operation

end PushMesh
