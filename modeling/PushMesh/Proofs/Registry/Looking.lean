import PushMesh.Proofs.Registry.Effect

/-!
# Operations that only look

What an operation changes it changes on connections: a send queues its message or finds a receiving
end gone, and a disconnect closes. So a registry is left alone by an operation that finds no connection
which it changes, and by no other that it runs (`respond_eq_self_iff`). The operations that are not
marked as mutating change no connection whatever. They can be answered any number of times, with the
same answer each time (`looks_of_isMutating`), and can be left out of a run (`run_filter_looks`). The
others are marked for a reason: for each that names somebody there is a registry that it changes
(`isMutating_iff`).
-/

namespace PushMesh

/-! ## One connection -/

namespace Connection

variable {c : Connection} {m : Message}

/-- Whether an offer changes the connection: it is accepted, or it finds the receiving end gone. -/
def reacts (c : Connection) : Bool :=
  c.accepts || c.isOpen && !c.hasReceiver

/-- A connection that reacts to a message is changed by it. -/
theorem trySend_ne_self (h : c.reacts = true) : (c.trySend m).1 ≠ c := by
  intro hsame
  rcases Bool.or_eq_true_iff.1 h with haccepts | hlost
  · rw [trySend_of_accepts haccepts] at hsame
    have hlength := congrArg (·.queue.length) hsame
    simp at hlength
  · obtain ⟨hopen, hreceiver⟩ : c.isOpen = true ∧ c.hasReceiver = false := by simpa using hlost
    rw [trySend_of_lost hopen hreceiver] at hsame
    have hclosed := congrArg (·.isOpen) hsame
    rw [hopen] at hclosed
    cases hclosed

/-- A connection that does not react stays as it was. -/
theorem trySend_eq_self (h : c.reacts = false) : (c.trySend m).1 = c := by
  obtain ⟨haccepts, hlost⟩ := Bool.or_eq_false_iff.1 h
  refine trySend_of_full ?_
  cases hopen : c.isOpen with
  | false => exact .inl rfl
  | true =>
    have hreceiver : c.hasReceiver = true := by simpa [hopen] using hlost
    exact .inr ⟨hreceiver, by simpa [accepts, hopen, hreceiver] using haccepts⟩

end Connection

/-- Whether an operation changes a connection of a registry that runs it. -/
def Operation.changes : Operation → Connection → Bool
  | .send audience _, c => audience.reaches c && c.reacts
  | .disconnect closing, c => closing.covers c
  | _, _ => false

/-- Whether an operation with a list of keys or ids lists any. -/
def Operation.isAddressed : Operation → Bool
  | .send (.keys _ keys) _ => !keys.isEmpty
  | .disconnect (.connections ids) => !ids.isEmpty
  | _ => true

/-- A client with one key, which is its key of every kind. -/
def Owner.ofKey (key : String) : Owner :=
  ⟨some key, some key, [key]⟩

/-- For every operation that is marked and addressed there is a connection that it changes. -/
theorem Operation.exists_changes {op : Operation} (hop : op.isMutating = true)
    (haddressed : op.isAddressed = true) :
    ∃ key id, op.changes (.create id (.ofKey key) default 1) = true := by
  have hkey : ∀ kind key id,
      ((Connection.create id (.ofKey key) default 1).keys kind).contains key = true := by
    intro kind key id
    rw [List.contains_iff_mem, Connection.mem_keys_create]
    cases kind <;> exact List.mem_singleton_self key
  cases op with
  | send a m =>
    -- a new connection has room for one message
    suffices hreaches : ∃ key id, a.reaches (.create id (.ofKey key) default 1) = true by
      obtain ⟨key, id, hreaches⟩ := hreaches
      exact ⟨key, id, by rw [changes, hreaches]; rfl⟩
    cases a with
    | key kind k => exact ⟨k, 0, hkey kind k 0⟩
    | keys kind ks =>
      cases ks with
      | nil => cases haddressed
      | cons k ks => exact ⟨k, 0, List.any_eq_true.2 ⟨k, List.mem_cons_self, hkey kind k 0⟩⟩
    | connection id => exact ⟨"", id, beq_self_eq_true id⟩
    | all => exact ⟨"", 0, rfl⟩
  | disconnect closing =>
    cases closing with
    | user k => exact ⟨k, 0, hkey .user k 0⟩
    | token k => exact ⟨k, 0, hkey .token k 0⟩
    | connection id => exact ⟨"", id, beq_self_eq_true id⟩
    | connections ids =>
      cases ids with
      | nil => cases haddressed
      | cons id ids => exact ⟨"", id, List.contains_iff_mem.2 List.mem_cons_self⟩
  | query _ _ | queryAll | listKeys _ | count => cases hop

namespace Registry

variable {r : Registry} {op : Operation}

/-! ## When a registry is left alone -/

/-- A send leaves a registry alone if none of those it is for reacts, and only then. -/
theorem deliver_eq_self_iff (h : r.Aligned) (a : Audience) (m : Message) :
    (r.deliver (r.audience a) m).1 = r ↔ ∀ c ∈ r.roster, (a.reaches c && c.reacts) = false := by
  have hhandle := handle?_deliver h.toStored (r.audience a) m
  constructor
  · intro hsame c hroster
    obtain ⟨id, hc⟩ := mem_roster.1 hroster
    -- a connection that reacts is not what it was, so the registry is not either
    by_contra hchanges
    obtain ⟨hreaches, hreacts⟩ := Bool.and_eq_true_iff.1 (Bool.of_not_eq_false hchanges)
    have hoffered := hhandle id
    rw [hsame, if_pos ((mem_audience_iff h).2 ⟨c, hc, hreaches⟩), hc, (get?_eq_some_iff.1 hc).2] at hoffered
    exact Connection.trySend_ne_self hreacts (Option.some.inj hoffered).symm
  · intro hidle
    have hsent := sent_deliver h a m
    -- no message is accepted, and no pooled connection is changed
    have hcount : (r.deliver (r.audience a) m).2 = 0 := by
      rw [snd_deliver_audience h, List.countP_eq_zero]
      intro c hc haccepts
      obtain ⟨hreaches, haccepts⟩ := Bool.and_eq_true_iff.1 haccepts
      have hnone := hidle c hc
      rw [hreaches, Connection.reacts, haccepts] at hnone
      cases hnone
    have hpool : (r.deliver (r.audience a) m).1.pool = r.pool := by
      refine Table.ext_get? fun id => (hhandle id).trans ?_
      split
      · next hin =>
        obtain ⟨c, hc, hreaches⟩ := (mem_audience_iff h).1 hin
        have hreacts := hidle c (mem_roster.2 ⟨id, hc⟩)
        rw [hreaches, Bool.true_and] at hreacts
        rw [hc, Option.map_some, Connection.trySend_eq_self hreacts]
        exact (get?_eq_some_iff.1 hc).2.symm
      · rfl
    rw [hsent.frame, hpool, hcount]
    rfl

/-- Closing ids that nobody is registered under changes nothing. -/
theorem closeIds_of_unregistered {ids : List ConnectionId} (h : ∀ id ∈ ids, r.get? id = none) :
    (r.closeIds ids).1 = r := by
  rw [closeIds_eq]
  induction ids with
  | nil => rfl
  | cons id ids ih =>
    obtain ⟨hid, hids⟩ := List.forall_mem_cons.1 h
    rw [each, closeOne_none hid]
    exact ih hids

/-- A disconnect leaves a registry alone if none of those it is for is registered, and only then. -/
theorem closeIds_closing_eq_self_iff (h : r.Aligned) (closing : Closing) :
    (r.closeIds (r.closing closing).toList).1 = r ↔ ∀ c ∈ r.roster, closing.covers c = false := by
  constructor
  · intro hsame c hroster
    obtain ⟨id, hc⟩ := mem_roster.1 hroster
    by_contra hcovers
    have hgone := ((closed_closeIds h closing).closed id c hc (Bool.of_not_eq_false hcovers)).2
    rw [hsame, hc] at hgone
    cases hgone
  · intro hidle
    refine closeIds_of_unregistered fun id hid => Option.eq_none_iff_forall_ne_some.2 fun c hc => ?_
    have hcovers := (mem_closing_iff h closing hc).1 hid
    rw [hidle c (mem_roster.2 ⟨id, hc⟩)] at hcovers
    cases hcovers

/-- **When an operation leaves a registry alone.** It does so if it is refused or if there is no
registered connection that it changes, and only then. An operation that is not marked as mutating
changes none. -/
theorem respond_eq_self_iff (h : r.Aligned) (op : Operation) :
    (r.respond op).1 = r ↔ op.Flawed ∨ ∀ c ∈ r.roster, op.changes c = false := by
  rw [fst_respond]
  by_cases hcheck : op.check = .ok ()
  · rw [if_pos hcheck, or_iff_right (Operation.check_eq_ok_iff.1 hcheck)]
    cases op with
    | send a m => exact deliver_eq_self_iff h a m
    | disconnect closing => exact closeIds_closing_eq_self_iff h closing
    | query _ _ | queryAll | listKeys _ | count => exact iff_of_true rfl fun _ _ => rfl
  · rw [if_neg hcheck]
    refine iff_of_true rfl (.inl ?_)
    by_contra hflawed
    exact hcheck (Operation.check_eq_ok_iff.2 hflawed)

/-! ## Operations that are not marked as mutating -/

/-- An operation that only looks leaves the registry as it is. -/
theorem fst_respond_of_looks (hop : op.isMutating = false) (r : Registry) : (r.respond op).1 = r := by
  rw [fst_respond]
  cases op with
  | send _ _ | disconnect _ => cases hop
  | query _ _ | queryAll | listKeys _ | count => exact ite_self r

/-- Answers operations, one after the other. -/
def answer (r : Registry) : List Operation → Registry × List Response
  | [] => (r, [])
  | op :: ops =>
    let (s, response) := r.respond op
    let (t, responses) := s.answer ops
    (t, response :: responses)

theorem answer_cons (r : Registry) (op : Operation) (ops : List Operation) : r.answer (op :: ops) =
    (((r.respond op).1.answer ops).1, (r.respond op).2 :: ((r.respond op).1.answer ops).2) := rfl

theorem answer_append (r : Registry) (ops ops' : List Operation) : r.answer (ops ++ ops') =
    (((r.answer ops).1.answer ops').1, (r.answer ops).2 ++ ((r.answer ops).1.answer ops').2) := by
  induction ops generalizing r with
  | nil => rfl
  | cons op ops ih =>
    rw [List.cons_append, answer_cons, answer_cons, ih]
    rfl

/-- An operation that only looks gets the same answer every time. -/
theorem answer_replicate (hop : op.isMutating = false) (r : Registry) (n : Nat) :
    r.answer (List.replicate n op) = (r, List.replicate n (r.respond op).2) := by
  induction n with
  | zero => rfl
  | succ n ih =>
    rw [List.replicate_succ, answer_cons, fst_respond_of_looks hop, ih]
    rfl

/-- Whether an action runs an operation that is not marked as mutating. -/
def Action.looks : Action → Bool
  | .execute op => !op.isMutating
  | _ => false

/-- An action that only looks leaves the registry as it is. -/
theorem act_of_looks {a : Action} (ha : a.looks = true) (r : Registry) : r.act a = r := by
  cases a with
  | execute op => exact fst_respond_of_looks (by simpa [Action.looks] using ha) r
  | _ => cases ha

/-- A run comes to what it comes to without the actions that only look. -/
theorem run_filter_looks (r : Registry) (actions : List Action) :
    r.run (actions.filter fun a => !a.looks) = r.run actions := by
  induction actions generalizing r with
  | nil => rfl
  | cons a actions ih =>
    show _ = (r.act a).run actions
    rw [List.filter_cons]
    cases ha : a.looks with
    | true =>
      rw [act_of_looks ha]
      exact ih r
    | false => exact ih (r.act a)

/-- Where nothing is done but looking, nothing is changed. -/
theorem run_of_looks {actions : List Action} (h : ∀ a ∈ actions, a.looks = true) (r : Registry) :
    r.run actions = r := by
  induction actions with
  | nil => rfl
  | cons a actions ih =>
    obtain ⟨ha, hactions⟩ := List.forall_mem_cons.1 h
    show (r.act a).run actions = r
    rw [act_of_looks ha]
    exact ih hactions

/-! ## The mark is right -/

/-- There is a registry with a connection of any id and owner. -/
theorem exists_reachable (id : ConnectionId) (owner : Owner) :
    ∃ r : Registry, r.Reachable ∧ .create id owner default 1 ∈ r.roster := by
  let empty : Registry := create "" ⟨1, 1⟩ (id - 1)
  have hempty : empty.Aligned := aligned_create "" ⟨1, 1⟩ (id - 1)
  have hid : empty.lastId + 1 = id := UInt64.sub_add_cancel id 1
  have hroom : empty.HasRoom owner := ⟨Nat.one_pos, fun _ _ => Nat.one_pos⟩
  have hentered : empty.register owner default 1 =
      (empty.enter (.create (empty.lastId + 1) owner default 1), .ok _) :=
    hempty.register_of_hasRoom hroom
  have hhanded : empty.handedOut [.register owner default 1] ≤ 2 ^ 64 :=
    Nat.le_trans (handedOut_le_length _ _) Nat.one_le_two_pow
  refine ⟨empty.run [.register owner default 1], ⟨_, _, _, _, hhanded, rfl⟩,
    mem_roster.2 ⟨id, ?_⟩⟩
  show (empty.register owner default 1).1.get? id = _
  rw [hentered, hid, get?_enter]
  exact if_pos rfl

/-- An operation that is in order and addressed is marked as mutating if there is a registry that it
changes, and only then. -/
theorem isMutating_iff (hfine : ¬op.Flawed) (haddressed : op.isAddressed = true) :
    op.isMutating = true ↔ ∃ r : Registry, r.Reachable ∧ (r.respond op).1 ≠ r := by
  constructor
  · intro hop
    obtain ⟨key, id, hchanges⟩ := op.exists_changes hop haddressed
    obtain ⟨r, hr, hroster⟩ := exists_reachable id (.ofKey key)
    refine ⟨r, hr, fun hsame => ?_⟩
    have hidle := ((respond_eq_self_iff hr.aligned op).1 hsame).resolve_left hfine
    rw [hidle _ hroster] at hchanges
    cases hchanges
  · rintro ⟨r, -, hne⟩
    by_contra hop
    exact hne (fst_respond_of_looks (Bool.eq_false_iff.2 hop) r)

end Registry

/-- What an operation that only looks comes to at a registry. -/
structure Operation.Looks (op : Operation) (r : Registry) : Prop where
  /-- It leaves every field of the registry if it is run. -/
  executed : ∀ s output, r.execute op = .ok (s, output) → s = r
  /-- It does so whether it is run or refused. -/
  responded : (r.respond op).1 = r
  /-- Nothing is changed on the way, which a refusal would leave changed. -/
  served : (op.serve.on r).2 = r
  /-- Asked any number of times among other operations it is answered alike each time, and the other
  answers and the registry are what they are if it is not asked at all. -/
  repeated : ∀ before n after, r.answer (before ++ List.replicate n op ++ after) =
    let (s, responses) := r.answer before
    ((s.answer after).1, responses ++ List.replicate n (s.respond op).2 ++ (s.answer after).2)

/-- What is not marked as mutating only looks. -/
theorem Operation.looks_of_isMutating {op : Operation} (hop : op.isMutating = false) (r : Registry) :
    op.Looks r := by
  have hrespond : (r.respond op).1 = r := Registry.fst_respond_of_looks hop r
  have hexecute : ∀ s output, r.execute op = .ok (s, output) → s = r := by
    intro s output h
    rwa [Registry.respond, h] at hrespond
  refine ⟨hexecute, hrespond, ?_, fun before n after => ?_⟩
  · rw [run_serve]
    split
    · next s output h => exact hexecute s output h
    · rfl
  · rw [Registry.answer_append, Registry.answer_append, Registry.answer_replicate hop]

end PushMesh
