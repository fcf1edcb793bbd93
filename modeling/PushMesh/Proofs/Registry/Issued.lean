import PushMesh.Proofs.Registry.Leaving

/-!
# What an id stands for

A registration uses up the next id, and uses it up even where its user has no slot left. So the ids of
a registry follow its salt one by one (`Counted.issued_run`), as long as their counter does not wrap
around. An id that was used up for a connection stands for that connection from then on
(`Numbered.exists_twin_run`), and once it has left it does not come back (`Numbered.gone_run`). An
operation changes nothing about the ids that it does not concern (`entry_execute`).
-/

namespace PushMesh

/-- Whether an operation does something to a connection. -/
def Operation.concerns : Operation → Connection → Bool
  | .send a _, c => a.reaches c
  | .disconnect a, c => a.covers c
  | _, _ => false

theorem Connection.Twins.trans {c d e : Connection} (h : c.Twins d) (h' : d.Twins e) : c.Twins e :=
  ⟨h.id.trans h'.id, h.userId.trans h'.userId, h.accessToken.trans h'.accessToken,
    h.tags.trans h'.tags⟩

theorem Connection.Twins.symm {c d : Connection} (h : c.Twins d) : d.Twins c :=
  ⟨h.id.symm, h.userId.symm, h.accessToken.symm, h.tags.symm⟩

namespace Registry

variable {nodeId : String} {limits : Limits} {salt : ConnectionId} {n : Nat} {r s : Registry}
  {id : ConnectionId}

/-- The id that an action uses up, if the counter of ids moves in it. -/
def issued (r : Registry) (a : Action) : List ConnectionId :=
  if (r.act a).lastId = r.lastId then [] else [(r.act a).lastId]

/-- Whether a connection was registered once and is so no more. -/
def Gone (r : Registry) (id : ConnectionId) : Prop :=
  (r.handle? id).isSome = true ∧ id ∉ r.registered

/-- All that is known of an id: its connection, and that connection again while it is registered. -/
def entry (r : Registry) (id : ConnectionId) : Option Connection × Option Connection :=
  (r.handle? id, r.get? id)

/-! ## Ids that are used up -/

/-- An action uses up the next ids, as many as it hands out. -/
theorem Counted.issued (h : Counted nodeId limits salt n r) (a : Action)
    (hn : salt.toNat + (n + r.handsOut a) < 2 ^ 64) :
    (r.issued a).map (·.toNat) = List.range' (salt.toNat + n + 1) (r.handsOut a) := by
  have hbefore := h.lastId_eq
  have hafter := (h.act a hn).lastId_eq
  have hcases : r.handsOut a = 0 ∨ r.handsOut a = 1 := by
    have := r.handsOut_le_one a
    omega
  rw [Registry.issued]
  rcases hcases with hzero | hone
  · have hsame : (r.act a).lastId = r.lastId := by
      apply UInt64.toNat_inj.1
      rw [hafter, hbefore, hzero, Nat.add_zero]
    rw [if_pos hsame, hzero]
    rfl
  · have hmoved : (r.act a).lastId ≠ r.lastId := by
      intro hsame
      rw [hsame, hbefore, hone] at hafter
      omega
    rw [if_neg hmoved, hone, List.map_singleton, hafter, hone, ← Nat.add_assoc]
    rfl

/-- A run uses up ids one after the other: by induction on the actions. -/
theorem Counted.issued_run (h : Counted nodeId limits salt n r) (actions : List Action)
    (hn : salt.toNat + (n + r.handedOut actions) < 2 ^ 64) :
    ((r.along Registry.issued actions).flatten).map (·.toNat) =
      List.range' (salt.toNat + n + 1) (r.handedOut actions) := by
  induction actions generalizing r n with
  | nil => rfl
  | cons a actions ih =>
    rw [handedOut, ← Nat.add_assoc n] at hn
    have hrest := ih (h.act a (by omega)) hn
    have hnext : salt.toNat + (n + r.handsOut a) + 1 = salt.toNat + n + 1 + r.handsOut a := by omega
    rw [along, List.flatten_cons, List.map_append, h.issued a (by omega), hrest, hnext,
      List.range'_append_1, handedOut]

/-- The ids that a run uses up lie between its salt and as many ids further on. -/
theorem Counted.mem_issued_run (h : Counted nodeId limits salt n r) {actions : List Action}
    (hn : salt.toNat + (n + r.handedOut actions) < 2 ^ 64)
    (hid : id ∈ (r.along Registry.issued actions).flatten) :
    salt.toNat + n < id.toNat ∧ id.toNat ≤ salt.toNat + n + r.handedOut actions := by
  have hmem := List.mem_map_of_mem (f := (·.toNat)) hid
  rw [h.issued_run actions hn, List.mem_range'_1] at hmem
  omega

/-- Who joins has the id that was used up for it. -/
theorem Counted.joined_sublist (h : Counted nodeId limits salt n r) (a : Action)
    (hn : salt.toNat + (n + r.handsOut a) < 2 ^ 64) : (r.joined a).Sublist (r.issued a) := by
  cases a with
  | register owner connectedAt capacity =>
    rcases register_cases (h.consistent.tight .user) owner connectedAt capacity with
      ⟨-, heq⟩ | ⟨-, user, -, -, heq⟩ | ⟨hroom, -, heq⟩
    · rw [joined, heq]
      exact List.nil_sublist _
    · rw [joined, heq]
      exact List.nil_sublist _
    · rw [Registry.handsOut, if_pos hroom] at hn
      have hlast : (r.act (.register owner connectedAt capacity)).lastId = r.lastId + 1 := by
        rw [Registry.act, heq]
        rfl
      have hmoved : r.lastId + 1 ≠ r.lastId := by
        intro hsame
        have hnext := h.toNat_lastId_add_one hn
        rw [hsame] at hnext
        omega
      rw [joined, heq, Registry.issued, hlast, if_neg hmoved]
      exact List.Sublist.refl _
  | _ => exact List.nil_sublist _

/-- Every id that is registered under was given out before, in the same order. -/
theorem Counted.joined_sublist_run (h : Counted nodeId limits salt n r) (actions : List Action)
    (hn : salt.toNat + (n + r.handedOut actions) < 2 ^ 64) :
    ((r.along joined actions).flatten).Sublist ((r.along Registry.issued actions).flatten) := by
  induction actions generalizing r n with
  | nil => exact List.Sublist.refl _
  | cons a actions ih =>
    rw [handedOut, ← Nat.add_assoc n] at hn
    rw [along, along, List.flatten_cons, List.flatten_cons]
    exact (h.joined_sublist a (by omega)).append (ih (h.act a (by omega)) hn)

/-! ## What an id stands for -/

/-- In a revision an id stands for the same connection. -/
theorem Revised.exists_twin (hs : Revised r s) {c : Connection} (hc : r.handle? id = some c) :
    ∃ d, s.handle? id = some d ∧ d.Twins c := by
  induction hs with
  | refl => exact ⟨c, hc, .refl c⟩
  | @put s d e _ hd he ih =>
    obtain ⟨d', hd', htwins⟩ := ih
    rw [handle?_put]
    split
    · next hid =>
      rw [hid, he.id, hd] at hd'
      obtain rfl := Option.some.inj hd'
      exact ⟨e, rfl, he.trans htwins⟩
    · exact ⟨d', hd', htwins⟩
  | @unregister s _ id' ih =>
    rw [handle?_unregister]
    exact ih
  | meter _ _ ih => exact ih

/-- An action keeps every connection known, with the same id and owner. -/
theorem Numbered.exists_twin_act (h : Numbered salt n r) (a : Action)
    (hn : n + r.handsOut a ≤ 2 ^ 64) {c : Connection} (hc : r.handle? id = some c) :
    ∃ d, (r.act a).handle? id = some d ∧ d.Twins c := by
  cases hregister : a.isRegister with
  | false => exact (revised_act h.toStored hregister).exists_twin hc
  | true =>
    cases a with
    | register owner connectedAt capacity =>
      rcases register_cases (h.tight .user) owner connectedAt capacity with
        ⟨-, heq⟩ | ⟨-, user, -, -, heq⟩ | ⟨hroom, -, heq⟩
      · rw [Registry.act, heq]
        exact ⟨c, hc, .refl c⟩
      · rw [Registry.act, heq]
        exact ⟨c, hc, .refl c⟩
      · -- the new connection is kept under an id of its own
        rw [handsOut, if_pos hroom] at hn
        have hother : id ≠ (Connection.create (r.lastId + 1) owner connectedAt capacity).id := by
          intro hid
          rw [hid, show (Connection.create (r.lastId + 1) owner connectedAt capacity).id =
            r.lastId + 1 from rfl, h.fresh hn] at hc
          cases hc
        rw [Registry.act, heq, handle?_enter, if_neg hother]
        exact ⟨c, hc, .refl c⟩
    | _ => cases hregister

/-- An id that stands for a connection does so for good: by induction on the actions. -/
theorem Numbered.exists_twin_run (h : Numbered salt n r) (actions : List Action)
    (hn : n + r.handedOut actions ≤ 2 ^ 64) {c : Connection} (hc : r.handle? id = some c) :
    ∃ d, (r.run actions).handle? id = some d ∧ d.Twins c := by
  induction actions generalizing r n c with
  | nil => exact ⟨c, hc, .refl c⟩
  | cons a actions ih =>
    rw [handedOut, ← Nat.add_assoc] at hn
    obtain ⟨d, hd, htwins⟩ := h.exists_twin_act a (by omega) hc
    obtain ⟨e, he, htwins'⟩ := ih (h.act a (by omega)) hn hd
    exact ⟨e, he, htwins'.trans htwins⟩

/-- A connection that has left does not come back. -/
theorem Numbered.gone_act (h : Numbered salt n r) (a : Action) (hn : n + r.handsOut a ≤ 2 ^ 64)
    (hgone : r.Gone id) : (r.act a).Gone id := by
  refine ⟨handle?_isSome_act h.toAligned a hgone.1, ?_⟩
  cases hregister : a.isRegister with
  | false => exact fun hid => hgone.2 ((sheds_act h.toStored hregister).subset id hid)
  | true =>
    cases a with
    | register owner connectedAt capacity =>
      rcases register_cases (h.tight .user) owner connectedAt capacity with
        ⟨-, heq⟩ | ⟨-, user, -, -, heq⟩ | ⟨hroom, -, heq⟩
      · rw [Registry.act, heq]
        exact hgone.2
      · rw [Registry.act, heq]
        exact hgone.2
      · rw [handsOut, if_pos hroom] at hn
        rw [Registry.act, heq]
        -- the id that is given out is new, so it is not the one that is gone
        intro hid
        rcases Ascending.mem_insert.1 hid with rfl | hold
        · have hknown := hgone.1
          rw [show (Connection.create (r.lastId + 1) owner connectedAt capacity).id = r.lastId + 1
            from rfl, h.fresh hn] at hknown
          cases hknown
        · exact hgone.2 hold
    | _ => cases hregister

/-- Who has left does not come back. -/
theorem Numbered.gone_run (h : Numbered salt n r) (actions : List Action)
    (hn : n + r.handedOut actions ≤ 2 ^ 64) (hgone : r.Gone id) : (r.run actions).Gone id := by
  induction actions generalizing r n with
  | nil => exact hgone
  | cons a actions ih =>
    rw [handedOut, ← Nat.add_assoc] at hn
    exact ih (h.act a (by omega)) hn (h.gone_act a (by omega) hgone)

/-! ## What an operation leaves alone -/

/-- An operation changes nothing about an id whose connection it does not concern. -/
theorem entry_execute (h : r.Aligned) (op : Operation)
    (hnone : ∀ c, r.get? id = some c → op.concerns c = false) :
    (r.act (.execute op)).entry id = r.entry id := by
  have hact : r.act (.execute op) = if op.check = .ok () then (r.perform op).1 else r :=
    fst_respond r op
  rw [hact]
  split
  · cases op with
    | send a m =>
      have hsent := sent_deliver h a m
      have hhandle := hsent.others id hnone
      have hregistered : (r.perform (.send a m)).1.registered = r.registered :=
        (congrArg Registry.registered hsent.frame :)
      have hget : (r.perform (.send a m)).1.get? id = r.get? id := by
        rw [get?, get?, hregistered]
        exact congrArg (fun found => if r.registered.contains id then found else none) hhandle
      exact Prod.ext hhandle hget
    | disconnect a =>
      obtain ⟨hhandle, hget⟩ := (closed_closeIds h a).others id hnone
      exact Prod.ext hhandle hget
    | query _ _ | queryAll | listKeys _ | count => rfl
  · rfl

/-- Running an operation again and again changes nothing about an id whose connection it does not
concern, and which therefore stays the same. -/
theorem entry_run_execute (h : r.Aligned) {op : Operation} {actions : List Action}
    (hactions : ∀ a ∈ actions, a = .execute op)
    (hnone : ∀ c, r.get? id = some c → op.concerns c = false) :
    (r.run actions).entry id = r.entry id := by
  induction actions generalizing r with
  | nil => rfl
  | cons a actions ih =>
    obtain ⟨rfl, hrest⟩ := List.forall_mem_cons.1 hactions
    have hfirst := entry_execute h op hnone
    have haligned : (r.act (.execute op)).Aligned :=
      (revised_act h.toStored rfl).aligned h
    have hget : (r.act (.execute op)).get? id = r.get? id := congrArg Prod.snd hfirst
    exact (ih haligned hrest (hget.symm ▸ hnone)).trans hfirst

end Registry

end PushMesh
