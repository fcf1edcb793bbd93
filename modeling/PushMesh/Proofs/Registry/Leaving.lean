import PushMesh.Proofs.Registry.Distinct
import PushMesh.Proofs.Registry.Effect

/-!
# Connections that leave are counted once

Whatever takes connections out of a registry says how many. `conserved_run` adds that up over a run:
each connection that joined is registered still or left in one action, and every action reports just
as many as left in it. It rests on what one action does (`sheds_act`, `Numbered.partition_act`): all
but a registration make the registered connections fewer by what they report, and a registration adds
a new one.
-/

namespace PushMesh

/-- The registry after a stream let go of its receiving end. -/
def Stream.letGo (s : Stream) (r : Registry) : Registry :=
  match r.handle? s.connection with
  | none => r
  | some c => r.put c.dropReceiver

/-- A cleanup lets go of the receiving end and then closes the connection. -/
theorem Stream.cleanUp_eq (s : Stream) (r : Registry) :
    s.cleanUp r = ((s.letGo r).closeOne s.connection).1 := rfl

namespace Registry

/-! ## What is reported -/

/-- The number of connections that the clean-up of a stream takes out of a registry: one, if the
connection had not left before. -/
def cleanedUp (r : Registry) (s : Stream) : Nat :=
  if ((s.letGo r).closeOne s.connection).2 then 1 else 0

/-- The number of connections that an action reports to have taken out of a registry. -/
def reported (r : Registry) : Action → Nat
  | .unregister id => if (r.unregister id).2.isSome then 1 else 0
  | .execute (.disconnect a) => ((r.disconnect a).map (·.2)).toOption.getD 0
  | .sweep => r.sweep.2
  | .closeAll => r.closeAll.2
  | .readStream s now => if (s.read r now).ends then r.cleanedUp s else 0
  | .dropStream s => if (s.drop r).2.2 then r.cleanedUp s else 0
  | _ => 0

/-- The connection that an action registers. -/
def joined (r : Registry) : Action → List ConnectionId
  | .register owner connectedAt capacity =>
    match (r.register owner connectedAt capacity).2 with
    | .ok c => [c.id]
    | .error _ => []
  | _ => []

/-- The connections that are registered before an action and no longer after it. -/
def left (r : Registry) (a : Action) : List ConnectionId :=
  r.registered.toList.filter fun id => !(r.act a).registered.contains id

/-- What is observed of each action of a run. -/
def along {α : Type} (observe : Registry → Action → α) : Registry → List Action → List α
  | _, [] => []
  | r, a :: actions => observe r a :: along observe (r.act a) actions

variable {r s t : Registry} {salt : ConnectionId} {n : Nat} {a : Action}

/-! ## One action -/

/-- Nothing is registered that was not, and `n` connections less than before. -/
structure Sheds (r s : Registry) (n : Nat) : Prop where
  subset : ∀ id ∈ s.registered, id ∈ r.registered
  count : r.count = s.count + n

theorem Sheds.trans {k : Nat} (h : Sheds r s k) (h' : Sheds s t n) : Sheds r t (k + n) := by
  refine ⟨fun id hid => h.subset id (h'.subset id hid), ?_⟩
  have := h.count
  have := h'.count
  omega

/-- Where the registered ids stay the same, nothing leaves. -/
theorem sheds_of_registered (h : s.registered = r.registered) : Sheds r s 0 := by
  refine ⟨fun id hid => h ▸ hid, ?_⟩
  rw [count, count, h, Nat.add_zero]

/-- Closing a list of ids takes out as many as it reports. -/
theorem sheds_closeIds (hr : r.Stored) (ids : List ConnectionId) :
    Sheds r (r.closeIds ids).1 (r.closeIds ids).2 :=
  ⟨fun id hid => ((registered_closeIds hr ids id).1 hid).1, count_closeIds hr ids⟩

/-- Closing one connection takes it out if it was registered. -/
theorem sheds_closeOne (hr : r.Stored) (id : ConnectionId) :
    Sheds r (r.closeOne id).1 (if (r.closeOne id).2 then 1 else 0) :=
  ⟨fun id' hid' => ((touches_closeOne.registered r id id' hr).1 hid').1, count_closeOne r id⟩

/-- Unregistering a connection takes it out if it was registered. -/
theorem sheds_unregister (r : Registry) (id : ConnectionId) :
    Sheds r (r.unregister id).1 (if (r.unregister id).2.isSome then 1 else 0) := by
  unfold unregister
  cases hc : r.get? id with
  | none => exact sheds_of_registered rfl
  | some c =>
    refine ⟨fun id' hid' => (Ascending.mem_erase.1 hid').1, ?_⟩
    exact (Ascending.size_erase (get?_eq_some_iff.1 hc).1).symm

/-- A send changes nothing but connections. -/
theorem registered_deliver (r : Registry) (ids : Ascending ConnectionId) (m : Message) :
    (r.deliver ids m).1.registered = r.registered := by
  rw [deliver_eq, each_sendOne_frame]

/-- A disconnect reports those that it closes, and nobody if it is refused. -/
theorem reported_disconnect (r : Registry) (closing : Closing) :
    r.reported (.execute (.disconnect closing)) =
      if (Operation.disconnect closing).check = .ok () then
        (r.closeIds (r.closing closing).toList).2 else 0 := by
  rw [Operation.check]
  simp only [reported, disconnect]
  cases closing.check <;> rfl

/-- An operation takes out as many as it reports closed. -/
theorem sheds_respond (hr : r.Stored) (op : Operation) :
    Sheds r (r.respond op).1 (r.reported (.execute op)) := by
  rw [fst_respond]
  cases op with
  | send audience m =>
    split
    · exact sheds_of_registered (r.registered_deliver _ m)
    · exact sheds_of_registered rfl
  | disconnect closing =>
    rw [reported_disconnect]
    split
    · exact sheds_closeIds hr _
    · exact sheds_of_registered rfl
  | query _ _ | queryAll | listKeys _ | count => split <;> exact sheds_of_registered rfl

/-- Letting go of the receiving end changes nothing but the connection. -/
theorem letGo_keeps (hr : r.Stored) (s : Stream) :
    (s.letGo r).Stored ∧ (s.letGo r).registered = r.registered := by
  unfold Stream.letGo
  cases r.handle? s.connection with
  | none => exact ⟨hr, rfl⟩
  | some c => exact ⟨hr.put _, rfl⟩

/-- The cleanup of a stream takes out its connection if that is still registered. -/
theorem sheds_cleanUp (hr : r.Stored) (s : Stream) : Sheds r (s.cleanUp r) (r.cleanedUp s) := by
  obtain ⟨hstored, hsame⟩ := letGo_keeps hr s
  have hboth := (sheds_of_registered hsame).trans (sheds_closeOne hstored s.connection)
  rwa [Nat.zero_add] at hboth

/-- A clean-up takes its connection out if that is registered, whatever else has become of it. -/
theorem cleanedUp_eq (hr : r.Stored) (s : Stream) :
    r.cleanedUp s = if r.registered.contains s.connection then 1 else 0 := by
  obtain ⟨hstored, hsame⟩ := letGo_keeps hr s
  have hdone : ((s.letGo r).closeOne s.connection).2 = r.registered.contains s.connection := by
    rw [touches_closeOne.done, ← hsame, Bool.eq_iff_iff, Option.any_eq_true, Ascending.contains_iff]
    constructor
    · rintro ⟨c, hc, -⟩
      exact (get?_eq_some_iff.1 hc).1
    · intro hid
      obtain ⟨c, hc⟩ := hstored.get? hid
      exact ⟨c, hc, rfl⟩
  rw [cleanedUp, hdone]

/-- Taking messages out of a queue does not unregister anybody. -/
theorem registered_takeMessages (r : Registry) (s : Stream) :
    (s.takeMessages r).1.registered = r.registered := by
  unfold Stream.takeMessages
  split
  · rfl
  · split
    · rfl
    · split <;> rfl

/-- A read cleans up where it ends the stream, and takes nothing but messages elsewhere. -/
theorem read_cases (r : Registry) (s : Stream) (now : Nat) :
    (s.read r now).ends = false ∧ (s.read r now).registry.registered = r.registered ∨
      (s.read r now).ends = true ∧ (s.read r now).registry = s.cleanUp (s.takeMessages r).1 := by
  have htake := registered_takeMessages r s
  unfold Stream.read
  split
  · exact .inl ⟨rfl, rfl⟩
  · dsimp only
    split
    · next r' heq =>
      rw [heq]
      exact .inr ⟨rfl, rfl⟩
    · next r' messages heq =>
      rw [heq] at htake
      split
      · exact .inl ⟨rfl, htake⟩
      · split <;> exact .inl ⟨rfl, htake⟩

/-- Reading a stream takes out its connection if the stream ends in it. -/
theorem sheds_read (hr : r.Stored) (s : Stream) (now : Nat) :
    Sheds r (s.read r now).registry (r.reported (.readStream s now)) := by
  rcases read_cases r s now with ⟨hends, hsame⟩ | ⟨hends, hclean⟩
  · rw [reported, hends]
    exact sheds_of_registered hsame
  · have htaken := (revised_takeMessages hr s).stored hr
    have hboth := (sheds_of_registered (registered_takeMessages r s)).trans (sheds_cleanUp htaken s)
    rw [cleanedUp_eq htaken, registered_takeMessages, ← cleanedUp_eq hr, Nat.zero_add] at hboth
    rw [reported, hends, hclean]
    exact hboth

/-- Dropping a stream takes out its connection if that is still registered. -/
theorem sheds_drop (hr : r.Stored) (s : Stream) :
    Sheds r (s.drop r).2.1 (r.reported (.dropStream s)) := by
  rw [reported]
  unfold Stream.drop
  split
  · exact sheds_of_registered rfl
  · exact sheds_cleanUp hr s

/-- All but a registration make the registered connections fewer by what they report. -/
theorem sheds_act (hr : r.Stored) (ha : a.isRegister = false) :
    Sheds r (r.act a) (r.reported a) := by
  cases a with
  | register => cases ha
  | unregister id => exact sheds_unregister r id
  | execute op => exact sheds_respond hr op
  | sweep => exact sheds_closeIds hr r.deadIds
  | closeAll => exact sheds_closeIds hr r.registered.toList
  | use id u =>
    apply sheds_of_registered
    dsimp only [act]
    split <;> rfl
  | readStream s now => exact sheds_read hr s now
  | dropStream s => exact sheds_drop hr s

/-- Where nothing new is registered, what was is still registered or has left. -/
theorem Sheds.partition (h : Sheds r (r.act a) n) :
    (r.left a ++ (r.act a).registered.toList).Perm r.registered.toList ∧ n = (r.left a).length := by
  have hstays : ((r.act a).registered.toList).Perm
      (r.registered.toList.filter fun id => (r.act a).registered.contains id) := by
    apply (List.perm_ext_iff_of_nodup (Ascending.nodup _) ((Ascending.nodup _).filter _)).2
    intro id
    rw [List.mem_filter, Ascending.contains_iff]
    exact ⟨fun hid => ⟨h.subset id hid, hid⟩, And.right⟩
  have hsplit : (r.left a ++ (r.act a).registered.toList).Perm r.registered.toList := by
    refine (hstays.append_left _).trans (List.perm_append_comm.trans ?_)
    exact List.filter_append_perm _ _
  refine ⟨hsplit, ?_⟩
  have hlength := hsplit.length_eq
  have hcount := h.count
  simp only [Registry.count, Ascending.size] at hcount
  rw [List.length_append] at hlength
  omega

/-- What one action does to the connections that are registered: some join, some leave, and the
action reports those that leave. -/
theorem Numbered.partition_act (h : Numbered salt n r) (a : Action)
    (hn : n + r.handsOut a ≤ 2 ^ 64) :
    (r.left a ++ (r.act a).registered.toList).Perm (r.joined a ++ r.registered.toList) ∧
      r.reported a = (r.left a).length := by
  cases hregister : a.isRegister with
  | false =>
    -- nothing but a registration lets anybody join
    have hjoined : r.joined a = [] := by
      cases a with
      | register => cases hregister
      | _ => rfl
    rw [hjoined, List.nil_append]
    exact (sheds_act h.toStored hregister).partition
  | true =>
    cases a with
    | register owner connectedAt capacity =>
      -- a registration lets nobody leave
      have hkeeps : ∀ r' : Registry, (r.act (.register owner connectedAt capacity)) = r' →
          (∀ id ∈ r.registered, id ∈ r'.registered) →
          r.left (.register owner connectedAt capacity) = [] := by
        intro r' heq hsub
        apply List.filter_eq_nil_iff.2
        intro id hid
        rw [heq, Ascending.contains_iff.2 (hsub id (Ascending.mem_def.2 hid))]
        exact Bool.false_ne_true
      rcases register_cases (h.tight .user) owner connectedAt capacity with
        ⟨hfull, heq⟩ | ⟨hroom, user, -, -, heq⟩ | ⟨hroom, -, heq⟩
      · have hact : r.act (.register owner connectedAt capacity) = r := by rw [Registry.act, heq]
        rw [hkeeps r hact fun _ hid => hid, hact]
        simp only [joined, heq]
        exact ⟨.refl _, rfl⟩
      · have hact : r.act (.register owner connectedAt capacity) =
          { r with lastId := r.lastId + 1 } := by rw [Registry.act, heq]
        rw [hkeeps _ hact fun _ hid => hid, hact]
        simp only [joined, heq]
        exact ⟨.refl _, rfl⟩
      · -- the new connection is on the list once, as nothing was kept under its id
        let c := Connection.create (r.lastId + 1) owner connectedAt capacity
        have hact : r.act (.register owner connectedAt capacity) = r.enter c := by rw [Registry.act, heq]
        have hnew : c.id ∉ r.registered := by
          rw [handsOut, if_pos hroom] at hn
          exact (h.toStored.fresh (h.fresh hn)).1
        have hafter : ((r.enter c).registered.toList).Perm (c.id :: r.registered.toList) :=
          Ascending.perm_insert hnew
        rw [hkeeps _ hact fun _ hid => Ascending.mem_insert.2 (.inr hid), hact]
        simp only [joined, heq]
        exact ⟨hafter, rfl⟩
    | _ => cases hregister

/-! ## A run -/

/-- A connection that was ever accepted stays known. -/
theorem Revised.handle?_isSome (hs : Revised r s) {id : ConnectionId}
    (hid : (r.handle? id).isSome = true) : (s.handle? id).isSome = true := by
  induction hs with
  | refl => exact hid
  | put _ _ _ ih =>
    rw [handle?_put]
    split
    · rfl
    · exact ih
  | @unregister s _ id' ih =>
    rw [handle?_unregister]
    exact ih
  | meter _ _ ih => exact ih

/-- A connection that was known once stays known, even after it was taken out. -/
theorem handle?_isSome_act (hr : r.Aligned) (a : Action) {id : ConnectionId}
    (hid : (r.handle? id).isSome = true) : ((r.act a).handle? id).isSome = true := by
  cases hregister : a.isRegister with
  | false => exact (revised_act hr.toStored hregister).handle?_isSome hid
  | true =>
    cases a with
    | register owner connectedAt capacity =>
      rcases register_cases (hr.tight .user) owner connectedAt capacity with
        ⟨-, heq⟩ | ⟨-, user, -, -, heq⟩ | ⟨-, -, heq⟩
      · rw [act, heq]
        exact hid
      · rw [act, heq]
        exact hid
      · rw [act, heq, handle?_enter]
        split
        · rfl
        · exact hid
    | _ => cases hregister

/-- A connection that joins gets an id that nothing was kept under, and is kept under it. -/
theorem Numbered.joined_cases (h : Numbered salt n r) (a : Action)
    (hn : n + r.handsOut a ≤ 2 ^ 64) :
    r.joined a = [] ∨ ∃ id, r.joined a = [id] ∧ r.handle? id = none ∧
      ((r.act a).handle? id).isSome = true := by
  cases a with
  | register owner connectedAt capacity =>
    rcases register_cases (h.tight .user) owner connectedAt capacity with
      ⟨-, heq⟩ | ⟨-, user, -, -, heq⟩ | ⟨hroom, -, heq⟩
    · exact .inl (by rw [joined, heq])
    · exact .inl (by rw [joined, heq])
    · rw [handsOut, if_pos hroom] at hn
      refine .inr ⟨r.lastId + 1, ?_, h.fresh hn, ?_⟩
      · rw [joined, heq]
        rfl
      · rw [Registry.act, heq, handle?_enter]
        simp [Connection.create]
  | _ => exact .inl rfl

/-- A connection that joins in a run was not known before. -/
theorem Numbered.handle?_of_mem_joined (h : Numbered salt n r) (actions : List Action)
    (hn : n + r.handedOut actions ≤ 2 ^ 64) {id : ConnectionId}
    (hid : id ∈ (r.along joined actions).flatten) : r.handle? id = none := by
  induction actions generalizing r n with
  | nil => cases hid
  | cons a actions ih =>
    rw [handedOut, ← Nat.add_assoc] at hn
    rw [along, List.flatten_cons, List.mem_append] at hid
    rcases hid with hid | hid
    · rcases h.joined_cases a (by omega) with hnone | ⟨id', hone, hnew, -⟩
      · rw [hnone] at hid
        cases hid
      · rw [hone, List.mem_singleton] at hid
        rwa [hid]
    · have hlater := ih (h.act a (by omega)) hn hid
      by_contra hknown
      have hsome := handle?_isSome_act h.toAligned a (Option.isSome_iff_ne_none.2 hknown)
      rw [hlater] at hsome
      cases hsome

/-- Every connection that joined in a run is registered still or has left in one of the actions, which
reported as many as left in it. -/
structure Conserved (r : Registry) (actions : List Action) : Prop where
  /-- No two connections that joined have the same id. -/
  distinct : (r.along joined actions).flatten.Nodup
  partition : ((r.along left actions).flatten ++ (r.run actions).registered.toList).Perm
    (r.along joined actions).flatten
  reports : r.along reported actions = (r.along left actions).map List.length
  count : (r.along joined actions).flatten.length =
    (r.run actions).count + (r.along reported actions).sum

/-- What a run does to the connections that are registered: by induction on the actions. -/
theorem Numbered.partition_run (h : Numbered salt n r) (actions : List Action)
    (hn : n + r.handedOut actions ≤ 2 ^ 64) :
    (r.along joined actions).flatten.Nodup ∧
      ((r.along left actions).flatten ++ (r.run actions).registered.toList).Perm
        ((r.along joined actions).flatten ++ r.registered.toList) ∧
      r.along reported actions = (r.along left actions).map List.length := by
  induction actions generalizing r n with
  | nil => exact ⟨List.nodup_nil, .refl _, rfl⟩
  | cons a actions ih =>
    rw [handedOut, ← Nat.add_assoc] at hn
    have hact := h.act a (by omega)
    obtain ⟨hdistinct, hpartition, hreports⟩ := ih hact hn
    obtain ⟨hfirst, hreported⟩ := h.partition_act a (by omega)
    refine ⟨?_, ?_, ?_⟩
    · rw [along, List.flatten_cons]
      rcases h.joined_cases a (by omega) with hnone | ⟨id, hone, -, hknown⟩
      · rwa [hnone]
      · -- the new id is known from then on, so nothing that joins later has it
        rw [hone]
        refine List.nodup_cons.2 ⟨fun hid => ?_, hdistinct⟩
        rw [hact.handle?_of_mem_joined actions hn hid] at hknown
        cases hknown
    · rw [along, along, List.flatten_cons, List.flatten_cons, List.append_assoc]
      -- what left first changes places with what joins later, and then goes with what joins first
      refine (hpartition.append_left (r.left a)).trans ?_
      refine (List.perm_append_comm_assoc _ _ _).trans ?_
      refine (hfirst.append_left _).trans ?_
      rw [List.append_assoc]
      exact List.perm_append_comm_assoc _ _ _
    · rw [along, along, List.map_cons, hreported, hreports]

theorem along_append {α : Type} (observe : Registry → Action → α) (r : Registry)
    (actions actions' : List Action) : r.along observe (actions ++ actions') =
      r.along observe actions ++ (r.run actions).along observe actions' := by
  induction actions generalizing r with
  | nil => rfl
  | cons a actions ih => exact congrArg (observe r a :: ·) (ih (r.act a))

/-- Connections that are missing after an action were reported by it. -/
theorem count_le_act (hr : r.Stored) (a : Action) : r.count ≤ (r.act a).count + r.reported a := by
  cases hregister : a.isRegister with
  | false => exact Nat.le_of_eq (sheds_act hr hregister).count
  | true =>
    cases a with
    | register owner connectedAt capacity =>
      apply Nat.le_add_right_of_le
      apply Ascending.size_le_size
      intro id hid
      rcases r.register_stores owner connectedAt capacity with ⟨hsame, -⟩ | ⟨c, hmore, -⟩
      · exact hsame ▸ hid
      · exact hmore ▸ Ascending.mem_insert.2 (.inr hid)
    | _ => cases hregister

/-- A run does not lose a connection without reporting it. -/
theorem count_le_run (hr : r.Stored) (actions : List Action) :
    r.count ≤ (r.run actions).count + (r.along reported actions).sum := by
  induction actions generalizing r with
  | nil => exact Nat.le_refl _
  | cons a actions ih =>
    have hfirst := count_le_act hr a
    have hrest := ih (hr.act a)
    rw [along, List.sum_cons]
    show r.count ≤ ((r.act a).run actions).count + _
    omega

/-- The connections of a registry, from the start on. -/
theorem conserved_run (nodeId : String) (limits : Limits) (salt : ConnectionId)
    (actions : List Action) (hids : (create nodeId limits salt).handedOut actions ≤ 2 ^ 64) :
    Conserved (create nodeId limits salt) actions := by
  obtain ⟨hdistinct, hpartition, hreports⟩ :=
    (numbered_create nodeId limits salt).partition_run actions (by rwa [Nat.zero_add])
  have hnobody : (create nodeId limits salt).registered.toList = [] := rfl
  rw [hnobody, List.append_nil] at hpartition
  refine ⟨hdistinct, hpartition, hreports, ?_⟩
  rw [← hpartition.length_eq, List.length_append, List.length_flatten, hreports, Nat.add_comm]
  rfl

/-- A disconnect that is not refused closes what it covers, be its ids in order or not, and its answer
is the number that it reports. -/
theorem closed_execute (h : r.Aligned) {a b : Closing} (hb : b = a ∨ b = a.normalized)
    {output : Output} (hrun : r.execute (.disconnect b) = .ok (s, output)) :
    Closed a r s (r.reported (.execute (.disconnect b))) ∧
      output = .count (UInt64.ofNat (r.reported (.execute (.disconnect b)))) := by
  obtain ⟨hcheck, hperform⟩ := execute_eq_ok_iff.1 hrun
  have hcheck : b.check = .ok () := hcheck
  have hreported : r.reported (.execute (.disconnect b)) = (r.closeIds (r.closing b).toList).2 := by
    rw [reported, disconnect, hcheck]
    rfl
  have hcovers : ∀ c, b.covers c = a.covers c := by
    intro c
    rcases hb with rfl | rfl
    · rfl
    · exact a.covers_normalized c
  obtain ⟨rfl, rfl⟩ := Prod.mk.inj hperform
  rw [hreported]
  exact ⟨(closed_closeIds h b).congr hcovers, rfl⟩

end Registry

end PushMesh
