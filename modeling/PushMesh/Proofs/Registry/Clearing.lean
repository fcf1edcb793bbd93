import PushMesh.Proofs.Registry.Admission
import PushMesh.Proofs.Registry.Toll

/-!
# Taking connections out

A disconnect, a sweep and a shutdown take out the registered connections that pass a test: those that
are meant, those that are dead, all of them. `Cleared` says what that makes of a registry, and it holds
whenever the listed ids of registered connections are those that pass (`cleared_closeIds`). A sweep
leaves no dead connection behind, so that a second one finds nothing (`Aligned.sweep_sweep`), and with
everything closed nothing is listed anywhere (`Aligned.vacant_closeAll`).
-/

namespace PushMesh.Registry

variable {r s : Registry} {p : Connection → Bool} {n : Nat}

/-! ## Closing what passes a test -/

/-- What a registry is after the connections that pass a test were taken out and closed, and how many
these were. -/
structure Cleared (p : Connection → Bool) (r s : Registry) (n : Nat) : Prop where
  /-- What is registered and passes is closed, with a signal to its receiving end, and leaves. -/
  closed : ∀ id c, r.get? id = some c → p c = true →
    s.handle? id = some { c with isOpen := false, closeSignal := true } ∧ s.get? id = none
  /-- Everything else stays as it is, with its queue and its count, and stays registered if it is. -/
  others : ∀ id, (∀ c, r.get? id = some c → p c = false) →
    s.handle? id = r.handle? id ∧ s.get? id = r.get? id
  /-- The indexes list what they listed, but for what left. -/
  listed : ∀ kind key id, id ∈ (s.index kind).ids key ↔
    id ∈ (r.index kind).ids key ∧ ∀ c, r.get? id = some c → p c = false
  /-- The bookkeeping is in order, and no index is left with an entry that lists nothing. -/
  aligned : s.Aligned
  count : n = r.roster.countP p
  roster : s.roster = r.roster.filter fun c => !p c
  /-- Each connection that left gives its slot back, and so it does for its user. -/
  slots : s.active + n = r.active
  held : ∀ user, (s.users.ids user).size +
    r.roster.countP (fun c => p c && decide (c.userId = some user)) = (r.users.ids user).size
  frame : s = { r with
    pool := s.pool, registered := s.registered, users := s.users, tokens := s.tokens, tags := s.tags,
    active := s.active, closed := r.closed + n }

/-- Closing changes nothing that all connections have in common. -/
theorem frame_closeIds (hr : r.Stored) (ids : List ConnectionId) : (r.closeIds ids).1 = { r with
    pool := (r.closeIds ids).1.pool, registered := (r.closeIds ids).1.registered,
    users := (r.closeIds ids).1.users, tokens := (r.closeIds ids).1.tokens,
    tags := (r.closeIds ids).1.tags, active := (r.closeIds ids).1.active,
    closed := r.closed + (r.closeIds ids).2 } := by
  let Frame (r s : Registry) (n : Nat) : Prop := s = { r with
    pool := s.pool, registered := s.registered, users := s.users, tokens := s.tokens, tags := s.tags,
    active := s.active, closed := r.closed + n }
  have hrefl : ∀ r, Frame r r 0 := fun r => rfl
  have htrans : ∀ {r s t k n}, Frame r s k → Frame s t n → Frame r t (k + n) := by
    intro r s t k n hs ht
    rw [hs] at ht
    rw [ht, Nat.add_assoc]
  -- each round changes these parts of the registry only
  have hstep : ∀ r id, r.Stored → Frame r (r.closeOne id).1 (if (r.closeOne id).2 then 1 else 0) := by
    intro r id _
    cases hc : r.get? id with
    | none =>
      rw [closeOne_none hc]
      exact hrefl r
    | some c =>
      rw [closeOne_some hc, unregister, hc]
      rfl
  rw [closeIds_eq]
  exact each_moves touches_closeOne Frame hrefl htrans hstep hr ids

/-- What is closed is registered no longer, and everything else is as it was. -/
theorem get?_closeIds (hr : r.Stored) (ids : Ascending ConnectionId) (id : ConnectionId) :
    (r.closeIds ids.toList).1.get? id = if id ∈ ids.toList then none else r.get? id := by
  ext c
  rw [get?_eq_some_iff, registered_closeIds hr, handle?_closeIds hr]
  split
  · next hin => simp [hin]
  · next hout => simp [hout, get?_eq_some_iff]

/-- A registry in which less is registered than in `r` lists what passes. -/
theorem roster_of_get? (hs : s.Stored)
    (hget : ∀ id, s.get? id = (r.get? id).filter p) : s.roster = r.roster.filter p := by
  have hregistered : s.registered = r.idsWhere p := by
    rw [registered_eq_idsWhere hs]
    refine Ascending.ext_mem fun id => ?_
    rw [mem_idsWhere, mem_idsWhere, hget]
    simp [Option.filter_eq_some_iff]
  rw [← connections_idsWhere, roster, connections, connections, hregistered]
  refine List.filterMap_congr fun id hid => ?_
  obtain ⟨c, hc, hp⟩ := mem_idsWhere.1 (Ascending.mem_def.2 hid)
  rw [hget, hc, Option.filter_some, if_pos hp]

/-- What passes one test is split by another. -/
theorem countP_filter_not_add (p q : Connection → Bool) (cs : List Connection) :
    (cs.filter fun c => !p c).countP q + cs.countP (fun c => p c && q c) = cs.countP q := by
  induction cs with
  | nil => rfl
  | cons c cs ih =>
    rw [List.filter_cons, List.countP_cons, List.countP_cons]
    cases p c with
    | true =>
      simp only [Bool.not_true, Bool.false_eq_true, if_false, Bool.true_and]
      omega
    | false =>
      simp only [Bool.not_false, if_true, Bool.false_and, Bool.false_eq_true, if_false,
        List.countP_cons]
      omega

/-- Closing by ids takes out what passes a test, where the ids of the registered connections that pass
are those given. -/
theorem cleared_closeIds (h : r.Aligned) {ids : Ascending ConnectionId}
    (hids : ∀ id c, r.get? id = some c → (id ∈ ids ↔ p c = true)) :
    Cleared p r (r.closeIds ids.toList).1 (r.closeIds ids.toList).2 := by
  have haligned := (revised_closeIds h.toStored ids.toList).aligned h
  have hget : ∀ id, (r.closeIds ids.toList).1.get? id = (r.get? id).filter fun c => !p c := by
    intro id
    rw [get?_closeIds h.toStored]
    cases hc : r.get? id with
    | none => split <;> rfl
    | some c =>
      have hin : id ∈ ids.toList ↔ p c = true := hids id c hc
      rw [Option.filter_some]
      cases hp : p c <;> simp [hin, hp]
  have hroster := roster_of_get? haligned.toStored hget
  have hmoved := count_closeIds h.toStored ids.toList
  constructor
  · intro id c hc hp
    have hin : id ∈ ids.toList := (hids id c hc).2 hp
    rw [handle?_closeIds h.toStored, get?_closeIds h.toStored, if_pos hin, if_pos hin, hc]
    exact ⟨rfl, rfl⟩
  · intro id hnone
    have hsame : (r.get? id).filter (fun c => !p c) = r.get? id := by
      cases hc : r.get? id with
      | none => rfl
      | some c =>
        rw [Option.filter_some, hnone c hc]
        rfl
    refine ⟨?_, (hget id).trans hsame⟩
    rw [handle?_closeIds h.toStored]
    split
    · next hin =>
      -- an id that is listed in vain
      cases hc : r.get? id with
      | none => rfl
      | some c =>
        have hp := (hids id c hc).1 hin
        rw [hnone c hc] at hp
        cases hp
    · rfl
  · intro kind key id
    rw [haligned.indexed, h.indexed, hget]
    simp only [Option.filter_eq_some_iff, Bool.not_eq_true']
    constructor
    · rintro ⟨c, ⟨hc, hp⟩, hkey⟩
      refine ⟨⟨c, hc, hkey⟩, fun d hd => ?_⟩
      rwa [← Option.some.inj (hc.symm.trans hd)]
    · rintro ⟨⟨c, hc, hkey⟩, hnone⟩
      exact ⟨c, ⟨hc, hnone c hc⟩, hkey⟩
  · exact haligned
  · have hsplit := countP_filter_not_add p (fun _ => true) r.roster
    simp only [Bool.and_true, List.countP_true] at hsplit
    change _ + r.roster.countP p = _ at hsplit
    rw [← length_roster h.toStored, ← length_roster haligned.toStored, hroster] at hmoved
    omega
  · exact hroster
  · rw [haligned.active_eq, h.active_eq, hmoved]
  · intro user
    have hsplit := countP_filter_not_add p (fun c => decide (c.userId = some user)) r.roster
    rwa [size_ids_user haligned, size_ids_user h, hroster, ← List.countP_eq_length_filter,
      ← List.countP_eq_length_filter]
  · exact frame_closeIds h.toStored ids.toList

/-! ## Sweeping -/

/-- A sweep takes out what is dead. -/
theorem Aligned.cleared_sweep (h : r.Aligned) :
    Cleared (fun c => !c.isAlive) r r.sweep.1 r.sweep.2 := by
  have hdead : r.deadIds = (r.idsWhere fun c => !c.isAlive).toList := rfl
  rw [sweep, hdead]
  refine cleared_closeIds h fun id c hc => ?_
  rw [mem_idsWhere, hc]
  simp

/-- Whoever is registered after a sweep is alive. -/
theorem Aligned.isAlive_of_sweep (h : r.Aligned) {id : ConnectionId} {c : Connection}
    (hc : r.sweep.1.get? id = some c) : c.isAlive = true := by
  have hmem : c ∈ r.sweep.1.roster := mem_roster.2 ⟨id, hc⟩
  rw [h.cleared_sweep.roster, List.mem_filter] at hmem
  simpa using hmem.2

/-- Where everything is alive, a sweep does nothing. -/
theorem sweep_of_isAlive (halive : ∀ id c, r.get? id = some c → c.isAlive = true) :
    r.sweep = (r, 0) := by
  have hnone : r.deadIds = [] := by
    refine List.filter_eq_nil_iff.2 fun id _ hdead => ?_
    obtain ⟨c, hc, hp⟩ := (Option.any_eq_true _ _).1 hdead
    rw [halive id c hc] at hp
    cases hp
  rw [sweep, hnone]
  rfl

/-- A second sweep finds nothing. -/
theorem Aligned.sweep_sweep (h : r.Aligned) : r.sweep.1.sweep = (r.sweep.1, 0) :=
  sweep_of_isAlive fun _ _ => h.isAlive_of_sweep

/-! ## Closing everything -/

/-- A registry in which nobody is registered, and no key is listed. -/
structure Vacant (r : Registry) : Prop where
  registered : r.registered = ∅
  index : ∀ kind, r.index kind = ∅
  active : r.active = 0

/-- An index without connections has no entries. -/
theorem index_eq_empty (h : r.Aligned) (hnone : r.registered = ∅) (kind : KeyKind) :
    r.index kind = ∅ := by
  refine Table.ext (List.eq_nil_iff_forall_not_mem.2 fun e he => ?_)
  obtain ⟨id, hid⟩ := ((h.tight kind).mem_keys).1 (List.mem_map.2 ⟨e, he, rfl⟩)
  obtain ⟨c, hc, -⟩ := (h.indexed kind e.1 id).1 hid
  have hin := (get?_eq_some_iff.1 hc).1
  rw [hnone] at hin
  cases hin

/-- A registry with an empty roster lists nothing at all. -/
theorem Aligned.vacant (h : r.Aligned) (hnone : r.roster = []) : r.Vacant := by
  have hregistered : r.registered = ∅ := by
    refine Ascending.ext_mem fun id => ⟨fun hid => ?_, nofun⟩
    obtain ⟨c, hc⟩ := h.get? hid
    have hmem : c ∈ r.roster := mem_roster.2 ⟨id, hc⟩
    rw [hnone] at hmem
    cases hmem
  refine ⟨hregistered, index_eq_empty h hregistered, ?_⟩
  rw [h.active_eq, ← length_roster h.toStored, hnone]
  rfl

/-- Closing everything takes out all that is registered. -/
theorem Aligned.cleared_closeAll (h : r.Aligned) :
    Cleared (fun _ => true) r r.closeAll.1 r.closeAll.2 :=
  cleared_closeIds h fun _ _ hc => iff_of_true (get?_eq_some_iff.1 hc).1 rfl

/-- Closing everything leaves nobody. -/
theorem Aligned.vacant_closeAll (h : r.Aligned) : r.closeAll.1.Vacant := by
  refine h.cleared_closeAll.aligned.vacant ?_
  rw [h.cleared_closeAll.roster]
  exact List.filter_eq_nil_iff.2 fun _ _ => Bool.false_ne_true

/-! ## Both -/

/-- What a sweep and the closing of everything make of a registry. -/
structure Clears (r : Registry) : Prop where
  /-- A sweep takes out what was closed, or found without its receiving end, and what has lost it since. -/
  sweep : Cleared (fun c => !c.isOpen || !c.hasReceiver) r r.sweep.1 r.sweep.2
  alive : ∀ id c, r.sweep.1.get? id = some c → c.isOpen = true ∧ c.hasReceiver = true
  again : r.sweep.1.sweep = (r.sweep.1, 0)
  closeAll : Cleared (fun _ => true) r r.closeAll.1 r.closeAll.2
  vacant : r.closeAll.1.Vacant

/-- A sweep and the closing of everything clear a registry as `Clears` says. -/
theorem Aligned.clears (h : r.Aligned) : r.Clears where
  sweep := by
    have hdead : (fun c : Connection => !c.isAlive) = fun c => !c.isOpen || !c.hasReceiver :=
      funext fun c => Bool.not_and c.isOpen c.hasReceiver
    exact hdead ▸ h.cleared_sweep
  alive _ _ hc := Bool.and_eq_true_iff.1 (h.isAlive_of_sweep hc)
  again := h.sweep_sweep
  closeAll := h.cleared_closeAll
  vacant := h.vacant_closeAll

end PushMesh.Registry
