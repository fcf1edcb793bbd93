import PushMesh.Discovery.Task
import PushMesh.Proofs.Discovery.Heartbeat
import PushMesh.Proofs.Json.Reads

/-!
# What a heartbeat leaves behind

A heartbeat that runs with no other commands in between is a function of the store (`run_heartbeat`): the own
entry is refreshed, what is too old then goes from both collections, and the descriptors of what is left are
read. `Refreshed` says the same entry by entry, and how the peers come from what is left, in the order of the
heartbeats and then of the ids (`pairwise_idsWhere`). It holds of every store, also of one whose collections
do not agree, and the task publishes just these peers (`refreshed_beat`).
-/

namespace PushMesh

open Json Json.Reader

/-! ## Descriptors -/

namespace Node

theorem nodup_fields : (fields.map (·.name)).Nodup := by decide

/-- A node is read back. -/
theorem reads_reader (n : Node) : Reads reader n.toJson n := by
  have hfills : Fills fields _ default n :=
    .cons ((reads_string n.id).map _) <|
    .cons ((reads_string n.address).map _) <|
    .cons ((reads_bool n.isSelf).map _) <|
    .nil n
  exact hfills.reads_record nodup_fields

theorem integral_toJson (n : Node) : n.toJson.Integral := by
  simp [toJson]

theorem depth_toJson_le (n : Node) : n.toJson.depth ≤ 1 := by
  refine Json.depth_object_le_iff.2 ⟨_, rfl, ?_⟩
  simp [Json.depth]

/-- A node is decoded from its text. -/
theorem decode_text (n : Node) : decode reader n.toJson.text = .ok n :=
  n.reads_reader.decode_text n.integral_toJson (n.depth_toJson_le.trans (by decide))

end Node

namespace Discovery

/-! ## Times -/

/-- The lifetime is the milliseconds of the seconds, of which there is at least one, as a signed word of 64
bits. -/
theorem toInt_lifetime_eq_bmod (seconds : UInt64) :
    (lifetime seconds).toInt = Int.bmod (max seconds.toNat 1 * 1000) (2 ^ 64) := by
  have hmax : (max seconds 1).toNat = max seconds.toNat 1 := by
    have hle : seconds ≤ 1 ↔ seconds.toNat ≤ 1 := UInt64.le_iff_toNat_le
    show (if seconds ≤ 1 then 1 else seconds).toNat = _
    split
    · next hone => exact (Nat.max_eq_right (hle.1 hone)).symm
    · next hmore => exact (Nat.max_eq_left (Nat.le_of_not_le (mt hle.2 hmore))).symm
  have hsigned : (lifetime seconds).toInt = Int.bmod (max seconds 1 * 1000).toNat (2 ^ 64) :=
    BitVec.toInt_eq_toNat_bmod _
  have hproduct : (max seconds 1 * 1000).toNat = max seconds.toNat 1 * 1000 % 2 ^ 64 := by
    rw [UInt64.toNat_mul, hmax]
    rfl
  have hexact : ((max seconds.toNat 1 * 1000 : Nat) : Int) = max seconds.toNat 1 * 1000 := by omega
  rw [hsigned, hproduct, Int.natCast_emod, Int.emod_bmod, hexact]

/-- Such a word holds the milliseconds of up to (2⁶³ - 1) / 1000 seconds. -/
theorem toInt_lifetime {seconds : UInt64} (h : seconds.toNat ≤ (2 ^ 63 - 1) / 1000) :
    (lifetime seconds).toInt = max seconds.toNat 1 * 1000 := by
  rw [toInt_lifetime_eq_bmod]
  exact Int.bmod_eq_of_le (by omega) (by omega)

/-- Then the time before which a heartbeat is too old does not wrap around either. -/
theorem toInt_cutoff {now : Int64} {seconds : UInt64} (hnow : 0 ≤ now.toInt)
    (h : seconds.toNat ≤ (2 ^ 63 - 1) / 1000) :
    (cutoff now seconds).toInt = now.toInt - max seconds.toNat 1 * 1000 := by
  have hhigh := Int64.toInt_lt now
  rw [cutoff, Int64.toInt_sub, toInt_lifetime h]
  exact Int.bmod_eq_of_le (by omega) (by omega)

/-! ## The store -/

namespace Store

variable {s : Store} {self : Node} {now : Int} {id : String} {ids : List String}

/-- Whether the last heartbeat of a node is listed before that of another one. -/
def Precedes (s : Store) (a b : String) : Prop :=
  ∃ ta tb, s.beats.get? a = some ta ∧ s.beats.get? b = some tb ∧ (ta < tb ∨ ta = tb ∧ a < b)

/-- Entries that are sorted by their times keep their order where the times are the same. -/
theorem filter_mergeSort (l : List (String × Int)) (time : Int) :
    (l.mergeSort fun a b => a.2 ≤ b.2).filter (·.2 = time) = l.filter (·.2 = time) := by
  have hsame : (l.filter (·.2 = time)).Pairwise fun a b => decide (a.2 ≤ b.2) = true := by
    rw [List.pairwise_iff_forall_sublist]
    intro a b hab
    have htime : ∀ e ∈ [a, b], e.2 = time := fun e he => by
      simpa using (List.mem_filter.1 (hab.subset he)).2
    rw [htime a (by simp), htime b (by simp)]
    exact decide_eq_true (Int.le_refl time)
  have hsublist : (l.filter (·.2 = time)).Sublist (l.mergeSort fun a b => a.2 ≤ b.2) :=
    List.sublist_mergeSort (by simp; omega) (by simp; omega) hsame List.filter_sublist
  have hfiltered := hsublist.filter (·.2 = time)
  rw [List.filter_filter] at hfiltered
  simp only [Bool.and_self] at hfiltered
  have hlength := ((List.mergeSort_perm l fun a b => a.2 ≤ b.2).filter (·.2 = time)).length_eq
  exact (hfiltered.eq_of_length hlength.symm).symm

/-- Ids are listed by the times of their heartbeats, and in their own order at the same time. -/
theorem pairwise_idsWhere (s : Store) (p : Int → Bool) : (s.idsWhere p).Pairwise s.Precedes := by
  -- entries are kept by their ids, and the sort by time is stable
  have hascending : (s.beats.entries.filter fun e => p e.2).Pairwise
      fun a b => compare a.1 b.1 = .lt := s.beats.ascending.filter _
  have hsorted : ((s.beats.entries.filter fun e => p e.2).mergeSort fun a b => a.2 ≤ b.2).Pairwise
      fun a b => decide (a.2 ≤ b.2) = true :=
    List.pairwise_mergeSort (by simp; omega) (by simp; omega) _
  rw [idsWhere, List.pairwise_map, List.pairwise_iff_forall_sublist]
  intro a b hab
  have hbeat : ∀ e ∈ [a, b], s.beats.get? e.1 = some e.2 := by
    intro e he
    have hlisted := List.mem_mergeSort.1 (hab.subset he)
    exact Table.get?_eq_some_iff.2 (List.mem_filter.1 hlisted).1
  have hle : a.2 ≤ b.2 := by
    simpa using List.pairwise_iff_forall_sublist.1 hsorted hab
  refine ⟨a.2, b.2, hbeat a (by simp), hbeat b (by simp), ?_⟩
  rcases Int.lt_or_eq_of_le hle with hlt | heq
  · exact .inl hlt
  · -- at the same time the two stand as they did before they were sorted
    have hpair : [a, b].Sublist (s.beats.entries.filter fun e => p e.2) := by
      have hboth := hab.filter (·.2 = b.2)
      rw [filter_mergeSort] at hboth
      simpa [heq] using hboth.trans List.filter_sublist
    have hlt := List.pairwise_iff_forall_sublist.1 hascending hpair
    exact .inr ⟨heq, compareOfLessAndEq_eq_lt.1 hlt⟩

/-- The node that a descriptor names, if there is one that can be read; a flag in it is cleared. -/
def node? (s : Store) (id : String) : Option Node := do
  let n ← (Node.reader.decode (← s.descriptors.get? id)).toOption
  return { n with isSelf := false }

/-- The store with a fresh entry of a node. -/
def refresh (s : Store) (self : Node) (now : Int) : Store :=
  ⟨s.descriptors.insert self.id (descriptorText self), s.beats.insert self.id now⟩

/-- The store without any entry of some nodes. -/
def without (s : Store) (ids : List String) : Store :=
  ⟨ids.foldl Table.erase s.descriptors, ids.foldl Table.erase s.beats⟩

/-- A refresh sets the heartbeat of its own node and of no other. -/
theorem get?_beats_refresh :
    (s.refresh self now).beats.get? id = if id = self.id then some now else s.beats.get? id := by
  simp [refresh]

/-- A refresh sets the descriptor of its own node and of no other. -/
theorem get?_descriptors_refresh : (s.refresh self now).descriptors.get? id =
    if id = self.id then some (descriptorText self) else s.descriptors.get? id := by
  simp [refresh]

/-- The nodes that are pruned lose their heartbeat, and no other does. -/
theorem get?_beats_without :
    (s.without ids).beats.get? id = if id ∈ ids then none else s.beats.get? id :=
  get?_foldl_erase ids s.beats id

/-- The nodes that are pruned lose their descriptor, and no other does. -/
theorem get?_descriptors_without :
    (s.without ids).descriptors.get? id = if id ∈ ids then none else s.descriptors.get? id :=
  get?_foldl_erase ids s.descriptors id

end Store

/-! ## The commands -/

/-- Pruning takes out the nodes that were listed and then goes on. -/
theorem run_prune (expired : List String) (next : Exchange (List Node)) (s : Store) :
    (prune expired next).run s = next.run (s.without expired) := by
  cases expired <;> rfl

/-- The peers are read from the descriptors of the other nodes, in the order in which these are listed. -/
theorem run_readPeers (self : Node) (live : List String) (s : Store) :
    (readPeers self live).run s =
      (s, some (Membership.remotePeers self ((live.filter (· != self.id)).filterMap s.node?))) := by
  rw [readPeers]
  generalize live.filter (· != self.id) = ids
  cases ids with
  | nil => rfl
  | cons id ids =>
    have hread : peersOf self (((id :: ids).map s.descriptors.get?).take (id :: ids).length) =
        Membership.remotePeers self ((id :: ids).filterMap s.node?) := by
      rw [List.take_of_length_le (by rw [List.length_map]), peersOf, List.filterMap_map]
      rfl
    rw [← hread]
    rfl

/-- The store after a heartbeat that finds it alone. -/
def Store.beaten (s : Store) (self : Node) (now limit : Int) : Store :=
  (s.refresh self now).without ((s.refresh self now).idsWhere (· < limit))

/-- **A heartbeat as a function of the store.** -/
theorem run_heartbeat (self : Node) (seconds : UInt64) (now : Int64) (s : Store) :
    let limit := (cutoff now seconds).toInt
    let left := s.beaten self now.toInt limit
    (heartbeat self seconds now).run s =
      (left, some (Membership.remotePeers self
        (((left.idsWhere (limit ≤ ·)).filter (· != self.id)).filterMap left.node?))) := by
  intro limit left
  have hpruned : (heartbeat self seconds now).run s =
      (Exchange.askIds (.beatsFrom limit) (readPeers self)).run left :=
    run_prune _ _ _
  rw [hpruned]
  exact run_readPeers self (left.idsWhere (limit ≤ ·)) left

/-! ## Entry by entry -/

/-- What a heartbeat makes of a store, where heartbeats before `limit` are too old, and which peers it
finds. -/
structure Refreshed (self : Node) (now limit : Int) (s s' : Store) (peers : List Node) : Prop where
  /-- The own descriptor is that of a node that is not flagged. -/
  descriptor : ∃ text, s'.descriptors.get? self.id = some text ∧
    Node.reader.decode text = .ok { self with isSelf := false }
  beat : s'.beats.get? self.id = some now
  /-- Another node whose heartbeat is too old is removed from both collections. -/
  removed : ∀ id time, id ≠ self.id → s.beats.get? id = some time → time < limit →
    s'.beats.get? id = none ∧ s'.descriptors.get? id = none
  /-- Every other entry of another node stays as it is. -/
  kept : ∀ id, id ≠ self.id → (∀ time, s.beats.get? id = some time → limit ≤ time) →
    s'.beats.get? id = s.beats.get? id ∧ s'.descriptors.get? id = s.descriptors.get? id
  /-- The peers are those that the readable descriptors of what is left name. -/
  peers : ∃ ids : List String, ids.Pairwise s'.Precedes ∧
    (∀ id, id ∈ ids ↔ id ≠ self.id ∧ ∃ time, s'.beats.get? id = some time) ∧
    peers = Membership.remotePeers self (ids.filterMap s'.node?)

variable {self : Node} {now limit : Int} {s : Store} {id : String}

/-- Another node is found to be gone if its heartbeat is too old; the own one is fresh. -/
theorem mem_expired_iff (hlimit : limit ≤ now) :
    id ∈ (s.refresh self now).idsWhere (· < limit) ↔
      id ≠ self.id ∧ ∃ time, s.beats.get? id = some time ∧ time < limit := by
  rw [Store.mem_idsWhere, Store.get?_beats_refresh]
  simp only [decide_eq_true_eq]
  by_cases hid : id = self.id
  · simp [hid, hlimit]
  · simp [hid]

/-- What a heartbeat leaves of the entry of another node. -/
theorem get?_beaten_of_ne (hlimit : limit ≤ now) (hid : id ≠ self.id) :
    (s.beaten self now limit).beats.get? id =
        (if ∃ time, s.beats.get? id = some time ∧ time < limit then none else s.beats.get? id) ∧
      (s.beaten self now limit).descriptors.get? id =
        if ∃ time, s.beats.get? id = some time ∧ time < limit then none
        else s.descriptors.get? id := by
  rw [Store.beaten, Store.get?_beats_without, Store.get?_descriptors_without,
    Store.get?_beats_refresh, Store.get?_descriptors_refresh]
  simp only [mem_expired_iff hlimit, hid, ne_eq, not_false_eq_true, true_and, if_false, and_self]

/-- The entry of its own node is fresh after a heartbeat. -/
theorem get?_beaten_self (hlimit : limit ≤ now) :
    (s.beaten self now limit).beats.get? self.id = some now ∧
      (s.beaten self now limit).descriptors.get? self.id = some (descriptorText self) := by
  have hout : self.id ∉ (s.refresh self now).idsWhere (· < limit) :=
    fun hin => ((mem_expired_iff hlimit).1 hin).1 rfl
  rw [Store.beaten, Store.get?_beats_without, Store.get?_descriptors_without, if_neg hout,
    if_neg hout, Store.get?_beats_refresh, Store.get?_descriptors_refresh, if_pos rfl, if_pos rfl]
  exact ⟨rfl, rfl⟩

/-- No heartbeat that is left is too old. -/
theorem le_of_get?_beaten (hlimit : limit ≤ now) {time : Int}
    (hbeat : (s.beaten self now limit).beats.get? id = some time) : limit ≤ time := by
  by_cases hid : id = self.id
  · rw [hid, (get?_beaten_self hlimit).1] at hbeat
    obtain rfl := Option.some.inj hbeat
    exact hlimit
  · rw [(get?_beaten_of_ne hlimit hid).1] at hbeat
    split at hbeat
    · cases hbeat
    · next hnone => exact Int.not_lt.1 fun hlt => hnone ⟨time, hbeat, hlt⟩

/-- A store that was refreshed and pruned in one go is as `Refreshed` says. -/
theorem refreshed_beaten (s : Store) (hlimit : limit ≤ now) :
    Refreshed self now limit s (s.beaten self now limit) (Membership.remotePeers self
      ((((s.beaten self now limit).idsWhere (limit ≤ ·)).filter (· != self.id)).filterMap
        (s.beaten self now limit).node?)) where
  descriptor := ⟨_, (get?_beaten_self hlimit).2, Node.decode_text _⟩
  beat := (get?_beaten_self hlimit).1
  removed id time hid htime hlt := by
    rw [(get?_beaten_of_ne hlimit hid).1, (get?_beaten_of_ne hlimit hid).2,
      if_pos ⟨time, htime, hlt⟩, if_pos ⟨time, htime, hlt⟩]
    exact ⟨rfl, rfl⟩
  kept id hid hlate := by
    have hnone : ¬∃ time, s.beats.get? id = some time ∧ time < limit :=
      fun ⟨time, htime, hlt⟩ => absurd (hlate time htime) (Int.not_le.2 hlt)
    rw [(get?_beaten_of_ne hlimit hid).1, (get?_beaten_of_ne hlimit hid).2, if_neg hnone,
      if_neg hnone]
    exact ⟨rfl, rfl⟩
  peers := by
    refine ⟨_, (Store.pairwise_idsWhere _ _).filter _, fun id => ?_, rfl⟩
    rw [List.mem_filter, Store.mem_idsWhere, bne_iff_ne, and_comm]
    refine and_congr_right fun _ => exists_congr fun time => ?_
    exact and_iff_left_of_imp fun hbeat => decide_eq_true (le_of_get?_beaten hlimit hbeat)

/-- A heartbeat that finds peers is a success of the task. -/
theorem Task.beat_of_run (t : Task) {seconds : UInt64} {now : Int64} {s' : Store} {peers : List Node}
    (hrun : (heartbeat self seconds now).run s = (s', some peers)) :
    t.beat self seconds now s = (s', t.succeed peers) := by
  rw [Task.beat, hrun]

/-- **The effect of one heartbeat.** Whatever the store holds, a heartbeat with no other commands in between
leaves the own descriptor and the own time there, removes from both collections exactly the other nodes whose
heartbeat is older than the lifetime, and publishes the peers that the readable descriptors of the nodes left
name, in the order of their heartbeats and then of their ids: these are the members that the task knows from
then on. -/
theorem refreshed_beat (t : Task) (self : Node) {seconds : UInt64} {now : Int64} (s : Store)
    (hnow : 0 ≤ now.toInt) (hseconds : seconds.toNat ≤ (2 ^ 63 - 1) / 1000) :
    ∃ s' peers, t.beat self seconds now s = (s', t.succeed peers) ∧
      (t.beat self seconds now s).2.members = peers ∧
      Refreshed self now.toInt (now.toInt - max seconds.toNat 1 * 1000) s s' peers := by
  have hcutoff := toInt_cutoff hnow hseconds
  have hrun := run_heartbeat self seconds now s
  rw [hcutoff] at hrun
  have hbeat := t.beat_of_run hrun
  exact ⟨_, _, hbeat, congrArg (·.2.members) hbeat, refreshed_beaten s (by omega)⟩

/-- A store whose collections do not agree: the own entry is old, `b` has no descriptor, that of `c` cannot
be read, `d` is too old, `e` is at the very limit, and `f` has a descriptor alone. -/
def motley : Store :=
  ⟨.ofList [("a", "?"), ("c", "?"), ("d", descriptorText (.peer "d" "d:1")),
      ("e", descriptorText (.peer "e" "e:1")), ("f", descriptorText (.peer "f" "f:1"))],
    .ofList [("a", 3), ("b", 50000), ("c", 50000), ("d", 34999), ("e", 35000)]⟩

/-- A heartbeat over stale, broken and current entries is a refresh. -/
theorem refreshed_beat_motley :
    0 ≤ (50000 : Int64).toInt ∧ (15 : UInt64).toNat ≤ (2 ^ 63 - 1) / 1000 ∧
      ∃ s' peers, (Task.start []).beat (.peer "a" "a:1") 15 50000 motley =
          (s', (Task.start []).succeed peers) ∧
        ((Task.start []).beat (.peer "a" "a:1") 15 50000 motley).2.members = peers ∧
        Refreshed (.peer "a" "a:1") (50000 : Int64).toInt
          ((50000 : Int64).toInt - max (15 : UInt64).toNat 1 * 1000) motley s' peers := by
  have hnow : 0 ≤ (50000 : Int64).toInt := by decide
  have hseconds : (15 : UInt64).toNat ≤ (2 ^ 63 - 1) / 1000 := by decide
  exact ⟨hnow, hseconds, refreshed_beat (Task.start []) (.peer "a" "a:1") motley hnow hseconds⟩

end Discovery

end PushMesh
