import PushMesh.Mesh.Basic
import PushMesh.Proofs.Registry.Clearing
import PushMesh.Proofs.Tally
import Mathlib.Algebra.Order.BigOperators.Group.List
import Mathlib.Algebra.Order.Group.Nat

/-!
# The right answer of several nodes

`Inquiry.Answers` says what the answer of some nodes to an inquiry is: what one registry would answer
that held all their connections. The answer of a single node is right (`answers_of_host`), and two
right answers merge to a right one (`Answers.merge`). So any number of right answers do, whatever
their order (`answers_mergeAll`).
-/

namespace PushMesh

namespace Inquiry

/-- Whether an inquiry is about a connection: whether it finds it, sends it a message that is
accepted, closes it or counts it. -/
def concerns : Inquiry → Connection → Bool
  | query kind key, c => (c.keys kind).contains key
  | send audience _, c => audience.reaches c && c.accepts
  | disconnect closing, c => closing.covers c
  | _, _ => true

/-- The descriptors of the connections of a node that an inquiry is about. -/
def descriptors (inquiry : Inquiry) (h : Host) : List Descriptor :=
  (h.registry.roster.filter inquiry.concerns).map (·.profile h.self.id)

/-- Whether a key is in use on one of several nodes. -/
def InUse (kind : KeyKind) (hosts : List Host) (key : String) : Prop :=
  ∃ h ∈ hosts, ∃ c ∈ h.registry.roster, key ∈ c.keys kind

/-- What the answer of several nodes is. -/
def Answers (inquiry : Inquiry) (hosts : List Host) : Tally → Prop
  | .count n => inquiry.kind = .count ∧
      n.toNat = (hosts.map fun h => h.registry.roster.countP inquiry.concerns).sum
  | .connections s => inquiry.kind = .connections ∧
      s.entries.Perm ((hosts.flatMap inquiry.descriptors).map ConnectionSet.entry)
  | .keys s => ∃ kind, inquiry = listKeys kind ∧ ∀ key, key ∈ s ↔ InUse kind hosts key
  | .distinct s => ∃ kind, inquiry = countKeys kind ∧ ∀ key, key ∈ s ↔ InUse kind hosts key

/-- The number of connections that several nodes hold. -/
def held (hosts : List Host) : Nat :=
  (hosts.map fun h => h.registry.roster.length).sum

variable {inquiry : Inquiry} {hosts hosts' : List Host} {h : Host} {t t' : Tally}

/-- No more connections are counted than are held. -/
theorem sum_countP_le (p : Connection → Bool) (hosts : List Host) :
    (hosts.map fun h => h.registry.roster.countP p).sum ≤ held hosts := by
  induction hosts with
  | nil => exact Nat.le_refl _
  | cons h hosts ih =>
    have hhead := h.registry.roster.countP_le_length (p := p)
    simp only [held, List.map_cons, List.sum_cons] at ih ⊢
    omega

theorem held_append (hosts hosts' : List Host) :
    held (hosts ++ hosts') = held hosts + held hosts' := by
  simp [held]

/-- What hosts hold does not depend on their order. -/
theorem held_perm (hperm : hosts.Perm hosts') : held hosts = held hosts' :=
  (hperm.map _).sum_eq

/-- No host holds more than all of them. -/
theorem length_roster_le_held (hh : h ∈ hosts) : h.registry.roster.length ≤ held hosts :=
  List.single_le_sum (fun _ _ => Nat.zero_le _) _ (List.mem_map.2 ⟨h, hh, rfl⟩)

/-- There are fewer than 2⁶⁴ different words other than zero. -/
theorem length_lt_of_nodup {l : List UInt64} (hl : l.Nodup) (hzero : 0 ∉ l) :
    l.length < 2 ^ 64 := by
  have hnodup : ((0 :: l).map UInt64.toNat).Nodup :=
    (List.nodup_cons.2 ⟨hzero, hl⟩).map fun a b heq => UInt64.toNat_inj.1 heq
  have hrange : (0 :: l).map UInt64.toNat ⊆ List.range (2 ^ 64) := by
    intro n hn
    obtain ⟨a, -, rfl⟩ := List.mem_map.1 hn
    exact List.mem_range.2 a.toNat_lt
  have hle := (List.subperm_of_subset hnodup hrange).length_le
  rwa [List.length_map, List.length_cons, List.length_range] at hle

/-- Nodes that have no connection id in common hold fewer than 2⁶⁴ connections. -/
theorem held_lt (hgrown : ∀ h ∈ hosts, h.registry.Grown h.self.id)
    (hapart : hosts.Pairwise fun h k => ∀ id ∈ h.registry.registered, id ∉ k.registry.registered) :
    held hosts < 2 ^ 64 := by
  have hlength : held hosts = (hosts.flatMap fun h => h.registry.registered.toList).length := by
    rw [List.length_flatMap, held]
    refine congrArg List.sum (List.map_congr_left fun h hh => ?_)
    exact Registry.length_roster (hgrown h hh).consistent.toStored
  rw [hlength]
  refine length_lt_of_nodup (List.nodup_flatMap.2 ⟨fun h _ => h.registry.registered.nodup, ?_⟩) ?_
  · exact hapart.imp fun hdisjoint id hid hid' => hdisjoint id hid hid'
  · intro hzero
    obtain ⟨h, hh, hid⟩ := List.mem_flatMap.1 hzero
    exact (hgrown h hh).ne_zero hid rfl

/-! ## One node -/

/-- The descriptors of one node are its answer. -/
theorem answers_descriptors (hkind : inquiry.kind = .connections) (hstored : h.registry.Stored) :
    inquiry.Answers [h] (.connections (ConnectionSet.ofList (inquiry.descriptors h))) := by
  refine ⟨hkind, ?_⟩
  rw [List.flatMap_singleton]
  refine ConnectionSet.perm_entries_ofList ?_
  have hids : ((h.registry.roster.filter inquiry.concerns).map (·.id)).Nodup :=
    (Registry.nodup_roster hstored).sublist (List.filter_sublist.map _)
  rw [descriptors, List.map_map]
  refine List.Nodup.of_map ConnectionKey.id ?_
  rw [List.map_map]
  exact hids

/-- A count that fits one word is the answer of one node. -/
theorem answers_countP (hkind : inquiry.kind = .count) (hfit : h.registry.roster.length < 2 ^ 64)
    {n : Nat} (hn : n = h.registry.roster.countP inquiry.concerns) :
    inquiry.Answers [h] (.count (UInt64.ofNat n)) := by
  have hle := h.registry.roster.countP_le_length (p := inquiry.concerns)
  refine ⟨hkind, ?_⟩
  rw [List.map_singleton, List.sum_singleton, UInt64.toNat_ofNat', hn]
  exact Nat.mod_eq_of_lt (Nat.lt_of_le_of_lt hle hfit)

/-- The keys of one node. -/
theorem mem_ofList_keys_iff (haligned : h.registry.Aligned) (kind : KeyKind) (key : String) :
    key ∈ Ascending.ofList (h.registry.keys kind) ↔ InUse kind [h] key := by
  rw [Ascending.mem_ofList, Registry.mem_keys_iff haligned]
  simp [InUse]

/-- What an operation brings on one node, in terms of its connections. -/
theorem answers_of_host (haligned : h.registry.Aligned)
    (hnode : h.registry.nodeId = h.self.id) (hfit : h.registry.roster.length < 2 ^ 64)
    (ht : Tally.ofOutput inquiry.kind (h.registry.perform inquiry.operation).2 = .ok t) :
    inquiry.Answers [h] t := by
  cases inquiry with
  | query kind key =>
    obtain rfl := Except.ok.inj ht
    have hfound : h.registry.describe ((h.registry.index kind).ids key) =
        (query kind key).descriptors h := by
      -- the index lists just those with the key
      rw [Registry.describe, Registry.ids_eq_idsWhere haligned, Registry.connections_idsWhere,
        hnode, Connection.describe_eq_profile]
      rfl
    rw [hfound]
    exact answers_descriptors rfl haligned.toStored
  | queryAll =>
    obtain rfl := Except.ok.inj ht
    have hfound : h.registry.queryAll = queryAll.descriptors h := by
      rw [Registry.queryAll, Registry.describe, hnode, Connection.describe_eq_profile, descriptors]
      exact congrArg _ (List.filter_eq_self.2 fun _ _ => rfl).symm
    rw [hfound]
    exact answers_descriptors rfl haligned.toStored
  | listKeys kind =>
    obtain rfl := Except.ok.inj ht
    exact ⟨kind, rfl, mem_ofList_keys_iff haligned kind⟩
  | countKeys kind =>
    obtain rfl := Except.ok.inj ht
    exact ⟨kind, rfl, mem_ofList_keys_iff haligned kind⟩
  | send audience m =>
    obtain rfl := Except.ok.inj ht
    refine answers_countP rfl hfit ?_
    -- a send counts those of its audience that accept
    refine (Registry.snd_deliver_audience haligned audience.normalized m).trans ?_
    refine List.countP_congr fun c _ => ?_
    rw [concerns, Audience.reaches_normalized]
  | disconnect closing =>
    obtain rfl := Except.ok.inj ht
    refine answers_countP rfl hfit ?_
    -- a disconnect counts those that it covers and that are registered
    have hcleared := Registry.cleared_closeIds (p := closing.normalized.covers) haligned
      fun _ _ hc => Registry.mem_closing_iff haligned closing.normalized hc
    refine hcleared.count.trans ?_
    refine List.countP_congr fun c _ => ?_
    rw [concerns, Closing.covers_normalized]
  | count =>
    obtain rfl := Except.ok.inj ht
    refine answers_countP rfl hfit ?_
    -- a count is that of the whole roster
    rw [← Registry.length_roster haligned.toStored]
    exact (congrFun List.countP_true _).symm

/-! ## Several nodes -/

/-- An answer is of the kind that was asked for. -/
theorem Answers.kind_eq (h : inquiry.Answers hosts t) : t.kind = inquiry.kind := by
  cases t with
  | count n => exact h.1.symm
  | connections s => exact h.1.symm
  | keys s =>
    obtain ⟨kind, rfl, -⟩ := h
    rfl
  | distinct s =>
    obtain ⟨kind, rfl, -⟩ := h
    rfl

/-- A key is in use at one of two groups iff it is in use at either. -/
theorem inUse_append {kind : KeyKind} {key : String} :
    InUse kind (hosts ++ hosts') key ↔ InUse kind hosts key ∨ InUse kind hosts' key := by
  simp only [InUse, List.mem_append, or_and_right, exists_or]

/-- An entry of the descriptors of some nodes stands under one of them. -/
theorem nodeId_of_mem_descriptors {e : ConnectionKey × Descriptor}
    (he : e ∈ (hosts.flatMap inquiry.descriptors).map ConnectionSet.entry) :
    ∃ k ∈ hosts, e.1.nodeId = k.self.id := by
  obtain ⟨d, hd, rfl⟩ := List.mem_map.1 he
  obtain ⟨k, hk, hdk⟩ := List.mem_flatMap.1 hd
  obtain ⟨c, -, rfl⟩ := List.mem_map.1 hdk
  exact ⟨k, hk, rfl⟩

/-- Right answers of different nodes merge to the right answer of all of them. -/
theorem Answers.merge (h : inquiry.Answers hosts t) (h' : inquiry.Answers hosts' t')
    (hids : ∀ k ∈ hosts, ∀ k' ∈ hosts', k.self.id ≠ k'.self.id)
    (hfit : held (hosts ++ hosts') < 2 ^ 64) :
    inquiry.Answers (hosts ++ hosts') (t.merge t') := by
  have hkind : t.kind = t'.kind := h.kind_eq.trans h'.kind_eq.symm
  cases t with
  | count n =>
    cases t' with
    | count n' =>
      obtain ⟨hcount, hn⟩ := h
      obtain ⟨-, hn'⟩ := h'
      refine ⟨hcount, ?_⟩
      -- the counts do not wrap, as they count connections that the nodes hold
      have hle := sum_countP_le inquiry.concerns (hosts ++ hosts')
      rw [List.map_append, List.sum_append] at hle ⊢
      rw [UInt64.toNat_add, hn, hn']
      exact Nat.mod_eq_of_lt (Nat.lt_of_le_of_lt hle hfit)
    | connections _ | keys _ | distinct _ => cases hkind
  | connections s =>
    cases t' with
    | connections s' =>
      obtain ⟨hconnections, hs⟩ := h
      obtain ⟨-, hs'⟩ := h'
      refine ⟨hconnections, ?_⟩
      rw [List.flatMap_append, List.map_append]
      refine (ConnectionSet.perm_entries_merge fun e he e' he' heq => ?_).trans (hs.append hs')
      obtain ⟨k', hk', hnode'⟩ := nodeId_of_mem_descriptors (hs'.mem_iff.1 he)
      obtain ⟨k, hk, hnode⟩ := nodeId_of_mem_descriptors (hs.mem_iff.1 he')
      exact hids k hk k' hk' (hnode.symm.trans ((congrArg _ heq.symm).trans hnode'))
    | count _ | keys _ | distinct _ => cases hkind
  | keys s =>
    cases t' with
    | keys s' =>
      obtain ⟨kind, rfl, hs⟩ := h
      obtain ⟨kind', heq, hs'⟩ := h'
      cases heq
      refine ⟨kind, rfl, fun key => ?_⟩
      rw [Ascending.mem_union, inUse_append, hs, hs']
    | count _ | connections _ | distinct _ => cases hkind
  | distinct s =>
    cases t' with
    | distinct s' =>
      obtain ⟨kind, rfl, hs⟩ := h
      obtain ⟨kind', heq, hs'⟩ := h'
      cases heq
      refine ⟨kind, rfl, fun key => ?_⟩
      rw [Ascending.mem_union, inUse_append, hs, hs']
    | count _ | connections _ | keys _ => cases hkind

/-- The order in which nodes are listed does not matter. -/
theorem Answers.perm (h : inquiry.Answers hosts t) (hperm : hosts.Perm hosts') :
    inquiry.Answers hosts' t := by
  have hinUse : ∀ {kind key}, InUse kind hosts key ↔ InUse kind hosts' key := by
    intro kind key
    simp only [InUse, hperm.mem_iff]
  cases t with
  | count n => exact ⟨h.1, h.2.trans (hperm.map _).sum_eq⟩
  | connections s => exact ⟨h.1, h.2.trans ((hperm.flatMap_right _).map _)⟩
  | keys s =>
    obtain ⟨kind, heq, hs⟩ := h
    exact ⟨kind, heq, fun key => (hs key).trans hinUse⟩
  | distinct s =>
    obtain ⟨kind, heq, hs⟩ := h
    exact ⟨kind, heq, fun key => (hs key).trans hinUse⟩

/-- The answer to a count of keys is the number of keys in use. -/
theorem Answers.size_countKeys {kind : KeyKind} (h : (countKeys kind).Answers hosts t)
    {keys : List String} (hkeys : keys.Nodup) (hmem : ∀ key, key ∈ keys ↔ InUse kind hosts key) :
    t.size = keys.length := by
  cases t with
  | count n | connections s =>
    have hkind := h.1
    cases hkind
  | keys s =>
    obtain ⟨kind', heq, -⟩ := h
    cases heq
  | distinct s =>
    obtain ⟨kind', heq, hs⟩ := h
    cases heq
    exact Ascending.size_eq_length hkeys fun key => (hs key).trans (hmem key).symm

/-- A query for a user finds something if and only if one of the nodes has a connection of the user. -/
theorem Answers.foundAny_iff {userId : String} {g : Gathered}
    (h : (queryByUserId userId).Answers hosts g.value) :
    g.foundAny = true ↔ ∃ k ∈ hosts, ∃ c ∈ k.registry.roster, c.userId = some userId := by
  have hconcerns : ∀ c : Connection,
      (queryByUserId userId).concerns c = true ↔ c.userId = some userId := fun c => by
    rw [queryByUserId, concerns, List.contains_iff_mem, Connection.keys, Option.mem_toList]
  rw [Gathered.foundAny, bne_iff_ne]
  generalize g.value = t at h
  cases t with
  | count n =>
    have hkind := h.1
    cases hkind
  | keys s =>
    obtain ⟨kind, heq, -⟩ := h
    cases heq
  | distinct s =>
    obtain ⟨kind, heq, -⟩ := h
    cases heq
  | connections s =>
    have hlength := h.2.length_eq
    rw [List.length_map] at hlength
    change s.entries.length ≠ 0 ↔ _
    rw [hlength, ← Nat.pos_iff_ne_zero, List.length_pos_iff_exists_mem]
    simp [descriptors, hconcerns]

/-- Right answers of single nodes, merged one after the other. -/
theorem answers_mergeAll (h : inquiry.Answers hosts t) {l : List (Host × Tally)}
    (hl : ∀ a ∈ l, inquiry.Answers [a.1] a.2)
    (hids : ((hosts ++ l.map (·.1)).map (·.self.id)).Nodup)
    (hfit : held (hosts ++ l.map (·.1)) < 2 ^ 64) :
    inquiry.Answers (hosts ++ l.map (·.1)) (t.mergeAll (l.map (·.2))) := by
  induction l generalizing hosts t with
  | nil =>
    rw [List.map_nil, List.append_nil]
    exact h
  | cons a l ih =>
    obtain ⟨ha, hl⟩ := List.forall_mem_cons.1 hl
    have hsplit : hosts ++ (a :: l).map (·.1) = (hosts ++ [a.1]) ++ l.map (·.1) := by simp
    rw [hsplit] at hids hfit ⊢
    refine ih (h.merge ha ?_ ?_) hl hids hfit
    · intro k hk k' hk' heq
      rw [List.map_append, List.nodup_append] at hids
      have hfirst := hids.1
      rw [List.map_append, List.nodup_append] at hfirst
      exact hfirst.2.2 _ (List.mem_map.2 ⟨k, hk, rfl⟩) _ (List.mem_map.2 ⟨k', hk', rfl⟩) heq
    · rw [held_append] at hfit
      omega

end Inquiry

end PushMesh
