import PushMesh.Proofs.Data.Ascending
import PushMesh.Proofs.Data.Table
import PushMesh.Registry.Index

/-!
# Laws of the indexes

Each operation of an index has one equation for the connections under a key (`ids_add`,
`ids_remove`). An index is *tight* when no key stands in it without a connection; every operation
keeps it so, and an entry that was made for a refused connection is dropped without a trace
(`dropIfEmpty_withEntry`).
-/

namespace PushMesh.Index

/-- No key is listed without a connection. -/
def Tight (index : Index) : Prop :=
  ∀ key ids, index.get? key = some ids → ids.isEmpty = false

/-- An empty index is tight. -/
theorem tight_empty : Tight ∅ := by
  intro key ids h
  simp at h

/-- A tight index lists the keys that have a connection. -/
theorem Tight.mem_keys {index : Index} (h : index.Tight) {key : String} :
    key ∈ index.keys ↔ ∃ id, id ∈ index.ids key := by
  rw [Table.mem_keys]
  constructor
  · rintro ⟨ids, hids⟩
    simpa [Index.ids, hids] using Ascending.isEmpty_eq_false_iff.1 (h key ids hids)
  · rintro ⟨id, hid⟩
    cases hget : index.get? key with
    | none => simp [Index.ids, hget] at hid
    | some ids => exact ⟨ids, rfl⟩

/-! ## One connection under one key -/

@[simp]
theorem ids_empty (key : String) : Index.ids ∅ key = ∅ := rfl

/-- An entry that is set lists what it is set to. -/
theorem ids_insert (index : Index) (key key' : String) (ids : Ascending ConnectionId) :
    Index.ids (index.insert key ids) key' = if key' = key then ids else index.ids key' := by
  by_cases h : key' = key <;> simp [Index.ids, h]

/-- An entry that is erased lists nothing. -/
theorem ids_erase (index : Index) (key key' : String) :
    Index.ids (index.erase key) key' = if key' = key then ∅ else index.ids key' := by
  by_cases h : key' = key <;> simp [Index.ids, h]

/-- Adding changes one entry, by one connection. -/
theorem ids_add (index : Index) (key key' : String) (id : ConnectionId) :
    (index.add key id).ids key' =
      if key' = key then (index.ids key).insert id else index.ids key' :=
  ids_insert index key key' _

/-- Removing changes one entry, whether or not it goes with its last connection. -/
theorem ids_remove (index : Index) (key key' : String) (id : ConnectionId) :
    (index.remove key id).ids key' =
      if key' = key then (index.ids key).erase id else index.ids key' := by
  unfold remove
  cases hget : index.get? key with
  | none =>
    have hnone : index.ids key = ∅ := by rw [Index.ids, hget]; rfl
    by_cases h : key' = key
    · subst h
      simp only [hnone, if_true]
      rfl
    · simp [h]
  | some ids =>
    have hids : index.ids key = ids := by rw [Index.ids, hget]; rfl
    dsimp only
    split
    · -- the last connection takes the entry with it, and no entry reads as no connection
      next hempty =>
      rw [ids_erase, hids]
      have : ids.erase id = ∅ := Ascending.ext_mem fun a => by
        simpa using (Ascending.isEmpty_iff.1 hempty a)
      rw [this]
    · rw [ids_insert, hids]

/-- An entry to which a connection was added is not empty. -/
theorem Tight.add {index : Index} (h : index.Tight) (key : String) (id : ConnectionId) :
    (index.add key id).Tight := by
  intro key' ids hget
  rw [Index.add, Table.get?_insert] at hget
  split at hget
  · obtain rfl := Option.some.inj hget
    exact Ascending.isEmpty_eq_false_iff.2 ⟨id, by simp⟩
  · exact h key' ids hget

/-- An entry that has lost its last connection is dropped. -/
theorem Tight.remove {index : Index} (h : index.Tight) (key : String) (id : ConnectionId) :
    (index.remove key id).Tight := by
  unfold Index.remove
  cases hget : index.get? key with
  | none => exact h
  | some old =>
    intro key' ids hids
    dsimp only at hids
    -- an entry that became empty is gone, and any other one that is left is not empty
    split at hids
    · rw [Table.get?_erase] at hids
      split at hids
      · cases hids
      · exact h key' ids hids
    · next hempty =>
      rw [Table.get?_insert] at hids
      split at hids
      · obtain rfl := Option.some.inj hids
        simpa using hempty
      · exact h key' ids hids

/-! ## One connection under several keys -/

/-- A connection that is added under several keys is listed under each of them. -/
theorem mem_ids_addAll {index : Index} {keys : List String} {key : String}
    {id id' : ConnectionId} :
    id' ∈ (index.addAll keys id).ids key ↔ key ∈ keys ∧ id' = id ∨ id' ∈ index.ids key := by
  unfold addAll
  induction keys generalizing index with
  | nil => simp
  | cons k keys ih =>
    rw [List.foldl_cons, ih, ids_add]
    by_cases h : key = k
    · subst h
      simp only [if_true, Ascending.mem_insert, List.mem_cons, true_or, true_and]
      tauto
    · simp [h]

/-- A connection that is removed from several keys is listed under none of them. -/
theorem mem_ids_removeAll {index : Index} {keys : List String} {key : String}
    {id id' : ConnectionId} :
    id' ∈ (index.removeAll keys id).ids key ↔ id' ∈ index.ids key ∧ ¬(key ∈ keys ∧ id' = id) := by
  unfold removeAll
  induction keys generalizing index with
  | nil => simp
  | cons k keys ih =>
    rw [List.foldl_cons, ih, ids_remove]
    by_cases h : key = k
    · subst h
      simp only [if_true, Ascending.mem_erase, List.mem_cons, true_or, true_and]
      tauto
    · simp [h]

/-- Adding under several keys keeps an index tight: by induction on the keys. -/
theorem Tight.addAll {index : Index} (h : index.Tight) (keys : List String) (id : ConnectionId) :
    (index.addAll keys id).Tight := by
  unfold Index.addAll
  induction keys generalizing index with
  | nil => exact h
  | cons k keys ih => exact ih (h.add k id)

/-- Removing from several keys keeps an index tight: by induction on the keys. -/
theorem Tight.removeAll {index : Index} (h : index.Tight) (keys : List String)
    (id : ConnectionId) : (index.removeAll keys id).Tight := by
  unfold Index.removeAll
  induction keys generalizing index with
  | nil => exact h
  | cons k keys ih => exact ih (h.remove k id)

/-- The connections under at least one of several keys. -/
theorem mem_idsOfAny {index : Index} {keys : List String} {id : ConnectionId} :
    id ∈ index.idsOfAny keys ↔ ∃ key ∈ keys, id ∈ index.ids key := by
  have hfold : ∀ s : Ascending ConnectionId,
      id ∈ keys.foldl (fun ids key => ids ∪ index.ids key) s ↔
        id ∈ s ∨ ∃ key ∈ keys, id ∈ index.ids key := by
    induction keys with
    | nil => simp
    | cons k keys ih =>
      intro s
      rw [List.foldl_cons, ih, Ascending.mem_union]
      simp [or_assoc]
  simpa [idsOfAny] using hfold ∅

/-! ## Entries made in advance -/

/-- An entry made in advance lists no connection yet. -/
@[simp]
theorem ids_withEntry (index : Index) (key key' : String) :
    (index.withEntry key).ids key' = index.ids key' := by
  rw [withEntry, Index.ids, Table.get?_insertNew, Index.ids]
  cases index.get? key' with
  | some ids => rfl
  | none => by_cases h : key' = key <;> simp [h]

/-- Adding under a key does not depend on whether its entry was made in advance. -/
theorem add_withEntry (index : Index) (key : String) (id : ConnectionId) :
    (index.withEntry key).add key id = index.add key id := by
  refine Table.ext_get? fun key' => ?_
  rw [add, add, ids_withEntry, Table.get?_insert, Table.get?_insert, withEntry,
    Table.get?_insertNew]
  by_cases h : key' = key <;> simp [h]

/-- An entry that lists nothing is read as if it were not there. -/
theorem ids_dropIfEmpty (index : Index) (key key' : String) :
    (index.dropIfEmpty key).ids key' = index.ids key' := by
  unfold dropIfEmpty
  split
  · next hempty =>
    have hnone : index.ids key = ∅ := Ascending.ext_mem fun id => by
      simpa using Ascending.isEmpty_iff.1 hempty id
    rw [ids_erase]
    by_cases h : key' = key <;> simp [h, hnone]
  · rfl

/-- An entry made in advance is dropped without a trace: what was in the index stays, and a key that
was not in it is not in it again. -/
theorem Tight.dropIfEmpty_withEntry {index : Index} (h : index.Tight) (key : String) :
    (index.withEntry key).dropIfEmpty key = index := by
  unfold dropIfEmpty
  rw [ids_withEntry]
  cases hget : index.get? key with
  | none =>
    -- the entry was made in advance, so nobody is in it and it goes again
    have hempty : (index.ids key).isEmpty = true := by rw [Index.ids, hget]; rfl
    rw [if_pos hempty]
    refine Table.ext_get? fun key' => ?_
    rw [Table.get?_erase, withEntry, Table.get?_insertNew]
    by_cases hk : key' = key <;> simp [hk, hget]
  | some ids =>
    -- the entry was there before, and somebody is in it as the index is tight
    have hne : (index.ids key).isEmpty = false := by
      rw [Index.ids, hget]
      exact h key ids hget
    rw [if_neg (by simp [hne])]
    have hmem : index.contains key = true := Table.contains_iff.2 ⟨ids, hget⟩
    rw [withEntry, Table.insertNew, if_pos hmem]

end PushMesh.Index
