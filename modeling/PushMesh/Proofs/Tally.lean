import PushMesh.Proofs.Data.Ascending
import PushMesh.Proofs.Data.Table
import PushMesh.Tally
import Mathlib.Data.String.Basic
import Mathlib.Order.Compare

/-!
# Laws of tallies

What the answers of several nodes come to when they are merged one after the other, by the kind of
answer. Counts add up as words of 64 bits, so they come to their sum as long as that fits one word.

The order of the answers does not matter to counts and keys (`mergeAll_perm`). It does not matter
either to the keys of connections (`get?_mergeAll_perm`), but of several descriptors of one
connection the first stands (`get?_mergeAll`).
-/

namespace PushMesh

namespace ConnectionSet

/-- The entry of a connection. -/
def entry (d : Descriptor) : ConnectionKey × Descriptor := (d.key, d)

/-- The set of connections with different keys has one entry for each. -/
theorem perm_entries_ofList {l : List Descriptor} (hl : (l.map (·.key)).Nodup) :
    (ofList l).entries.Perm (l.map entry) := by
  have hfold : ofList l = (l.map entry).foldl (fun s e => s.insertNew e.1 e.2) ∅ := by
    rw [List.foldl_map]
    rfl
  have hkeys : ((l.map entry).map (·.1)).Nodup := by
    rw [List.map_map]
    exact hl
  rw [hfold]
  exact Table.perm_entries_foldl_insertNew hkeys fun e _ => rfl

/-- Two sets without a key in common have the entries of both. -/
theorem perm_entries_merge {s t : ConnectionSet}
    (h : ∀ e ∈ t.entries, ∀ e' ∈ s.entries, e.1 ≠ e'.1) :
    (s.merge t).entries.Perm (s.entries ++ t.entries) := by
  refine Table.perm_entries_foldl_insertNew t.nodup_keys fun e he => ?_
  refine Option.eq_none_iff_forall_ne_some.2 fun d hd => ?_
  exact h e he (e.1, d) (Table.get?_eq_some_iff.1 hd) rfl

/-! ## Which descriptor stands -/

/-- Bindings that are added one by one replace nothing. -/
theorem get?_foldl_insertNew (s : ConnectionSet) (l : List (ConnectionKey × Descriptor))
    (key : ConnectionKey) :
    (l.foldl (fun s e => s.insertNew e.1 e.2) s).get? key = (s.get? key).or (l.lookup key) := by
  induction l generalizing s with
  | nil => rw [List.lookup_nil, Option.or_none]; rfl
  | cons e l ih =>
    rw [List.foldl_cons, ih, Table.get?_insertNew, Option.or_assoc, List.lookup_cons]
    cases key == e.1 <;> rfl

/-- Of several descriptors of a connection the first of the list stands. -/
theorem get?_ofList (l : List Descriptor) (key : ConnectionKey) :
    (ofList l).get? key = l.find? (·.key == key) := by
  have hfold : ofList l = (l.map entry).foldl (fun s e => s.insertNew e.1 e.2) ∅ := by
    rw [List.foldl_map]
    rfl
  rw [hfold, get?_foldl_insertNew, Table.get?_empty, Option.none_or]
  induction l with
  | nil => rfl
  | cons d l ih =>
    rw [List.map_cons, entry, List.lookup_cons, List.find?_cons, BEq.comm (a := key)]
    cases d.key == key with
    | true => rfl
    | false => exact ih (by rw [List.foldl_map]; rfl)

/-- Of the descriptors of two sets those of the first stand. -/
theorem get?_merge (s t : ConnectionSet) (key : ConnectionKey) :
    (s.merge t).get? key = (s.get? key).or (t.get? key) :=
  s.get?_foldl_insertNew t.entries key

/-- Whether every descriptor stands under its own key. -/
def Keyed (s : ConnectionSet) : Prop :=
  ∀ key d, s.get? key = some d → d.key = key

/-- Where descriptors stand under their own keys, a listing is in the order of those. -/
theorem Keyed.map_key_values {s : ConnectionSet} (hs : s.Keyed) :
    s.values.map (·.key) = s.keys := by
  rw [Table.values, Table.keys, List.map_map]
  exact List.map_congr_left fun e he => hs e.1 e.2 (Table.get?_eq_some_iff.2 he)

/-- Where descriptors stand under their own keys, those are listed that are found there. -/
theorem Keyed.mem_values {s : ConnectionSet} (hs : s.Keyed) {d : Descriptor} :
    d ∈ s.values ↔ s.get? d.key = some d := by
  rw [Table.values, List.mem_map]
  constructor
  · rintro ⟨⟨key, _⟩, he, rfl⟩
    have hget := Table.get?_eq_some_iff.2 he
    rwa [hs key _ hget]
  · intro hget
    exact ⟨(d.key, d), Table.get?_eq_some_iff.1 hget, rfl⟩

end ConnectionSet

/-- A connection comes before another by its node, and by its number where the nodes are the same. -/
theorem ConnectionKey.compare_eq_lt_iff {a b : ConnectionKey} :
    compare a b = .lt ↔ a.nodeId < b.nodeId ∨ a.nodeId = b.nodeId ∧ a.id < b.id := by
  have hunfold : compare a b = (compare a.nodeId b.nodeId).then (compare a.id b.id) := rfl
  rw [hunfold, Ordering.then_eq_lt, compare_lt_iff_lt, Std.compare_eq_lt, Std.compare_eq_iff_eq]

/-- The descriptors that an answer lists. -/
def Output.descriptors : Output → List Descriptor
  | .connections l => l
  | _ => []

namespace Tally

/-- The tally of several tallies, merged one after the other. -/
def mergeAll (own : Tally) (tallies : List Tally) : Tally :=
  tallies.foldl merge own

/-- Merging keeps the kind. -/
theorem kind_merge (s t : Tally) : (s.merge t).kind = s.kind := by
  cases s <;> cases t <;> rfl

/-- Merging keeps the kind of the own answer. -/
theorem kind_mergeAll (own : Tally) (l : List Tally) : (mergeAll own l).kind = own.kind := by
  induction l generalizing own with
  | nil => rfl
  | cons t l ih => exact (ih (own.merge t)).trans (own.kind_merge t)

/-! ## Counts -/

/-- Merged counts are the word of their sum. -/
theorem mergeAll_count (n : UInt64) (l : List UInt64) :
    mergeAll (count n) (l.map count) =
      count (UInt64.ofNat (n.toNat + (l.map UInt64.toNat).sum)) := by
  induction l generalizing n with
  | nil => simp [mergeAll]
  | cons k l ih =>
    have hstep := ih (n + k)
    rw [mergeAll, List.map_cons, List.foldl_cons, List.map_cons, List.sum_cons]
    refine hstep.trans ?_
    congr 1
    apply UInt64.toNat_inj.1
    simp [UInt64.toNat_add, Nat.add_assoc]

/-- The tallies of counts are counts. -/
theorem exists_eq_count {t : Tally} (h : t.kind = .count) : t = count (UInt64.ofNat t.size) := by
  cases t with
  | count n => simp [size]
  | connections _ | keys _ | distinct _ => cases h

/-- A number is kept in a count just if it fits one word. -/
theorem size_count_ofNat_iff (n : Nat) : (count (UInt64.ofNat n)).size = n ↔ n < 2 ^ 64 := by
  rw [size, UInt64.toNat_ofNat']
  omega

/-- Merged counts that fit one word come to their sum. -/
theorem size_mergeAll_count {own : Tally} {l : List Tally} (hown : own.kind = .count)
    (hl : ∀ t ∈ l, t.kind = .count) (hfit : own.size + (l.map size).sum < 2 ^ 64) :
    (mergeAll own l).kind = .count ∧ (mergeAll own l).size = own.size + (l.map size).sum := by
  have hcounts : l = (l.map fun t => UInt64.ofNat t.size).map count := by
    rw [List.map_map]
    refine (List.map_id l).symm.trans (List.map_congr_left fun t ht => ?_)
    exact exists_eq_count (hl t ht)
  have hsizes : ((l.map fun t => UInt64.ofNat t.size).map UInt64.toNat) = l.map size := by
    rw [List.map_map]
    refine List.map_congr_left fun t ht => ?_
    rw [Function.comp_apply, exists_eq_count (hl t ht)]
    simp [size]
  have hsum := mergeAll_count (UInt64.ofNat own.size) (l.map fun t => UInt64.ofNat t.size)
  rw [← hcounts, ← exists_eq_count hown, hsizes] at hsum
  have hsize : (UInt64.ofNat own.size).toNat = own.size := (size_count_ofNat_iff _).2 (by omega)
  rw [hsum, hsize]
  exact ⟨rfl, (size_count_ofNat_iff _).2 hfit⟩

/-! ## One answer -/

/-- An output that is taken as an answer is of the kind that was asked for. -/
theorem kind_ofOutput {kind : Kind} {output : Output} {t : Tally} (h : ofOutput kind output = .ok t) :
    t.kind = kind := by
  unfold ofOutput at h
  split at h <;> cases h <;> rfl

/-- Nothing but counts is added to counts. -/
theorem ofOutput_count_iff {output : Output} {n : UInt64} :
    ofOutput .count output = .ok (count n) ↔ output = .count n := by
  cases output <;> simp [ofOutput]

/-! ## The order of the answers -/

/-- Where no descriptors are folded, two answers can be taken in either order. -/
theorem merge_right_comm {s : Tally} (hs : s.kind ≠ .connections) (t u : Tally) :
    (s.merge t).merge u = (s.merge u).merge t := by
  have hunion : ∀ a b c : Ascending String, (a ∪ b) ∪ c = (a ∪ c) ∪ b := by
    intro a b c
    refine Ascending.ext_mem fun key => ?_
    simp only [Ascending.mem_union, or_right_comm]
  have hsum : ∀ a b c : UInt64, a + b + c = a + c + b := by
    intro a b c
    rw [UInt64.add_assoc, UInt64.add_comm b, ← UInt64.add_assoc]
  cases s with
  | connections s => exact absurd rfl hs
  | count k => cases t <;> cases u <;> simp [merge, hsum k]
  | keys s => cases t <;> cases u <;> simp [merge, hunion s]
  | distinct s => cases t <;> cases u <;> simp [merge, hunion s]

/-- The order of the answers does not matter to counts and keys. -/
theorem mergeAll_perm {own : Tally} (hown : own.kind ≠ .connections) {l l' : List Tally}
    (hperm : l.Perm l') : mergeAll own l = mergeAll own l' := by
  induction hperm generalizing own with
  | nil => rfl
  | cons t _ ih => exact ih (by rwa [kind_merge])
  | swap t u l => exact congrArg (mergeAll · l) (merge_right_comm hown u t)
  | trans _ _ ih ih' => exact (ih hown).trans (ih' hown)

/-- The descriptor that a tally has for a connection. -/
def get? : Tally → ConnectionKey → Option Descriptor
  | connections s, key => s.get? key
  | _, _ => none

/-- Of several descriptors of a connection in one answer the first stands. -/
theorem get?_ofOutput {output : Output} {t : Tally} (h : ofOutput .connections output = .ok t)
    (key : ConnectionKey) : t.get? key = output.descriptors.find? (·.key == key) := by
  cases output with
  | connections l =>
    obtain rfl := Except.ok.inj h
    exact ConnectionSet.get?_ofList l key
  | count _ | keys _ => cases h

/-- The descriptor of a connection is the one of the first answer that has one. -/
theorem get?_mergeAll {own : Tally} (hown : own.kind = .connections) (l : List Tally)
    (key : ConnectionKey) :
    (mergeAll own l).get? key = (own.get? key).or (l.findSome? (·.get? key)) := by
  induction l generalizing own with
  | nil => rw [List.findSome?_nil, Option.or_none]; rfl
  | cons t l ih =>
    have hmerge : (own.merge t).get? key = (own.get? key).or (t.get? key) := by
      cases own with
      | connections s =>
        cases t with
        | connections t => exact s.get?_merge t key
        | count _ | keys _ | distinct _ => exact (Option.or_none).symm
      | count _ | keys _ | distinct _ => cases hown
    have hkind : (own.merge t).kind = .connections := by rw [kind_merge, hown]
    have hstep := ih hkind
    rw [hmerge, Option.or_assoc] at hstep
    refine hstep.trans (congrArg _ ?_)
    rw [List.findSome?_cons]
    cases t.get? key <;> rfl

/-- The order of the answers does not matter to which connections there are. -/
theorem get?_mergeAll_perm {own : Tally} (hown : own.kind = .connections) {l l' : List Tally}
    (hperm : l.Perm l') (key : ConnectionKey) :
    ((mergeAll own l).get? key).isSome = ((mergeAll own l').get? key).isSome := by
  have hsome : (l.findSome? (·.get? key)).isSome = (l'.findSome? (·.get? key)).isSome := by
    rw [List.isSome_findSome?, List.isSome_findSome?]
    exact hperm.any_eq
  rw [get?_mergeAll hown, get?_mergeAll hown, Option.isSome_or, Option.isSome_or, hsome]

end Tally

end PushMesh
