import PushMesh.Data.Table
import Mathlib.Algebra.BigOperators.Group.List.Basic
import Mathlib.Algebra.GroupWithZero.Nat
import Mathlib.Data.List.Nodup

/-!
# Laws of finite maps

`get?` is the view of a map: `get?_eq_some_iff` ties it to the entries, and each operation has one
equation through it. A sum over the values moves by what a binding replaces (`sum_values_insert`).
-/

namespace PushMesh.Table

variable {κ ν : Type} [Ord κ] [BEq κ]

/-! ## The view -/

/-- A table contains a key iff it has a value for it. -/
theorem contains_iff {t : Table κ ν} {k : κ} : t.contains k = true ↔ ∃ v, t.get? k = some v := by
  rw [contains, Option.isSome_iff_exists]

variable [LawfulBEq κ] [Std.LawfulEqOrd κ]

omit [BEq κ] [LawfulBEq κ] in
/-- Keys are listed once. -/
theorem nodup_keys (t : Table κ ν) : t.keys.Nodup := by
  rw [keys, List.Nodup, List.pairwise_map]
  refine t.ascending.imp ?_
  rintro a b h heq
  simp [heq] at h

/-- What is looked up is what is listed. -/
theorem get?_eq_some_iff {t : Table κ ν} {k : κ} {v : ν} :
    t.get? k = some v ↔ (k, v) ∈ t.entries := by
  have hnodup : (t.entries.map (·.1)).Nodup := t.nodup_keys
  rw [get?]
  -- the first entry of a key is its only one, as keys are listed once
  revert hnodup
  induction t.entries with
  | nil => simp
  | cons e l ih =>
    obtain ⟨k', v'⟩ := e
    intro hnodup
    obtain ⟨hnew, hrest⟩ := List.nodup_cons.1 hnodup
    rw [List.lookup_cons, List.mem_cons, Prod.mk.injEq]
    cases hk : k == k' with
    | false => simp [ih hrest, beq_eq_false_iff_ne.1 hk]
    | true =>
      obtain rfl := eq_of_beq hk
      have : (k, v) ∉ l := fun h => hnew (List.mem_map.2 ⟨_, h, rfl⟩)
      simp [this, eq_comm]

/-- Looking up among the entries that pass a test. -/
theorem get?_filter_eq_some_iff {t : Table κ ν} {p : κ → ν → Bool} {k : κ} {v : ν} :
    (t.filter p).get? k = some v ↔ t.get? k = some v ∧ p k v = true := by
  rw [get?_eq_some_iff, get?_eq_some_iff, filter, List.mem_filter]

/-- Erasing a key leaves the others alone. -/
@[simp]
theorem get?_erase (t : Table κ ν) (k k' : κ) :
    (t.erase k).get? k' = if k' == k then none else t.get? k' := by
  ext v
  rw [erase, get?_filter_eq_some_iff]
  by_cases h : k' = k <;> simp [h]

/-- The keys of a table are those it has a value for. -/
theorem mem_keys {t : Table κ ν} {k : κ} : k ∈ t.keys ↔ ∃ v, t.get? k = some v := by
  simp [keys, get?_eq_some_iff]

variable [Std.TransOrd κ]

/-- Inserting a new key does not overwrite a value. -/
theorem get?_insertNew (t : Table κ ν) (k k' : κ) (v : ν) :
    (t.insertNew k v).get? k' = (t.get? k').or (if k' == k then some v else none) := by
  unfold insertNew
  split
  · next h =>
    obtain ⟨w, hw⟩ := contains_iff.1 h
    by_cases hk : k' = k <;> simp [hk, hw]
  · next h =>
    have hnone : t.get? k = none := by
      rw [contains_iff, not_exists] at h
      exact Option.eq_none_iff_forall_ne_some.2 h
    by_cases hk : k' = k <;> simp [hk, hnone]

/-- Maps with the same view are equal: there is one ascending list of the entries. -/
theorem ext_get? {s t : Table κ ν} (h : ∀ k, s.get? k = t.get? k) : s = t := by
  have hs : s.entries.Nodup := List.Nodup.of_map _ s.nodup_keys
  have ht : t.entries.Nodup := List.Nodup.of_map _ t.nodup_keys
  have hperm : s.entries.Perm t.entries := by
    refine (List.perm_ext_iff_of_nodup hs ht).2 ?_
    rintro ⟨k, v⟩
    rw [← get?_eq_some_iff, ← get?_eq_some_iff, h]
  refine Table.ext (hperm.eq_of_pairwise ?_ s.ascending t.ascending)
  intro a b _ _ hab hba
  rw [Std.OrientedOrd.eq_swap, hba] at hab
  exact absurd hab (by decide)

omit [BEq κ] [LawfulBEq κ] in
/-- Maps with the same keys list them alike: there is one ascending list of the keys. -/
theorem keys_ext {μ : Type} {s : Table κ ν} {t : Table κ μ} (h : ∀ k, k ∈ s.keys ↔ k ∈ t.keys) :
    s.keys = t.keys := by
  have hperm : s.keys.Perm t.keys := (List.perm_ext_iff_of_nodup s.nodup_keys t.nodup_keys).2 h
  have hs : s.keys.Pairwise fun a b => compare a b = .lt := List.pairwise_map.2 s.ascending
  have ht : t.keys.Pairwise fun a b => compare a b = .lt := List.pairwise_map.2 t.ascending
  refine hperm.eq_of_pairwise ?_ hs ht
  intro a b _ _ hab hba
  rw [Std.OrientedOrd.eq_swap, hba] at hab
  exact absurd hab (by decide)

/-! ## New bindings -/

omit [Std.TransOrd κ] [BEq κ] [LawfulBEq κ] in
/-- No entry of a table comes up twice. -/
theorem nodup_entries (t : Table κ ν) : t.entries.Nodup := List.Nodup.of_map _ t.nodup_keys

/-- A key that is not bound gives one entry more. -/
theorem perm_entries_insertNew {t : Table κ ν} {k : κ} (h : t.get? k = none) (v : ν) :
    (t.insertNew k v).entries.Perm ((k, v) :: t.entries) := by
  have hnew : (k, v) ∉ t.entries := by
    rw [← get?_eq_some_iff, h]
    exact nofun
  refine (List.perm_ext_iff_of_nodup (nodup_entries _)
    (List.nodup_cons.2 ⟨hnew, t.nodup_entries⟩)).2 ?_
  rintro ⟨k', v'⟩
  rw [List.mem_cons, ← get?_eq_some_iff, ← get?_eq_some_iff, get?_insertNew]
  by_cases hk : k' = k
  · subst hk
    simp [h, eq_comm]
  · simp [hk]

/-- Bindings of different keys that are not bound give one entry more each. -/
theorem perm_entries_foldl_insertNew {l : List (κ × ν)} (hl : (l.map (·.1)).Nodup)
    {t : Table κ ν} (h : ∀ e ∈ l, t.get? e.1 = none) :
    (l.foldl (fun s e => s.insertNew e.1 e.2) t).entries.Perm (t.entries ++ l) := by
  induction l generalizing t with
  | nil =>
    rw [List.append_nil]
    exact .refl _
  | cons e l ih =>
    obtain ⟨hnew, hl⟩ := List.nodup_cons.1 hl
    have hrest : ∀ e' ∈ l, (t.insertNew e.1 e.2).get? e'.1 = none := by
      intro e' he'
      have hne : e'.1 ≠ e.1 := fun heq => hnew (List.mem_map.2 ⟨e', he', heq⟩)
      rw [get?_insertNew, h e' (List.mem_cons_of_mem _ he')]
      simp [hne]
    refine (ih hl hrest).trans ?_
    refine ((perm_entries_insertNew (h e (List.mem_cons_self ..)) e.2).append_right l).trans ?_
    exact List.perm_middle.symm

/-! ## Sums over the values -/

/-- Replacing a value moves a sum over the values by the difference. -/
theorem sum_map_place (f : ν → Nat) {k : κ} {v w : ν} {l : List (κ × ν)}
    (h : l.lookup k = some v) (hl : l.Pairwise fun a b => compare a.1 b.1 = .lt) :
    ((place k w l).map fun e => f e.2).sum + f v = (l.map fun e => f e.2).sum + f w := by
  induction l with
  | nil => simp at h
  | cons e l ih =>
    obtain ⟨k', v'⟩ := e
    obtain ⟨hlt, hl⟩ := List.pairwise_cons.1 hl
    rw [List.lookup_cons] at h
    unfold place
    cases hk : k == k' with
    | true =>
      obtain rfl := eq_of_beq hk
      obtain rfl : v' = v := by simpa using h
      simp only [Std.ReflOrd.compare_self, List.map_cons, List.sum_cons]
      omega
    | false =>
      rw [hk] at h
      have hmem : ∃ e ∈ l, e.1 = k := by
        obtain ⟨l₁, l₂, rfl, -⟩ := List.lookup_eq_some_iff.1 h
        exact ⟨(k, v), by simp, rfl⟩
      obtain ⟨e, he, rfl⟩ := hmem
      -- the entry stands behind the head, so it is not placed before it
      have hgt : compare e.1 k' = .gt := Std.OrientedCmp.gt_of_lt (hlt e he)
      have := ih h hl
      simp only [hgt, List.map_cons, List.sum_cons]
      omega

/-- Binding a key that is bound already moves a sum over the values by the difference. -/
theorem sum_values_insert (f : ν → Nat) {t : Table κ ν} {k : κ} {v w : ν}
    (h : t.get? k = some v) :
    ((t.insert k w).values.map f).sum + f v = (t.values.map f).sum + f w := by
  have := sum_map_place f (w := w) h t.ascending
  simpa [values, insert, List.map_map, Function.comp_def] using this

end PushMesh.Table
