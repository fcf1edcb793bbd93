import PushMesh.Data.Ascending
import Mathlib.Data.List.Nodup
import Mathlib.Data.List.Perm.Subperm

/-!
# Laws of finite sets

A set is determined by its members (`ext_mem`), so an equation between sets is proved by comparing
memberships, with the `mem_` lemmas beside the definitions. Sizes follow members: adding a new one
and erasing an old one move the size by one.
-/

namespace PushMesh.Ascending

variable {α : Type} [Ord α]

/-! ## Tests -/

/-- A list in order contains what is a member of it. -/
@[simp]
theorem contains_iff [BEq α] [LawfulBEq α] {s : Ascending α} {a : α} :
    s.contains a = true ↔ a ∈ s := by
  rw [contains, List.contains_iff_mem, mem_def]

/-- A list is empty iff nothing is a member of it. -/
theorem isEmpty_iff {s : Ascending α} : s.isEmpty = true ↔ ∀ a, a ∉ s := by
  rw [isEmpty, List.isEmpty_iff, List.eq_nil_iff_forall_not_mem]
  rfl

/-- A list is not empty iff something is a member of it. -/
theorem isEmpty_eq_false_iff {s : Ascending α} : s.isEmpty = false ↔ ∃ a, a ∈ s := by
  rw [← Bool.not_eq_true, isEmpty_iff]
  push Not
  rfl

@[simp]
theorem size_empty : (∅ : Ascending α).size = 0 := rfl

variable [Std.LawfulEqOrd α]

/-- No member is listed twice. -/
theorem nodup (s : Ascending α) : s.toList.Nodup := by
  refine s.ascending.imp ?_
  rintro a b h rfl
  simp at h

/-! ## Sizes -/

/-- The size counts the members, however they are listed. -/
theorem size_eq_length {s : Ascending α} {l : List α} (hl : l.Nodup) (h : ∀ a, a ∈ s ↔ a ∈ l) :
    s.size = l.length :=
  ((List.perm_ext_iff_of_nodup s.nodup hl).2 h).length_eq

/-- A subset is no larger. -/
theorem size_le_size {s t : Ascending α} (h : ∀ a, a ∈ s → a ∈ t) : s.size ≤ t.size :=
  (List.subperm_of_subset s.nodup h).length_le

/-- Erasing a member takes it off the listing. -/
theorem perm_cons_erase [BEq α] [LawfulBEq α] {s : Ascending α} {a : α} (h : a ∈ s) :
    s.toList.Perm (a :: (s.erase a).toList) := by
  have hnodup : (a :: (s.erase a).toList).Nodup :=
    List.nodup_cons.2 ⟨fun ha => (mem_erase.1 (mem_def.2 ha)).2 rfl, (s.erase a).nodup⟩
  refine (List.perm_ext_iff_of_nodup s.nodup hnodup).2 fun b => ?_
  rw [List.mem_cons, ← mem_def, ← mem_def, mem_erase]
  by_cases hb : b = a <;> simp [hb, h]

variable [Std.TransOrd α]

/-- Sets with the same members are equal: there is one ascending list of the members. -/
theorem ext_mem {s t : Ascending α} (h : ∀ a, a ∈ s ↔ a ∈ t) : s = t := by
  have hperm : s.toList.Perm t.toList := (List.perm_ext_iff_of_nodup s.nodup t.nodup).2 h
  refine Ascending.ext (hperm.eq_of_pairwise ?_ s.ascending t.ascending)
  intro a b _ _ hab hba
  rw [Std.OrientedOrd.eq_swap, hba] at hab
  exact absurd hab (by decide)

/-- A list without repetitions is the set of its elements, in another order. -/
theorem perm_ofList {l : List α} (hl : l.Nodup) : (ofList l).toList.Perm l :=
  (List.perm_ext_iff_of_nodup (ofList l).nodup hl).2 fun a => by rw [← mem_def, mem_ofList]

/-- A new member comes onto the listing. -/
theorem perm_insert {s : Ascending α} {a : α} (h : a ∉ s) :
    (s.insert a).toList.Perm (a :: s.toList) := by
  have hnodup : (a :: s.toList).Nodup := List.nodup_cons.2 ⟨h, s.nodup⟩
  refine (List.perm_ext_iff_of_nodup (s.insert a).nodup hnodup).2 fun b => ?_
  rw [← mem_def, mem_insert, List.mem_cons, mem_def]

/-- A new member makes the set larger by one. -/
theorem size_insert {s : Ascending α} {a : α} (h : a ∉ s) : (s.insert a).size = s.size + 1 := by
  rw [size, (perm_insert h).length_eq, List.length_cons, size]

/-- Erasing a member makes the set smaller by one. -/
theorem size_erase [BEq α] [LawfulBEq α] {s : Ascending α} {a : α} (h : a ∈ s) :
    (s.erase a).size + 1 = s.size := by
  rw [← size_insert (a := a) (by simp)]
  congr 1
  refine ext_mem fun b => ?_
  by_cases hb : b = a <;> simp [hb, h]

end PushMesh.Ascending
