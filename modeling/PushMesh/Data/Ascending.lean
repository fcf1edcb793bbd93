/-!
# Finite sets as strictly ascending lists

A set of keys is kept as the one list that holds its members in strictly ascending order, so two
sets with the same members are the same value and a listing is always sorted.

The lemmas `mem_insert`, `mem_filter`, `mem_erase`, `mem_union` and `mem_ofList` say what each
operation does to membership.
-/

namespace PushMesh

/-- A finite set, written as the strictly ascending list of its members. -/
@[ext]
structure Ascending (α : Type) [Ord α] where
  /-- The members in strictly ascending order. -/
  toList : List α
  /-- Each member stands before every greater one and none is repeated. -/
  ascending : toList.Pairwise fun a b => compare a b = .lt
deriving DecidableEq

namespace Ascending

variable {α : Type} [Ord α]

/-- The list `l` with `a` put in its place, unless it is there already. -/
def place (a : α) : List α → List α
  | [] => [a]
  | b :: l =>
    match compare a b with
    | .lt => a :: b :: l
    | .eq => b :: l
    | .gt => b :: place a l

variable [Std.LawfulEqOrd α]

/-- Placing `a` adds `a` and nothing else. -/
@[simp]
theorem mem_place {a b : α} {l : List α} : b ∈ place a l ↔ b = a ∨ b ∈ l := by
  induction l with
  | nil => simp [place]
  | cons c l ih =>
    unfold place
    split
    · simp
    · rename_i h
      obtain rfl := Std.LawfulEqOrd.eq_of_compare h
      simp
    · simp [ih, or_left_comm]

variable [Std.TransOrd α]

/-- Placing a member keeps the order strict. -/
theorem pairwise_place {a : α} {l : List α} (h : l.Pairwise fun a b => compare a b = .lt) :
    (place a l).Pairwise fun a b => compare a b = .lt := by
  induction l with
  | nil => simp [place]
  | cons c l ih =>
    obtain ⟨hc, hl⟩ := List.pairwise_cons.1 h
    unfold place
    split
    · rename_i hac
      refine List.pairwise_cons.2 ⟨fun b hb => ?_, h⟩
      rcases List.mem_cons.1 hb with rfl | hb
      · exact hac
      · exact Std.TransCmp.lt_trans hac (hc b hb)
    · exact h
    · rename_i hac
      refine List.pairwise_cons.2 ⟨fun b hb => ?_, ih hl⟩
      rcases mem_place.1 hb with rfl | hb
      · exact Std.OrientedCmp.lt_of_gt hac
      · exact hc b hb

omit [Std.LawfulEqOrd α] [Std.TransOrd α] in
instance : EmptyCollection (Ascending α) := ⟨⟨[], .nil⟩⟩

omit [Std.LawfulEqOrd α] [Std.TransOrd α] in
instance : Inhabited (Ascending α) := ⟨∅⟩

omit [Std.LawfulEqOrd α] [Std.TransOrd α] in
instance : Membership α (Ascending α) := ⟨fun s a => a ∈ s.toList⟩

/-- The set with `a` added. -/
def insert (s : Ascending α) (a : α) : Ascending α :=
  ⟨place a s.toList, pairwise_place s.ascending⟩

/-- The members of `s` for which `p` holds. -/
def filter (s : Ascending α) (p : α → Bool) : Ascending α :=
  ⟨s.toList.filter p, s.ascending.filter p⟩

/-- The set without `a`. -/
def erase [BEq α] (s : Ascending α) (a : α) : Ascending α :=
  s.filter (· != a)

/-- Whether `a` is a member. -/
def contains [BEq α] (s : Ascending α) (a : α) : Bool :=
  s.toList.contains a

/-- Whether there is no member. -/
def isEmpty (s : Ascending α) : Bool :=
  s.toList.isEmpty

/-- The number of members. -/
def size (s : Ascending α) : Nat :=
  s.toList.length

/-- The members of either set. -/
def union (s t : Ascending α) : Ascending α :=
  t.toList.foldl insert s

/-- The members of a list, repetitions and order aside. -/
def ofList (l : List α) : Ascending α :=
  l.foldl insert ∅

instance : Union (Ascending α) := ⟨union⟩

omit [Std.LawfulEqOrd α] [Std.TransOrd α] in
theorem mem_def {s : Ascending α} {a : α} : a ∈ s ↔ a ∈ s.toList := .rfl

omit [Std.LawfulEqOrd α] [Std.TransOrd α] in
@[simp]
theorem not_mem_empty {a : α} : ¬ a ∈ (∅ : Ascending α) := List.not_mem_nil

@[simp]
theorem mem_insert {s : Ascending α} {a b : α} : b ∈ s.insert a ↔ b = a ∨ b ∈ s := by
  simp [mem_def, insert]

omit [Std.LawfulEqOrd α] [Std.TransOrd α] in
@[simp]
theorem mem_filter {s : Ascending α} {p : α → Bool} {a : α} : a ∈ s.filter p ↔ a ∈ s ∧ p a := by
  simp [mem_def, filter]

omit [Std.LawfulEqOrd α] [Std.TransOrd α] in
@[simp]
theorem mem_erase [BEq α] [LawfulBEq α] {s : Ascending α} {a b : α} :
    b ∈ s.erase a ↔ b ∈ s ∧ b ≠ a := by
  simp [erase]

/-- Adding the members of a list one by one. -/
theorem mem_foldl_insert {l : List α} {s : Ascending α} {a : α} :
    a ∈ l.foldl insert s ↔ a ∈ s ∨ a ∈ l := by
  induction l generalizing s with
  | nil => simp
  | cons b l ih => simp [ih, or_assoc, or_comm, or_left_comm]

@[simp]
theorem mem_union {s t : Ascending α} {a : α} : a ∈ s ∪ t ↔ a ∈ s ∨ a ∈ t :=
  mem_foldl_insert

@[simp]
theorem mem_ofList {l : List α} {a : α} : a ∈ ofList l ↔ a ∈ l := by
  simp [ofList, mem_foldl_insert]

end Ascending

end PushMesh
