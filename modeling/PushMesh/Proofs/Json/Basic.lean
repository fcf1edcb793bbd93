import PushMesh.Json.Printer
import Mathlib.Algebra.Group.Int.Defs

/-!
# JSON values as trees

Values are taken apart by `Json.induction`: what holds of the items of an array or the fields of an
object may be used for it. `Json.depth` counts the containers that stand inside each other,
`Json.Integral` says that all numbers are integers of 64 bits, and `Json.Sorted` that all objects list
their fields in ascending order of the keys.
-/

namespace PushMesh.Json

/-- A property of all values, from the items and fields of each to the value itself. -/
@[induction_eliminator]
theorem induction {motive : Json → Prop} (null : motive null) (bool : ∀ b, motive (bool b))
    (number : ∀ n, motive (number n)) (string : ∀ s, motive (string s))
    (array : ∀ items, (∀ j ∈ items, motive j) → motive (array items))
    (object : ∀ fields, (∀ e ∈ fields, motive e.2) → motive (object fields)) :
    ∀ j, motive j
  | .null => null
  | .bool b => bool b
  | .number n => number n
  | .string s => string s
  | .array items => array items fun j _ => induction null bool number string array object j
  | .object fields => object fields fun e _ => induction null bool number string array object e.2
termination_by j => sizeOf j
decreasing_by
  · have hlt := List.sizeOf_lt_of_mem ‹j ∈ items›
    rw [Json.array.sizeOf_spec]
    omega
  · have hlt := List.sizeOf_lt_of_mem ‹e ∈ fields›
    obtain ⟨key, j⟩ := e
    rw [Prod.mk.sizeOf_spec] at hlt
    rw [Json.object.sizeOf_spec]
    show sizeOf j < _
    omega

/-! ## Depth -/

mutual

/-- The number of containers that stand inside each other. -/
def depth : Json → Nat
  | array items => itemsDepth items + 1
  | object fields => fieldsDepth fields + 1
  | _ => 0

/-- The greatest depth of the items of an array. -/
def itemsDepth : List Json → Nat
  | [] => 0
  | j :: l => max j.depth (itemsDepth l)

/-- The greatest depth of the fields of an object. -/
def fieldsDepth : List (String × Json) → Nat
  | [] => 0
  | (_, j) :: l => max j.depth (fieldsDepth l)

end

/-- Items are as deep as the deepest of them. -/
theorem itemsDepth_le_iff {items : List Json} {d : Nat} :
    itemsDepth items ≤ d ↔ ∀ j ∈ items, j.depth ≤ d := by
  induction items with
  | nil => simp [itemsDepth]
  | cons j l ih => rw [itemsDepth, Nat.max_le, ih, List.forall_mem_cons]

/-- Fields are as deep as the deepest of their values. -/
theorem fieldsDepth_le_iff {fields : List (String × Json)} {d : Nat} :
    fieldsDepth fields ≤ d ↔ ∀ e ∈ fields, e.2.depth ≤ d := by
  induction fields with
  | nil => simp [fieldsDepth]
  | cons e l ih => rw [fieldsDepth, Nat.max_le, ih, List.forall_mem_cons]

/-- An array is one level deeper than its items. -/
theorem depth_array_le_iff {items : List Json} {d : Nat} :
    (array items).depth ≤ d ↔ ∃ d', d = d' + 1 ∧ ∀ j ∈ items, j.depth ≤ d' := by
  simp only [depth, ← itemsDepth_le_iff]
  exact ⟨fun h => ⟨d - 1, by omega, by omega⟩, by omega⟩

/-- An object is one level deeper than its fields. -/
theorem depth_object_le_iff {fields : List (String × Json)} {d : Nat} :
    (object fields).depth ≤ d ↔ ∃ d', d = d' + 1 ∧ ∀ e ∈ fields, e.2.depth ≤ d' := by
  simp only [depth, ← fieldsDepth_le_iff]
  exact ⟨fun h => ⟨d - 1, by omega, by omega⟩, by omega⟩

/-- A list is one level deeper than what it is written from. -/
theorem depth_list_le {α : Type} {f : α → Json} {l : List α} {d : Nat} (h : ∀ a ∈ l, (f a).depth ≤ d) :
    (list f l).depth ≤ d + 1 := by
  refine depth_array_le_iff.2 ⟨d, rfl, fun j hj => ?_⟩
  obtain ⟨a, ha, rfl⟩ := List.mem_map.1 hj
  exact h a ha

/-- An optional value is no deeper than the value can be. -/
theorem depth_option_le {α : Type} {f : α → Json} {o : Option α} {d : Nat}
    (h : ∀ a ∈ o, (f a).depth ≤ d) : (option f o).depth ≤ d := by
  cases o with
  | none => exact Nat.zero_le d
  | some a => exact h a rfl

/-! ## Kinds of values -/

/-- Whether every number of a value is an integer that fits a signed or an unsigned word. -/
inductive Integral : Json → Prop where
  | null : Integral null
  | bool (b : Bool) : Integral (bool b)
  | number {n : Int} (hlow : -2 ^ 63 ≤ n) (hhigh : n < 2 ^ 64) : Integral (number (.int n))
  | string (s : String) : Integral (string s)
  | array {items : List Json} (h : ∀ j ∈ items, Integral j) : Integral (array items)
  | object {fields : List (String × Json)} (h : ∀ e ∈ fields, Integral e.2) :
    Integral (object fields)

/-- Whether every object of a value lists its fields in ascending order of the keys, each key once. -/
inductive Sorted : Json → Prop where
  | null : Sorted null
  | bool (b : Bool) : Sorted (bool b)
  | number (n : Number) : Sorted (number n)
  | string (s : String) : Sorted (string s)
  | array {items : List Json} (h : ∀ j ∈ items, Sorted j) : Sorted (array items)
  | object {fields : List (String × Json)} (hkeys : fields.Pairwise fun e e' => e.1 < e'.1)
    (h : ∀ e ∈ fields, Sorted e.2) : Sorted (object fields)

attribute [simp] Integral.null Integral.bool Integral.string

/-- An integer is within the range of 64 bits. -/
@[simp]
theorem integral_int_iff {n : Int} :
    (number (.int n)).Integral ↔ -2 ^ 63 ≤ n ∧ n < 2 ^ 64 :=
  ⟨fun | .number hlow hhigh => ⟨hlow, hhigh⟩, fun h => .number h.1 h.2⟩

/-- An array has integers only if all of its items do. -/
@[simp]
theorem integral_array_iff {items : List Json} :
    (array items).Integral ↔ ∀ j ∈ items, j.Integral :=
  ⟨fun | .array h => h, .array⟩

/-- An object has integers only if all of its values do. -/
@[simp]
theorem integral_object_iff {fields : List (String × Json)} :
    (object fields).Integral ↔ ∀ e ∈ fields, e.2.Integral :=
  ⟨fun | .object h => h, .object⟩

/-- A word is an integer within range. -/
@[simp]
theorem integral_word (n : UInt64) : (nat n.toNat).Integral := by
  have hlt := n.toNat_lt
  exact .number (by omega) (by omega)

/-- An optional value has integers only if the value does. -/
@[simp]
theorem integral_option_iff {α : Type} {f : α → Json} {o : Option α} :
    (option f o).Integral ↔ ∀ a ∈ o, (f a).Integral := by
  cases o with
  | none => simp [option]
  | some a => simp [option]

/-- A list has integers only if all of its values do. -/
@[simp]
theorem integral_list_iff {α : Type} {f : α → Json} {l : List α} :
    (list f l).Integral ↔ ∀ a ∈ l, (f a).Integral := by
  simp [list]

attribute [simp] Sorted.null Sorted.bool Sorted.number Sorted.string

/-- An array is in order if all of its items are. -/
@[simp]
theorem sorted_array_iff {items : List Json} : (array items).Sorted ↔ ∀ j ∈ items, j.Sorted :=
  ⟨fun | .array h => h, .array⟩

/-- An object is in order if its keys ascend and all of its values are in order. -/
@[simp]
theorem sorted_object_iff {fields : List (String × Json)} :
    (object fields).Sorted ↔
      fields.Pairwise (fun e e' => e.1 < e'.1) ∧ ∀ e ∈ fields, e.2.Sorted :=
  ⟨fun | .object hkeys h => ⟨hkeys, h⟩, fun h => .object h.1 h.2⟩

end PushMesh.Json
