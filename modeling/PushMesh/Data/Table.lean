/-!
# Finite maps as lists of entries in ascending order of their keys

A map is kept as the one list of its entries whose keys are strictly ascending, so listings are
sorted by key and two maps with the same entries are the same value.

`Table.get?` is the view; `get?_insert` says what a binding does to it.
-/

namespace PushMesh

/-- A finite map, written as its entries in strictly ascending order of their keys. -/
@[ext]
structure Table (κ ν : Type) [Ord κ] where
  /-- The entries in ascending order of their keys. -/
  entries : List (κ × ν)
  /-- Each key stands before every greater one and none is repeated. -/
  ascending : entries.Pairwise fun a b => compare a.1 b.1 = .lt
deriving DecidableEq

namespace Table

variable {κ ν : Type} [Ord κ]

instance : EmptyCollection (Table κ ν) := ⟨⟨[], .nil⟩⟩

instance : Inhabited (Table κ ν) := ⟨∅⟩

/-- The value stored under `k`. -/
def get? [BEq κ] (t : Table κ ν) (k : κ) : Option ν :=
  t.entries.lookup k

/-- Whether `k` has a value. -/
def contains [BEq κ] (t : Table κ ν) (k : κ) : Bool :=
  (t.get? k).isSome

/-- The keys in ascending order. -/
def keys (t : Table κ ν) : List κ :=
  t.entries.map (·.1)

/-- The values in ascending order of their keys. -/
def values (t : Table κ ν) : List ν :=
  t.entries.map (·.2)

/-- The number of entries. -/
def size (t : Table κ ν) : Nat :=
  t.entries.length

/-- Whether there is no entry. -/
def isEmpty (t : Table κ ν) : Bool :=
  t.entries.isEmpty

/-- The entries `l` with `k` bound to `v`, in its place. -/
def place (k : κ) (v : ν) : List (κ × ν) → List (κ × ν)
  | [] => [(k, v)]
  | e :: l =>
    match compare k e.1 with
    | .lt => (k, v) :: e :: l
    | .eq => (k, v) :: l
    | .gt => e :: place k v l

/-- A key of the result is the new one or an old one. -/
theorem fst_of_mem_place {k : κ} {v : ν} {l : List (κ × ν)} {e : κ × ν}
    (h : e ∈ place k v l) : e = (k, v) ∨ e ∈ l := by
  induction l with
  | nil => simpa [place] using h
  | cons c l ih =>
    unfold place at h
    split at h <;> simp only [List.mem_cons] at h ⊢ <;> grind

/-- Binding a key keeps the order strict. -/
theorem pairwise_place [Std.TransOrd κ] {k : κ} {v : ν} {l : List (κ × ν)}
    (h : l.Pairwise fun a b => compare a.1 b.1 = .lt) :
    (place k v l).Pairwise fun a b => compare a.1 b.1 = .lt := by
  induction l with
  | nil => simp [place]
  | cons c l ih =>
    obtain ⟨hc, hl⟩ := List.pairwise_cons.1 h
    unfold place
    split
    · rename_i hkc
      refine List.pairwise_cons.2 ⟨fun b hb => ?_, h⟩
      rcases List.mem_cons.1 hb with rfl | hb
      · exact hkc
      · exact Std.TransCmp.lt_trans hkc (hc b hb)
    · rename_i hkc
      exact List.pairwise_cons.2 ⟨fun b hb => Std.TransCmp.lt_of_eq_of_lt hkc (hc b hb), hl⟩
    · rename_i hkc
      refine List.pairwise_cons.2 ⟨fun b hb => ?_, ih hl⟩
      rcases fst_of_mem_place hb with rfl | hb
      · exact Std.OrientedCmp.lt_of_gt hkc
      · exact hc b hb

/-- The map with `k` bound to `v`, whatever it was bound to before. -/
def insert [Std.TransOrd κ] (t : Table κ ν) (k : κ) (v : ν) : Table κ ν :=
  ⟨place k v t.entries, pairwise_place t.ascending⟩

/-- The map with `k` bound to `v` unless it is bound already. -/
def insertNew [Std.TransOrd κ] [BEq κ] (t : Table κ ν) (k : κ) (v : ν) : Table κ ν :=
  if t.contains k then t else t.insert k v

/-- The entries for which `p` holds. -/
def filter (t : Table κ ν) (p : κ → ν → Bool) : Table κ ν :=
  ⟨t.entries.filter fun e => p e.1 e.2, t.ascending.filter _⟩

/-- The map without a value for `k`. -/
def erase [BEq κ] (t : Table κ ν) (k : κ) : Table κ ν :=
  t.filter fun k' _ => k' != k

/-- The map with the value of every entry replaced. -/
def map {μ : Type} (t : Table κ ν) (f : κ → ν → μ) : Table κ μ :=
  ⟨t.entries.map fun e => (e.1, f e.1 e.2), List.pairwise_map.2 t.ascending⟩

/-- The map of a list of bindings, a later one replacing an earlier one of the same key. -/
def ofList [Std.TransOrd κ] (l : List (κ × ν)) : Table κ ν :=
  l.foldl (fun t e => t.insert e.1 e.2) ∅

@[simp]
theorem get?_empty [BEq κ] (k : κ) : (∅ : Table κ ν).get? k = none := rfl

/-- Looking up a placed key gives its value, looking up another what was there before. -/
theorem lookup_place [BEq κ] [LawfulBEq κ] [Std.TransOrd κ] [Std.LawfulEqOrd κ]
    (k k' : κ) (v : ν) (l : List (κ × ν)) :
    (place k v l).lookup k' = if k' == k then some v else l.lookup k' := by
  induction l with
  | nil => simp only [place, List.lookup_cons, List.lookup_nil]; cases k' == k <;> simp
  | cons c l ih =>
    obtain ⟨k₀, v₀⟩ := c
    unfold place
    split
    · rw [List.lookup_cons]
      cases h : k' == k <;> simp
    · rename_i h
      obtain rfl := Std.LawfulEqOrd.eq_of_compare h
      simp only [List.lookup_cons]
      cases h : k' == k <;> simp
    · rename_i h
      simp only [List.lookup_cons, ih]
      cases h₁ : k' == k₀ with
      | false => simp
      | true =>
        obtain rfl := eq_of_beq h₁
        have : ¬ k' = k := fun e => by subst e; simp at h
        simp [this]

@[simp]
theorem get?_insert [BEq κ] [LawfulBEq κ] [Std.TransOrd κ] [Std.LawfulEqOrd κ]
    (t : Table κ ν) (k k' : κ) (v : ν) :
    (t.insert k v).get? k' = if k' == k then some v else t.get? k' :=
  lookup_place k k' v t.entries

end Table

end PushMesh
