import PushMesh.Json.Value
import PushMesh.Proofs.Json.Basic
import Mathlib.Data.String.Basic
import Mathlib.Order.Compare

/-!
# A written value is read back

The tokens of a value are read as the value with the fields of its objects in order, where nothing
is nested too deep (`read?_tokens`), and that is the value itself if they were in order before
(`Sorted.ordered_eq`). Whatever is read is in order, from whichever tokens (`sorted_of_read?`), and not
nested too deep (`depth_of_read?`).
-/

namespace PushMesh.Json

mutual

/-- The value with the fields of all its objects in ascending order of the keys; of several fields
with one key the last stands. -/
def ordered : Json → Json
  | array items => array (orderedItems items)
  | object fields => object (orderedFields [] fields)
  | null => null
  | bool b => bool b
  | number n => number n
  | string s => string s

/-- The items of an array with their objects in order. -/
def orderedItems : List Json → List Json
  | [] => []
  | j :: l => j.ordered :: orderedItems l

/-- Ordered fields with more put in their places. -/
def orderedFields (fields : List (String × Json)) : List (String × Json) → List (String × Json)
  | [] => fields
  | (k, j) :: l => orderedFields (Table.place k j.ordered fields) l

end

/-! ## Values in order -/

/-- A key behind all others is placed at the end. -/
theorem place_eq_append {key : String} (j : Json) {fields : List (String × Json)}
    (h : ∀ e ∈ fields, e.1 < key) : Table.place key j fields = fields ++ [(key, j)] := by
  induction fields with
  | nil => rfl
  | cons e l ih =>
    obtain ⟨he, hl⟩ := List.forall_mem_cons.1 h
    have hgt : compare key e.1 = .gt := compare_gt_iff_gt.2 he
    rw [Table.place, hgt]
    exact congrArg (e :: ·) (ih hl)

/-- Fields that are in order stay where they are: by induction on them. -/
theorem orderedFields_eq {fields l : List (String × Json)}
    (hkeys : (fields ++ l).Pairwise fun e e' => e.1 < e'.1) (hl : ∀ e ∈ l, e.2.ordered = e.2) :
    orderedFields fields l = fields ++ l := by
  induction l generalizing fields with
  | nil => rw [orderedFields, List.append_nil]
  | cons e l ih =>
    obtain ⟨he, hl⟩ := List.forall_mem_cons.1 hl
    have hlast : ∀ e' ∈ fields, e'.1 < e.1 :=
      fun e' he' => (List.pairwise_append.1 hkeys).2.2 e' he' e List.mem_cons_self
    rw [orderedFields, he, place_eq_append e.2 hlast]
    have hassoc : fields ++ e :: l = fields ++ [(e.1, e.2)] ++ l := by
      rw [List.append_assoc, List.singleton_append]
    rw [hassoc] at hkeys ⊢
    exact ih hkeys hl

/-- Items are put in order one by one. -/
theorem orderedItems_eq_map (l : List Json) : orderedItems l = l.map ordered := by
  induction l with
  | nil => rfl
  | cons j l ih => rw [orderedItems, ih, List.map_cons]

/-- A value whose objects are in order is not changed. -/
theorem Sorted.ordered_eq {j : Json} (h : j.Sorted) : j.ordered = j := by
  induction h with
  | null | bool b | number n | string s => rw [ordered]
  | @array items _ ih => rw [ordered, orderedItems_eq_map, List.map_congr_left ih, List.map_id']
  | @object fields hkeys _ ih =>
    have hfields : orderedFields [] fields = [] ++ fields := orderedFields_eq hkeys ih
    rw [ordered, hfields, List.nil_append]

/-! ## Reading -/

/-- The tokens of a value start with one that closes nothing. -/
theorem exists_tokens_eq_cons (j : Json) :
    ∃ t ts, j.tokens = t :: ts ∧ t ≠ .rightBracket ∧ t ≠ .comma := by
  cases j with
  | null | bool b | number n | string s => exact ⟨_, _, rfl, nofun, nofun⟩
  | array items => cases items <;> exact ⟨_, _, rfl, nofun, nofun⟩
  | object fields => cases fields <;> exact ⟨_, _, rfl, nofun, nofun⟩

/-- Whether a value is read back inside any open containers. -/
def ReadsBack (j : Json) : Prop :=
  ∀ {depth : Nat} {stack : List Frame} {ts : List Token}, stack.length + j.depth ≤ depth →
    readValue? depth stack (j.tokens ++ ts) = readRest? depth stack j.ordered ts

/-- An array goes on with the items that follow: by induction on them. -/
theorem readRest?_itemTokens {l : List Json} (hl : ∀ j ∈ l, ReadsBack j) {depth : Nat}
    {stack : List Frame} (hdepth : stack.length + 1 + itemsDepth l ≤ depth) (read : List Json)
    (j : Json) (ts : List Token) :
    readRest? depth (.array read :: stack) j (itemTokens l ++ ts) =
      readRest? depth stack (array ((j :: read).reverse ++ orderedItems l)) ts := by
  induction l generalizing read j with
  | nil => rw [itemTokens, List.singleton_append, readRest?, orderedItems, List.append_nil]
  | cons k l ih =>
    obtain ⟨hk, hl⟩ := List.forall_mem_cons.1 hl
    rw [itemsDepth] at hdepth
    have hkdepth : (Frame.array (j :: read) :: stack).length + k.depth ≤ depth := by
      rw [List.length_cons]
      omega
    rw [itemTokens, List.cons_append, List.append_assoc, readRest?, hk hkdepth,
      ih hl (by omega), orderedItems, List.reverse_cons, List.append_assoc, List.singleton_append]

/-- An object goes on with the fields that follow: by induction on them. -/
theorem readRest?_fieldTokens {l : List (String × Json)} (hl : ∀ e ∈ l, ReadsBack e.2) {depth : Nat}
    {stack : List Frame} (hdepth : stack.length + 1 + fieldsDepth l ≤ depth)
    (read : List (String × Json)) (key : String) (j : Json) (ts : List Token) :
    readRest? depth (.object read key :: stack) j (fieldTokens l ++ ts) =
      readRest? depth stack (object (orderedFields (Table.place key j read) l)) ts := by
  induction l generalizing read key j with
  | nil => rw [fieldTokens, List.singleton_append, readRest?, orderedFields]
  | cons e l ih =>
    obtain ⟨he, hl⟩ := List.forall_mem_cons.1 hl
    rw [fieldsDepth] at hdepth
    have hedepth :
        (Frame.object (Table.place key j read) e.1 :: stack).length + e.2.depth ≤ depth := by
      rw [List.length_cons]
      omega
    rw [fieldTokens, List.cons_append, List.cons_append, List.cons_append, List.append_assoc,
      readRest?, he hedepth, ih hl (by omega), orderedFields]

/-- Every value is read back, its objects in order. -/
theorem readsBack (j : Json) : ReadsBack j := by
  induction j with
  | null | bool b | number n | string s =>
    intro depth stack ts _
    rfl
  | array items ih =>
    intro depth stack ts hdepth
    rw [Json.depth] at hdepth
    have hopen : stack.length < depth := by omega
    cases items with
    | nil =>
      rw [tokens, List.cons_append, List.singleton_append, readValue?, if_pos hopen, ordered,
        orderedItems]
    | cons j l =>
      obtain ⟨hj, hl⟩ := List.forall_mem_cons.1 ih
      rw [itemsDepth] at hdepth
      have hjdepth : (Frame.array [] :: stack).length + j.depth ≤ depth := by
        rw [List.length_cons]
        omega
      -- an item does not start with a closing bracket, so the array is not empty
      have hgoes : ∀ ts', j.tokens ++ (itemTokens l ++ ts) = .rightBracket :: ts' → False := by
        intro ts' heq
        obtain ⟨t, rest, htokens, hclose, -⟩ := exists_tokens_eq_cons j
        rw [htokens, List.cons_append] at heq
        exact hclose (List.cons.inj heq).1
      have hopens : readValue? depth stack (.leftBracket :: (j.tokens ++ (itemTokens l ++ ts))) =
          readValue? depth (.array [] :: stack) (j.tokens ++ (itemTokens l ++ ts)) := by
        rw [readValue?, if_pos hopen]
        exact hgoes
      rw [tokens, List.cons_append, List.append_assoc, hopens, hj hjdepth,
        readRest?_itemTokens hl (by omega), ordered, orderedItems, List.reverse_singleton,
        List.singleton_append]
  | object fields ih =>
    intro depth stack ts hdepth
    rw [Json.depth] at hdepth
    have hopen : stack.length < depth := by omega
    cases fields with
    | nil =>
      rw [tokens, List.cons_append, List.singleton_append, readValue?, if_pos hopen, ordered,
        orderedFields]
    | cons e l =>
      obtain ⟨he, hl⟩ := List.forall_mem_cons.1 ih
      rw [fieldsDepth] at hdepth
      have hedepth : (Frame.object [] e.1 :: stack).length + e.2.depth ≤ depth := by
        rw [List.length_cons]
        omega
      rw [tokens, List.cons_append, List.cons_append, List.cons_append, List.append_assoc, readValue?,
        if_pos hopen, he hedepth, readRest?_fieldTokens hl (by omega), ordered, orderedFields]

/-- **A written value is read back**, its objects in order, and what follows it is left. -/
theorem read?_tokens {j : Json} {depth : Nat} (h : j.depth ≤ depth) (ts : List Token) :
    read? depth (j.tokens ++ ts) = some (j.ordered, ts) := by
  have hdepth : ([] : List Frame).length + j.depth ≤ depth := by rwa [List.length_nil, Nat.zero_add]
  rw [read?, readsBack j hdepth, readRest?]

/-! ## What is read -/

/-- Whether a property, which may depend on how many containers are open around a value, holds of all
values without parts, and of a container in order if it holds of its parts. -/
structure Hereditary (depth : Nat) (P : Nat → Json → Prop) : Prop where
  scalar : ∀ {k : Nat} {t : Token} {j : Json}, k ≤ depth → scalar? t = some j → P k j
  array : ∀ {k : Nat} {items : List Json}, k < depth → (∀ j ∈ items, P (k + 1) j) →
    P k (array items)
  object : ∀ {k : Nat} {fields : List (String × Json)}, k < depth →
    fields.Pairwise (fun e e' => e.1 < e'.1) → (∀ e ∈ fields, P (k + 1) e.2) → P k (object fields)

/-- Whether fields are in ascending order of the keys, and their values have a property. -/
def FieldsHold (P : Json → Prop) (fields : List (String × Json)) : Prop :=
  fields.Pairwise (fun e e' => e.1 < e'.1) ∧ ∀ e ∈ fields, P e.2

/-- Whether what has been read of an open container has a property. -/
def Frame.Holds (P : Json → Prop) : Frame → Prop
  | .array items => ∀ j ∈ items, P j
  | .object fields _ => FieldsHold P fields

/-- Whether no more than `depth` containers are open, and what has been read of each has a property. -/
def Open (depth : Nat) (P : Nat → Json → Prop) : List Frame → Prop
  | [] => True
  | frame :: stack =>
    stack.length < depth ∧ frame.Holds (P (stack.length + 1)) ∧ Open depth P stack

/-- No more containers are open than the depth allows. -/
theorem Open.length_le {depth : Nat} {P : Nat → Json → Prop} {stack : List Frame}
    (h : Open depth P stack) : stack.length ≤ depth := by
  cases stack with
  | nil => exact Nat.zero_le depth
  | cons frame stack => exact h.1

/-- A field that is put in its place leaves the fields in order. -/
theorem FieldsHold.place {P : Json → Prop} {fields : List (String × Json)} (h : FieldsHold P fields)
    {j : Json} (hj : P j) (key : String) : FieldsHold P (Table.place key j fields) := by
  refine ⟨?_, fun e he => ?_⟩
  · have hkeys : fields.Pairwise fun e e' => compare e.1 e'.1 = .lt :=
      h.1.imp fun hlt => compare_lt_iff_lt.2 hlt
    exact (Table.pairwise_place hkeys).imp fun hlt => compare_lt_iff_lt.1 hlt
  · rcases Table.fst_of_mem_place he with rfl | he
    · exact hj
    · exact h.2 e he

/-- What is read inside open containers has such a property: by induction on the reader, which has a
case for each token that may come next. -/
theorem Hereditary.of_readValue? {depth : Nat} {P : Nat → Json → Prop} (hP : Hereditary depth P) :
    (∀ stack ts, Open depth P stack → ∀ r ∈ readValue? depth stack ts, P 0 r.1) ∧
      ∀ stack j ts, Open depth P stack → P stack.length j →
        ∀ r ∈ readRest? depth stack j ts, P 0 r.1 := by
  apply readValue?.mutual_induct depth
  -- no token is left
  case case1 =>
    intro stack _ r hr
    rw [readValue?] at hr
    cases hr
  -- an empty array, which needs one more level
  case case2 =>
    intro stack ts hopen ih hstack r hr
    rw [readValue?, if_pos hopen] at hr
    exact ih hstack (hP.array hopen nofun) r hr
  case case3 =>
    intro stack ts hfull _ r hr
    rw [readValue?, if_neg hfull] at hr
    cases hr
  -- an array whose first item comes next
  case case4 =>
    intro stack ts hitems hopen ih hstack r hr
    rw [readValue?, if_pos hopen] at hr
    · exact ih ⟨hopen, nofun, hstack⟩ r hr
    · exact hitems
  case case5 =>
    intro stack ts hitems hfull _ r hr
    rw [readValue?, if_neg hfull] at hr
    · cases hr
    · exact hitems
  -- an empty object
  case case6 =>
    intro stack ts hopen ih hstack r hr
    rw [readValue?, if_pos hopen] at hr
    exact ih hstack (hP.object hopen .nil nofun) r hr
  case case7 =>
    intro stack ts hfull _ r hr
    rw [readValue?, if_neg hfull] at hr
    cases hr
  -- an object whose first value comes next
  case case8 =>
    intro stack k ts hopen ih hstack r hr
    rw [readValue?, if_pos hopen] at hr
    exact ih ⟨hopen, ⟨.nil, nofun⟩, hstack⟩ r hr
  case case9 =>
    intro stack k ts hfull _ r hr
    rw [readValue?, if_neg hfull] at hr
    cases hr
  -- a value without parts
  case case10 =>
    intro stack t ts h₁ h₂ h₃ h₄ j hj ih hstack r hr
    rw [readValue?, hj] at hr
    · exact ih hstack (hP.scalar hstack.length_le hj) r hr
    all_goals assumption
  case case11 =>
    intro stack t ts h₁ h₂ h₃ h₄ hnone hstack r hr
    rw [readValue?, hnone] at hr
    · cases hr
    all_goals assumption
  -- the value is the outermost one
  case case12 =>
    intro j ts _ hj r hr
    rw [readRest?] at hr
    obtain rfl := Option.some.inj hr
    exact hj
  -- a comma in an array: the value joins what has been read of it
  case case13 =>
    intro items stack j ts ih hstack hj r hr
    obtain ⟨hopen, hitems, hstack⟩ := hstack
    rw [readRest?] at hr
    exact ih ⟨hopen, List.forall_mem_cons.2 ⟨hj, hitems⟩, hstack⟩ r hr
  -- the array closes, and is itself a value of the container around it
  case case14 =>
    intro items stack j ts ih hstack hj r hr
    obtain ⟨hopen, hitems, hstack⟩ := hstack
    rw [readRest?] at hr
    have hread : ∀ i ∈ (j :: items).reverse, P (stack.length + 1) i :=
      fun i hi => List.forall_mem_cons.2 ⟨hj, hitems⟩ i (List.mem_reverse.1 hi)
    exact ih hstack (hP.array hopen hread) r hr
  -- a comma in an object: the value is put in under the key before it
  case case15 =>
    intro fields key stack j k ts ih hstack hj r hr
    obtain ⟨hopen, hfields, hstack⟩ := hstack
    rw [readRest?] at hr
    exact ih ⟨hopen, hfields.place hj key, hstack⟩ r hr
  -- the object closes
  case case16 =>
    intro fields key stack j ts ih hstack hj r hr
    obtain ⟨hopen, hfields, hstack⟩ := hstack
    rw [readRest?] at hr
    obtain ⟨hkeys, hvalues⟩ := hfields.place hj key
    exact ih hstack (hP.object hopen hkeys hvalues) r hr
  -- any other token is a fault
  case case17 =>
    intro ts frame stack j h₁ h₂ h₃ h₄ _ _ r hr
    rw [readRest?] at hr
    · cases hr
    all_goals assumption

/-- A hereditary property holds of every value that is read. -/
theorem Hereditary.of_read? {depth : Nat} {P : Nat → Json → Prop} (hP : Hereditary depth P)
    {ts : List Token} {r : Json × List Token} (h : read? depth ts = some r) : P 0 r.1 :=
  hP.of_readValue?.1 [] ts trivial r h

/-- Being in order is hereditary. -/
theorem hereditary_sorted (depth : Nat) : Hereditary depth fun _ j => j.Sorted where
  scalar {k t j} _ h := by cases t <;> cases h <;> simp
  array _ h := .array h
  object _ hkeys h := .object hkeys h

/-- **A value that was read is in order.** -/
theorem sorted_of_read? {depth : Nat} {ts : List Token} {r : Json × List Token}
    (h : read? depth ts = some r) : r.1.Sorted :=
  (hereditary_sorted depth).of_read? h

/-- Being no deeper than allowed is hereditary. -/
theorem hereditary_depth (depth : Nat) : Hereditary depth fun k j => k + j.depth ≤ depth where
  scalar {k t j} hk h := by cases t <;> cases h <;> exact hk
  array {k items} hk h := by
    have hitems : itemsDepth items ≤ depth - (k + 1) :=
      itemsDepth_le_iff.2 fun j hj => Nat.le_sub_of_add_le' (h j hj)
    rw [Json.depth]
    omega
  object {k fields} hk _ h := by
    have hfields : fieldsDepth fields ≤ depth - (k + 1) :=
      fieldsDepth_le_iff.2 fun e he => Nat.le_sub_of_add_le' (h e he)
    rw [Json.depth]
    omega

/-- **A value that was read is not nested too deep.** -/
theorem depth_of_read? {depth : Nat} {ts : List Token} {r : Json × List Token}
    (h : read? depth ts = some r) : r.1.depth ≤ depth := by
  have hle := (hereditary_depth depth).of_read? h
  rwa [Nat.zero_add] at hle

end PushMesh.Json
