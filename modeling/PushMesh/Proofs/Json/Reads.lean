import PushMesh.Json.Reader
import PushMesh.Proofs.Json.Scan
import PushMesh.Proofs.Json.Value

/-!
# Typed data is read back

`Reads r j a` says that the reader `r` takes the written form of `j` as `a`, with whatever follows it
left. Every way to build a reader keeps this: lists, records whose fields are written in the order in
which they are declared, and sums of both kinds. The text of a value of 64 bit integers is then decoded
(`Reads.decode_text`).
-/

namespace PushMesh.Json

/-- The items of an array with the bracket that closes it; a comma stands before all but the first. -/
def elementTokens (first : Bool) : List Json → List Token
  | [] => [.rightBracket]
  | j :: l => (if first then [] else [.comma]) ++ (j.tokens ++ elementTokens false l)

/-- The fields of an object with the brace that closes it; a comma stands before all but the first. -/
def memberTokens (first : Bool) : List (String × Json) → List Token
  | [] => [.rightBrace]
  | (k, j) :: l =>
    (if first then [] else [.comma]) ++ .string k :: .colon :: (j.tokens ++ memberTokens false l)

/-- The tokens of further items are those of elements after the first. -/
theorem itemTokens_eq (l : List Json) : itemTokens l = elementTokens false l := by
  induction l with
  | nil => rfl
  | cons j l ih => rw [itemTokens, elementTokens, ih]; rfl

/-- The tokens of further fields are those of members after the first. -/
theorem fieldTokens_eq (l : List (String × Json)) : fieldTokens l = memberTokens false l := by
  induction l with
  | nil => rfl
  | cons e l ih => rw [fieldTokens, memberTokens, ih]; rfl

/-- An array opens with its bracket and then has its elements. -/
theorem tokens_array (l : List Json) : (array l).tokens = .leftBracket :: elementTokens true l := by
  cases l with
  | nil => rfl
  | cons j l => rw [tokens, itemTokens_eq]; rfl

/-- An object opens with its brace and then has its members. -/
theorem tokens_object (l : List (String × Json)) :
    (object l).tokens = .leftBrace :: memberTokens true l := by
  cases l with
  | nil => rfl
  | cons e l => rw [tokens, fieldTokens_eq]; rfl

/-- Every item takes a token, and so does the closing bracket. -/
theorem length_lt_length_elementTokens (first : Bool) (l : List Json) :
    l.length < (elementTokens first l).length := by
  induction l generalizing first with
  | nil => exact Nat.zero_lt_one
  | cons j l ih =>
    obtain ⟨t, ts, hj, -⟩ := exists_tokens_eq_cons j
    have hl := ih false
    simp only [elementTokens, hj, List.length_append, List.length_cons]
    omega

/-- Every field takes a token, and so does the closing brace. -/
theorem length_lt_length_memberTokens (first : Bool) (l : List (String × Json)) :
    l.length < (memberTokens first l).length := by
  induction l generalizing first with
  | nil => exact Nat.zero_lt_one
  | cons e l ih =>
    have hl := ih false
    simp only [memberTokens, List.length_append, List.length_cons]
    omega

/-- An item has fewer tokens than its array. -/
theorem length_tokens_lt_of_mem {j : Json} {l : List Json} (h : j ∈ l) (first : Bool) :
    j.tokens.length < (elementTokens first l).length := by
  induction l generalizing first with
  | nil => exact nomatch h
  | cons k l ih =>
    simp only [elementTokens, List.length_append]
    rcases List.mem_cons.1 h with rfl | h
    · have hl := length_lt_length_elementTokens false l
      omega
    · have hlt := ih h false
      omega

/-- The value of a field has fewer tokens than its object. -/
theorem length_tokens_snd_lt_of_mem {e : String × Json} {l : List (String × Json)} (h : e ∈ l)
    (first : Bool) : e.2.tokens.length < (memberTokens first l).length := by
  induction l generalizing first with
  | nil => exact nomatch h
  | cons e' l ih =>
    simp only [memberTokens, List.length_append, List.length_cons]
    rcases List.mem_cons.1 h with rfl | h
    · omega
    · have hlt := ih h false
      omega

/-- A value has at least as many tokens as containers stand inside each other in it. -/
theorem depth_le_length_tokens (j : Json) : j.depth ≤ j.tokens.length := by
  induction j with
  | null | bool b | number n | string s => exact Nat.zero_le _
  | array items ih =>
    rw [tokens_array, List.length_cons, depth, Nat.add_le_add_iff_right, itemsDepth_le_iff]
    exact fun j hj => Nat.le_trans (ih j hj) (Nat.le_of_lt (length_tokens_lt_of_mem hj true))
  | object fields ih =>
    rw [tokens_object, List.length_cons, depth, Nat.add_le_add_iff_right, fieldsDepth_le_iff]
    exact fun e he => Nat.le_trans (ih e he) (Nat.le_of_lt (length_tokens_snd_lt_of_mem he true))

namespace Reader

variable {α β σ : Type}

/-! ## Single steps -/

/-- A reader that succeeds is followed by the next. -/
theorem bind_run {r : Reader α} (f : α → Reader β) {d : Nat} {ts ts' : List Token} {a : α}
    (h : r d ts = .ok (a, ts')) : (r >>= f) d ts = f a d ts' := by
  change (r d ts >>= fun q => f q.1 d q.2) = _
  rw [h]
  rfl

/-- A function over a reader is applied to what it reads. -/
theorem map_run {r : Reader α} (f : α → β) {d : Nat} {ts ts' : List Token} {a : α}
    (h : r d ts = .ok (a, ts')) : (f <$> r) d ts = .ok (f a, ts') := by
  change (r d ts >>= fun q => pure (f q.1, q.2)) = _
  rw [h]
  rfl

/-- An expected token is read. -/
theorem expect_run (t : Token) (d : Nat) (ts : List Token) : expect t d (t :: ts) = .ok ((), ts) := by
  rw [expect, bind_run _ (rfl : next d (t :: ts) = .ok (t, ts)), if_pos rfl]
  rfl

/-- After the last item an array is at its end. -/
theorem hasItem_nil (first : Bool) (d : Nat) (ts : List Token) :
    hasItem first d (elementTokens first [] ++ ts) = .ok (false, .rightBracket :: ts) := rfl

/-- Before an item the comma is read, except at the first. -/
theorem hasItem_cons (first : Bool) (j : Json) (l : List Json) (d : Nat) (ts : List Token) :
    hasItem first d (elementTokens first (j :: l) ++ ts) =
      .ok (true, j.tokens ++ (elementTokens false l ++ ts)) := by
  obtain ⟨t, rest, hj, hclose, hcomma⟩ := exists_tokens_eq_cons j
  rw [elementTokens, hj, List.append_assoc, List.append_assoc]
  cases first <;> cases t <;> first
    | rfl
    | exact absurd rfl hclose
    | exact absurd rfl hcomma

/-- After the last member an object is at its end. -/
theorem nextKey_nil (first : Bool) (d : Nat) (ts : List Token) :
    nextKey first d (memberTokens first [] ++ ts) = .ok (none, .rightBrace :: ts) := rfl

/-- Before a member its key is read, after the comma except at the first. -/
theorem nextKey_cons (first : Bool) (k : String) (j : Json) (l : List (String × Json)) (d : Nat)
    (ts : List Token) :
    nextKey first d (memberTokens first ((k, j) :: l) ++ ts) =
      .ok (some k, .colon :: (j.tokens ++ (memberTokens false l ++ ts))) := by
  rw [memberTokens, List.append_assoc, List.cons_append, List.cons_append, List.append_assoc]
  cases first <;> rfl

/-! ## Values by themselves -/

/-- Whether a reader takes the written form of a value as `a`. -/
def Reads (r : Reader α) (j : Json) (a : α) : Prop :=
  ∀ (d : Nat) (ts : List Token), j.depth ≤ d → r d (j.tokens ++ ts) = .ok (a, ts)

/-- What is read of a value may be passed through a function. -/
theorem Reads.map {r : Reader α} {j : Json} {a : α} (h : Reads r j a) (f : α → β) :
    Reads (f <$> r) j (f a) :=
  fun d ts hd => map_run f (h d ts hd)

/-- A string is read from its value. -/
theorem reads_string (s : String) : Reads string (.string s) s := fun _ _ _ => rfl

/-- A truth value is read from its value. -/
theorem reads_bool (b : Bool) : Reads bool (.bool b) b := fun _ _ _ => rfl

/-- A word is read from its number. -/
theorem reads_word (n : UInt64) : Reads word (.nat n.toNat) n := by
  intro d ts _
  have hword : 0 ≤ (n.toNat : Int) ∧ (n.toNat : Int).toNat < UInt64.size :=
    ⟨Int.natCast_nonneg _, n.toNat_lt⟩
  rw [word, bind_run _ (rfl : next d ((Json.nat n.toNat).tokens ++ ts) = .ok (_, ts))]
  dsimp only
  rw [if_pos hword, Int.toNat_natCast, UInt64.ofNat_toNat]
  rfl

/-- Any value whose objects are in order is read as it is. -/
theorem reads_value {j : Json} (h : j.Sorted) : Reads value j j := by
  intro d ts hd
  rw [value, read?_tokens hd, h.ordered_eq]

/-- What is not null is read as a value that is not missing. -/
theorem option_run (r : Reader α) {j : Json} (hj : j ≠ .null) (d : Nat) (ts : List Token) :
    option r d (j.tokens ++ ts) = (some <$> r) d (j.tokens ++ ts) := by
  cases j with
  | null => exact absurd rfl hj
  | bool b | number n | string s => rfl
  | array l => rw [tokens_array]; rfl
  | object l => rw [tokens_object]; rfl

/-- A value that may be missing is read back if what it is written as is never null. -/
theorem reads_option {r : Reader α} {f : α → Json} (hr : ∀ a, Reads r (f a) a)
    (hf : ∀ a, f a ≠ .null) (o : Option α) : Reads (option r) (Json.option f o) o := by
  intro d ts hd
  cases o with
  | none => rfl
  | some a => exact (option_run r (hf a) d ts).trans (map_run some (hr a d ts hd))

/-! ## Arrays -/

/-- The items of an array are read one by one: by induction on them. -/
theorem items_run {r : Reader α} {f : α → Json} {l : List α} (hl : ∀ a ∈ l, Reads r (f a) a)
    {d : Nat} (hd : ∀ a ∈ l, (f a).depth ≤ d) {fuel : Nat} (hfuel : l.length < fuel) (first : Bool)
    (ts : List Token) :
    items r fuel first d (elementTokens first (l.map f) ++ ts) = .ok (l, ts) := by
  induction l generalizing fuel first with
  | nil =>
    obtain ⟨fuel, rfl⟩ := Nat.exists_eq_add_of_lt hfuel
    rw [List.map_nil, items, bind_run _ (hasItem_nil first d ts)]
    rfl
  | cons a l ih =>
    obtain ⟨fuel, rfl⟩ := Nat.exists_eq_succ_of_ne_zero (Nat.ne_zero_of_lt hfuel)
    obtain ⟨ha, hl⟩ := List.forall_mem_cons.1 hl
    obtain ⟨had, hd⟩ := List.forall_mem_cons.1 hd
    have hrest := ih hl hd (Nat.lt_of_succ_lt_succ hfuel) false
    rw [List.map_cons, items, bind_run _ (hasItem_cons first (f a) (l.map f) d ts)]
    rw [if_pos rfl, bind_run _ (ha d _ had), bind_run _ hrest]
    rfl

/-- A list is read back if its items are. -/
theorem reads_list {r : Reader α} {f : α → Json} {l : List α} (hl : ∀ a ∈ l, Reads r (f a) a) :
    Reads (list r) (Json.list f l) l := by
  intro d ts hd
  obtain ⟨d, rfl, hitems⟩ := depth_array_le_iff.1 hd
  have hfuel : l.length < (elementTokens true (l.map f) ++ ts).length + 1 := by
    have hlength := length_lt_length_elementTokens true (l.map f)
    rw [List.length_map] at hlength
    rw [List.length_append]
    omega
  rw [Json.list, tokens_array, List.cons_append]
  exact items_run hl (fun a ha => hitems _ (List.mem_map_of_mem ha)) hfuel true ts

/-! ## Records -/

/-- Whether the written fields, in the order of the fields of a record, make `s'` of `s`; a field that
is not required may have been left out. -/
inductive Fills : List (Field σ) → List (String × Json) → σ → σ → Prop where
  | nil (s : σ) : Fills [] [] s s
  | cons {f : Field σ} {fields : List (Field σ)} {j : Json} {written : List (String × Json)} {s s' : σ}
    {put : σ → σ} (hread : Reads f.read j put) (h : Fills fields written (put s) s') :
    Fills (f :: fields) ((f.name, j) :: written) s s'
  | skip {f : Field σ} {fields : List (Field σ)} {written : List (String × Json)} {s s' : σ}
    (hpresence : f.presence ≠ .required) (h : Fills fields written s s') :
    Fills (f :: fields) written s s'

/-- A record of one field is its value. -/
theorem Fills.single {r : Reader α} {j : Json} {a : α} (h : Reads r j a) (name : String) (blank : α) :
    Fills [.required name r fun a _ => a] [(name, j)] blank a :=
  .cons (h.map _) (.nil a)

/-- What has a name of its own is found by it. -/
theorem find?_of_nodup {l : List α} {name : α → String} (h : (l.map name).Nodup) {a : α} (ha : a ∈ l) :
    l.find? (name · == name a) = some a := by
  induction l with
  | nil => exact nomatch ha
  | cons b l ih =>
    obtain ⟨hb, hl⟩ := List.nodup_cons.1 h
    rw [List.find?_cons]
    rcases List.mem_cons.1 ha with rfl | ha
    · rw [beq_self_eq_true]
    · have hne : (name b == name a) = false := by
        rw [beq_eq_false_iff_ne]
        rintro heq
        exact hb (heq ▸ List.mem_map_of_mem ha)
      rw [hne]
      exact ih hl ha

/-- Whether the fields `done` of a record have been dealt with, of which those in `seen` were there,
and `fields` are left. -/
structure Underway (done fields : List (Field σ)) (seen : List String) : Prop where
  names : ((done ++ fields).map (·.name)).Nodup
  known : ∀ k ∈ seen, k ∈ done.map (·.name)
  required : ∀ f ∈ done, f.presence = .required → f.name ∈ seen

namespace Underway

variable {done fields : List (Field σ)} {seen : List String} {f : Field σ}

/-- At the start of a record no field is done and no key is seen. -/
theorem start (h : (fields.map (·.name)).Nodup) : Underway [] fields [] :=
  ⟨h, fun _ hk => absurd hk List.not_mem_nil, fun _ hf => absurd hf List.not_mem_nil⟩

/-- The next field is the one found by its name. -/
theorem find? (h : Underway done (f :: fields) seen) :
    (done ++ f :: fields).find? (·.name == f.name) = some f :=
  find?_of_nodup h.names (List.mem_append_right _ List.mem_cons_self)

/-- The next field's key was not seen before. -/
theorem unseen (h : Underway done (f :: fields) seen) : seen.contains f.name ≠ true := by
  have hnames := h.names
  rw [List.map_append, List.map_cons] at hnames
  rw [Ne, List.contains_iff_mem]
  exact fun hmem => (List.nodup_append.1 hnames).2.2 _ (h.known _ hmem) _ List.mem_cons_self rfl

/-- The next field is read. -/
theorem read (h : Underway done (f :: fields) seen) :
    Underway (done ++ [f]) fields (f.name :: seen) where
  names := List.append_cons done f fields ▸ h.names
  known k hk := by
    rw [List.map_append, List.map_singleton, List.mem_append, List.mem_singleton]
    rcases List.mem_cons.1 hk with rfl | hk
    · exact .inr rfl
    · exact .inl (h.known k hk)
  required g hg hrequired := by
    rcases List.mem_append.1 hg with hg | hg
    · exact List.mem_cons_of_mem _ (h.required g hg hrequired)
    · obtain rfl := List.mem_singleton.1 hg
      exact List.mem_cons_self

/-- The next field is not there. -/
theorem skip (h : Underway done (f :: fields) seen) (hpresence : f.presence ≠ .required) :
    Underway (done ++ [f]) fields seen where
  names := List.append_cons done f fields ▸ h.names
  known k hk := by
    rw [List.map_append]
    exact List.mem_append_left _ (h.known k hk)
  required g hg hrequired := by
    rcases List.mem_append.1 hg with hg | hg
    · exact h.required g hg hrequired
    · obtain rfl := List.mem_singleton.1 hg
      exact absurd hrequired hpresence

/-- At the end no field is missing that is required. -/
theorem complete (h : Underway done [] seen) :
    ((done ++ []).all fun f => f.presence ≠ Presence.required || seen.contains f.name) = true := by
  rw [List.append_nil, List.all_eq_true]
  intro f hf
  by_cases hrequired : f.presence = .required
  · simp [h.required f hf hrequired]
  · simp [hrequired]

end Underway

/-- The fields of a record are read one by one: by induction on those that are left. -/
theorem Fills.objectFields_run {fields : List (Field σ)} {written : List (String × Json)} {s s' : σ}
    (h : Fills fields written s s') {done : List (Field σ)} {seen : List String}
    (hunder : Underway done fields seen) {d : Nat} (hd : ∀ e ∈ written, e.2.depth ≤ d) {fuel : Nat}
    (hfuel : written.length < fuel) (first : Bool) (ts : List Token) :
    objectFields (done ++ fields) fuel seen first s d (memberTokens first written ++ ts) =
      .ok (s', ts) := by
  induction h generalizing done seen fuel first with
  | nil s =>
    obtain ⟨fuel, rfl⟩ := Nat.exists_eq_succ_of_ne_zero (Nat.ne_zero_of_lt hfuel)
    rw [objectFields, bind_run _ (nextKey_nil first d ts)]
    dsimp only
    rw [if_pos hunder.complete, bind_run _ (expect_run .rightBrace d ts)]
    rfl
  | @cons f fields j written s s' put hread h ih =>
    obtain ⟨fuel, rfl⟩ := Nat.exists_eq_succ_of_ne_zero (Nat.ne_zero_of_lt hfuel)
    obtain ⟨hjd, hd⟩ := List.forall_mem_cons.1 hd
    have hrest := ih hunder.read hd (Nat.lt_of_succ_lt_succ hfuel) false
    rw [← List.append_cons] at hrest
    rw [objectFields, bind_run _ (nextKey_cons first f.name j written d ts)]
    dsimp only
    rw [hunder.find?]
    dsimp only
    rw [if_neg hunder.unseen, bind_run _ (expect_run .colon d _), bind_run _ (hread d _ hjd)]
    exact hrest
  | @skip f fields written s s' hpresence h ih =>
    rw [List.append_cons]
    exact ih (hunder.skip hpresence) hd hfuel first

/-- A record is read back from the object of its fields. -/
theorem Fills.reads_objectRecord {fields : List (Field σ)} {written : List (String × Json)}
    {blank s : σ} (h : Fills fields written blank s) (hnames : (fields.map (·.name)).Nodup) :
    Reads (objectRecord fields blank) (.object written) s := by
  intro d ts hd
  obtain ⟨d, rfl, hwritten⟩ := depth_object_le_iff.1 hd
  have hfuel : written.length < (memberTokens true written ++ ts).length + 1 := by
    have hlength := length_lt_length_memberTokens true written
    rw [List.length_append]
    omega
  rw [tokens_object, List.cons_append]
  exact h.objectFields_run (.start hnames) hwritten hfuel true ts

/-- A record is read from an object that fills it, if no two of its fields share a name. -/
theorem Fills.reads_record {fields : List (Field σ)} {written : List (String × Json)} {blank s : σ}
    (h : Fills fields written blank s) (hnames : (fields.map (·.name)).Nodup) :
    Reads (record fields blank) (.object written) s := by
  intro d ts hd
  have hobject := h.reads_objectRecord hnames d ts hd
  rw [tokens_object, List.cons_append] at hobject ⊢
  exact hobject

/-! ## Sums -/

/-- An object without further members has no further key of interest. -/
theorem relevantKey_nil (tagName contentName : String) (fuel : Nat) (first : Bool) (d : Nat)
    (ts : List Token) :
    relevantKey tagName contentName (fuel + 1) first d (memberTokens first [] ++ ts) =
      .ok (none, .rightBrace :: ts) := by
  rw [relevantKey, bind_run _ (nextKey_nil first d ts)]
  rfl

/-- A key that names the tag or the content is of interest at once. -/
theorem relevantKey_cons {tagName contentName k : String} (hk : k = tagName ∨ k = contentName)
    (fuel : Nat) (first : Bool) (j : Json) (l : List (String × Json)) (d : Nat) (ts : List Token) :
    relevantKey tagName contentName (fuel + 1) first d (memberTokens first ((k, j) :: l) ++ ts) =
      .ok (some k, .colon :: (j.tokens ++ (memberTokens false l ++ ts))) := by
  rw [relevantKey, bind_run _ (nextKey_cons first k j l d ts)]
  dsimp only
  rw [if_pos hk]
  rfl

/-- A case is found by its name, if no two cases share one. -/
theorem findCase_run {cases : List (Case α)} (hnames : (cases.map (·.name)).Nodup) {c : Case α}
    (hc : c ∈ cases) (d : Nat) (ts : List Token) : findCase cases c.name d ts = .ok (c, ts) := by
  rw [findCase, find?_of_nodup hnames hc]
  rfl

/-- The tag of a case is read from its name. -/
theorem tag_run {cases : List (Case α)} (hnames : (cases.map (·.name)).Nodup) {c : Case α}
    (hc : c ∈ cases) (d : Nat) (ts : List Token) :
    tag cases d ((Json.string c.name).tokens ++ ts) = .ok (c, ts) := by
  rw [tag, bind_run _ (rfl : next d ((Json.string c.name).tokens ++ ts) = .ok (.string c.name, ts))]
  exact findCase_run hnames hc d ts

/-- A case with content is read back from the object of its name and the content. -/
theorem reads_sum {cases : List (Case α)} (hnames : (cases.map (·.name)).Nodup) {c : Case α}
    (hc : c ∈ cases) {tagName contentName : String} (hne : contentName ≠ tagName) {j : Json} {a : α}
    (h : Reads c.content j a) :
    Reads (sum tagName contentName cases)
      (.object [(tagName, .string c.name), (contentName, j)]) a := by
  intro d ts hd
  obtain ⟨d, rfl, hwritten⟩ := depth_object_le_iff.1 hd
  have hjd : j.depth ≤ d := hwritten (contentName, j) (List.mem_cons_of_mem _ List.mem_cons_self)
  rw [tokens_object, List.cons_append]
  change sumObject tagName contentName cases (_ + 1) d _ = _
  rw [sumObject, bind_run _ (relevantKey_cons (.inl rfl) _ true _ _ d ts)]
  dsimp only
  rw [bind_run _ (expect_run .colon d _), if_pos rfl, bind_run _ (tag_run hnames hc d _),
    bind_run _ (relevantKey_cons (.inr rfl) _ false j [] d ts)]
  dsimp only
  rw [if_neg hne, bind_run _ (expect_run .colon d _), bind_run _ (h d _ hjd), endOfSum,
    bind_run _ (relevantKey_nil tagName contentName _ false d ts)]
  dsimp only
  rw [bind_run _ (expect_run .rightBrace d ts)]
  rfl

/-- A case without content is read back from the object of its name. -/
theorem reads_sum_bare {cases : List (Case α)} (hnames : (cases.map (·.name)).Nodup) {c : Case α}
    (hc : c ∈ cases) (tagName contentName : String) {a : α} (ha : c.bare = some a) :
    Reads (sum tagName contentName cases) (.object [(tagName, .string c.name)]) a := by
  intro d ts hd
  obtain ⟨d, rfl, -⟩ := depth_object_le_iff.1 hd
  rw [tokens_object, List.cons_append]
  change sumObject tagName contentName cases (_ + 1) d _ = _
  rw [sumObject, bind_run _ (relevantKey_cons (.inl rfl) _ true _ _ d ts)]
  dsimp only
  rw [bind_run _ (expect_run .colon d _), if_pos rfl, bind_run _ (tag_run hnames hc d _),
    bind_run _ (relevantKey_nil tagName contentName _ false d ts)]
  dsimp only
  rw [ha]
  dsimp only
  rw [bind_run _ (expect_run .rightBrace d ts)]
  rfl

/-! ## Flat sums -/

/-- The tokens of a value are set aside. -/
theorem buffered_run {j : Json} {d : Nat} (hd : j.depth ≤ d) (ts : List Token) :
    buffered d (j.tokens ++ ts) = .ok (j.tokens, ts) := by
  have hvalue : value d (j.tokens ++ ts) = .ok (j.ordered, ts) := by
    rw [value, read?_tokens hd]
  have htake : (j.tokens ++ ts).take ((j.tokens ++ ts).length - ts.length) = j.tokens := by
    rw [List.length_append, Nat.add_sub_cancel, List.take_left']
    rfl
  rw [buffered, bind_run _ (rfl : rest d (j.tokens ++ ts) = .ok (_, j.tokens ++ ts)),
    bind_run _ hvalue, bind_run _ (rfl : rest d ts = .ok (ts, ts)), htake]
  rfl

/-- The fields of an object are set aside behind those that are set aside already, once the case is
known: by induction on them. -/
theorem flatFields_run {tagName : String} (cases : List (Case α)) (c : Case α)
    {written : List (String × Json)} (hnames : ∀ e ∈ written, e.1 ≠ tagName) {d : Nat}
    (hd : ∀ e ∈ written, e.2.depth ≤ d) {fuel : Nat} (hfuel : written.length < fuel)
    (fields : List Token) (ts : List Token) :
    ∃ fields', flatFields tagName cases fuel false (some c) fields d
        (memberTokens false written ++ ts) = .ok ((some c, fields'), ts) ∧
      fields' ++ [.rightBrace] = fields ++ memberTokens fields.isEmpty written := by
  induction written generalizing fuel fields with
  | nil =>
    obtain ⟨fuel, rfl⟩ := Nat.exists_eq_succ_of_ne_zero (Nat.ne_zero_of_lt hfuel)
    refine ⟨fields, ?_, rfl⟩
    rw [flatFields, bind_run _ (nextKey_nil false d ts)]
    dsimp only
    rw [bind_run _ (expect_run .rightBrace d ts)]
    rfl
  | cons e written ih =>
    obtain ⟨fuel, rfl⟩ := Nat.exists_eq_succ_of_ne_zero (Nat.ne_zero_of_lt hfuel)
    obtain ⟨he, hnames⟩ := List.forall_mem_cons.1 hnames
    obtain ⟨hed, hd⟩ := List.forall_mem_cons.1 hd
    -- the first field is set aside behind a comma, unless it is the very first
    obtain ⟨fields', hrun, hfields⟩ := ih hnames hd (Nat.lt_of_succ_lt_succ hfuel)
      (fields ++ (if fields.isEmpty then [] else [.comma]) ++ .string e.1 :: .colon :: e.2.tokens)
    refine ⟨fields', ?_, ?_⟩
    · rw [flatFields, bind_run _ (nextKey_cons false e.1 e.2 written d ts)]
      dsimp only
      rw [if_neg he, bind_run _ (expect_run .colon d _), bind_run _ (buffered_run hed _)]
      exact hrun
    · have hsome : (fields ++ (if fields.isEmpty then [] else [Token.comma]) ++
          Token.string e.1 :: .colon :: e.2.tokens).isEmpty = false := by
        rw [List.isEmpty_eq_false_iff]
        exact List.append_ne_nil_of_right_ne_nil _ (List.cons_ne_nil _ _)
      rw [hfields, hsome, memberTokens, List.append_assoc, List.append_assoc]
      rfl

/-- The case is read from the fields that are set aside. -/
theorem flatSum_run {tagName : String} {cases : List (Case α)} {c : Case α} {fields : List Token}
    {d : Nat} {ts ts' : List Token}
    (h : flatFields tagName cases (ts.length + 1) true none [] d ts = .ok ((some c, fields), ts')) :
    flatSum tagName cases (d + 1) (.leftBrace :: ts) =
      within (.leftBrace :: fields ++ [.rightBrace]) c.content d ts' := by
  have hnext : next (d + 1) (.leftBrace :: ts) = .ok (.leftBrace, ts) := rfl
  have hrest : rest (d + 1) ts = .ok (ts, ts) := rfl
  rw [flatSum, bind_run _ hnext]
  dsimp only
  rw [bind_run _ hrest, nested, bind_run _ h]

/-- A case is read back from an object that names it before the fields of its content. -/
theorem reads_flatSum {cases : List (Case α)} (hnames : (cases.map (·.name)).Nodup) {c : Case α}
    (hc : c ∈ cases) {tagName : String} {written : List (String × Json)}
    (hwritten : ∀ e ∈ written, e.1 ≠ tagName) {a : α} (h : Reads c.content (.object written) a) :
    Reads (flatSum tagName cases) (.object ((tagName, .string c.name) :: written)) a := by
  intro d ts hd
  obtain ⟨d, rfl, hdepth⟩ := depth_object_le_iff.1 hd
  have hdepth : ∀ e ∈ written, e.2.depth ≤ d := fun e he => hdepth e (List.mem_cons_of_mem _ he)
  let fuel := (memberTokens true ((tagName, .string c.name) :: written) ++ ts).length
  have hfuel : written.length < fuel := by
    have hlength := length_lt_length_memberTokens true ((tagName, .string c.name) :: written)
    rw [List.length_cons] at hlength
    simp only [fuel, List.length_append]
    omega
  obtain ⟨fields, hfields, hclose⟩ := flatFields_run cases c hwritten hdepth hfuel [] ts
  have hrun : flatFields tagName cases (fuel + 1) true none [] d
      (memberTokens true ((tagName, .string c.name) :: written) ++ ts) =
        .ok ((some c, fields), ts) := by
    rw [flatFields, bind_run _ (nextKey_cons true tagName (.string c.name) written d ts)]
    dsimp only
    rw [if_pos rfl, Option.isSome_none, if_neg Bool.false_ne_true,
      bind_run _ (expect_run .colon d _), bind_run _ (reads_string c.name d _ (Nat.zero_le d)),
      bind_run _ (findCase_run hnames hc d _)]
    exact hfields
  -- what was set aside is the content
  have hcontent : .leftBrace :: fields ++ [.rightBrace] = (object written).tokens := by
    rw [tokens_object, List.cons_append, hclose]
    rfl
  have hwithin : within (.leftBrace :: fields ++ [.rightBrace]) c.content d ts = .ok (a, ts) := by
    have hread := h _ [] (depth_le_length_tokens (object written))
    rw [List.append_nil] at hread
    rw [hcontent, within, hread]
  rw [tokens_object, List.cons_append]
  exact (flatSum_run hrun).trans hwithin

/-! ## Whole texts -/

/-- **The text of a value is decoded** by a reader that takes its written form. -/
theorem Reads.decode_text {r : Reader α} {j : Json} {a : α} (h : Reads r j a) (hj : j.Integral)
    (hd : j.depth ≤ greatestDepth) : decode r j.text = .ok a := by
  have hread := h greatestDepth [] hd
  rw [List.append_nil] at hread
  rw [decode, hj.scan_text, run, hread]

end Reader

end PushMesh.Json
