import PushMesh.Proofs.Json.Reads

/-!
# What is nested too deep is not read

A value with more containers inside each other than may be opened is not read (`read?_eq_none`), and
neither is a record with such a value among its fields (`Stops`) or a case of a sum with such content.
To the reader of a whole text that text is malformed (`Denies.decode_text`). What a reader does give is
described by `Yields`: free-form data are in order and no deeper than allowed, and a record has what
putting in each of its fields keeps (`yields_record`).
-/

namespace PushMesh.Json

/-! ## Values -/

/-- Whether a value is not read inside open containers if it is nested deeper than what is left. -/
def RunsOut (j : Json) : Prop :=
  ∀ {depth : Nat} {stack : List Frame} {ts : List Token}, stack.length ≤ depth →
    depth < stack.length + j.depth → readValue? depth stack (j.tokens ++ ts) = none

/-- An array is not read if one of the items that follow is too deep: by induction on them. -/
theorem readRest?_itemTokens_eq_none {l : List Json} (hl : ∀ j ∈ l, RunsOut j) {depth : Nat}
    {stack : List Frame} (hopen : stack.length + 1 ≤ depth)
    (hdeep : depth < stack.length + 1 + itemsDepth l) (read : List Json) (j : Json) (ts : List Token) :
    readRest? depth (.array read :: stack) j (itemTokens l ++ ts) = none := by
  induction l generalizing read j with
  | nil =>
    rw [itemsDepth] at hdeep
    omega
  | cons k l ih =>
    obtain ⟨hk, hl⟩ := List.forall_mem_cons.1 hl
    rw [itemsDepth] at hdeep
    rw [itemTokens, List.cons_append, List.append_assoc, readRest?]
    by_cases hkdeep : depth < stack.length + 1 + k.depth
    · exact hk hopen hkdeep
    · rw [readsBack k (Nat.not_lt.1 hkdeep)]
      exact ih hl (by omega) _ _

/-- An object is not read if one of the fields that follow is too deep: by induction on them. -/
theorem readRest?_fieldTokens_eq_none {l : List (String × Json)} (hl : ∀ e ∈ l, RunsOut e.2)
    {depth : Nat} {stack : List Frame} (hopen : stack.length + 1 ≤ depth)
    (hdeep : depth < stack.length + 1 + fieldsDepth l) (read : List (String × Json)) (key : String)
    (j : Json) (ts : List Token) :
    readRest? depth (.object read key :: stack) j (fieldTokens l ++ ts) = none := by
  induction l generalizing read key j with
  | nil =>
    rw [fieldsDepth] at hdeep
    omega
  | cons e l ih =>
    obtain ⟨he, hl⟩ := List.forall_mem_cons.1 hl
    rw [fieldsDepth] at hdeep
    rw [fieldTokens, List.cons_append, List.cons_append, List.cons_append, List.append_assoc,
      readRest?]
    by_cases hedeep : depth < stack.length + 1 + e.2.depth
    · exact he hopen hedeep
    · rw [readsBack e.2 (Nat.not_lt.1 hedeep)]
      exact ih hl (by omega) _ _ _

/-- No value is read that is too deep. -/
theorem runsOut (j : Json) : RunsOut j := by
  induction j with
  | null | bool b | number n | string s =>
    intro depth stack ts hopen hdeep
    exact absurd hdeep (Nat.not_lt.2 hopen)
  | array items ih =>
    intro depth stack ts hopen hdeep
    rw [Json.depth] at hdeep
    cases items with
    | nil =>
      have hfull : ¬stack.length < depth := by
        rw [itemsDepth] at hdeep
        omega
      rw [tokens, List.cons_append, List.singleton_append, readValue?, if_neg hfull]
    | cons j l =>
      obtain ⟨hj, hl⟩ := List.forall_mem_cons.1 ih
      rw [itemsDepth] at hdeep
      -- an item does not start with a closing bracket
      have hgoes : ∀ ts', j.tokens ++ (itemTokens l ++ ts) = .rightBracket :: ts' → False := by
        intro ts' heq
        obtain ⟨t, rest, htokens, hclose, -⟩ := exists_tokens_eq_cons j
        rw [htokens, List.cons_append] at heq
        exact hclose (List.cons.inj heq).1
      rw [tokens, List.cons_append, List.append_assoc, readValue?]
      · split
        · next hlt =>
          -- either the first item is too deep already, or it is read and one of the others is
          by_cases hjdeep : depth < stack.length + 1 + j.depth
          · exact @hj depth (.array [] :: stack) _ hlt hjdeep
          · rw [readsBack j (Nat.not_lt.1 hjdeep)]
            exact readRest?_itemTokens_eq_none hl hlt (by omega) _ _ _
        · rfl
      · exact hgoes
  | object fields ih =>
    intro depth stack ts hopen hdeep
    rw [Json.depth] at hdeep
    cases fields with
    | nil =>
      have hfull : ¬stack.length < depth := by
        rw [fieldsDepth] at hdeep
        omega
      rw [tokens, List.cons_append, List.singleton_append, readValue?, if_neg hfull]
    | cons e l =>
      obtain ⟨he, hl⟩ := List.forall_mem_cons.1 ih
      rw [fieldsDepth] at hdeep
      rw [tokens, List.cons_append, List.cons_append, List.cons_append, List.append_assoc, readValue?]
      split
      · next hlt =>
        -- the same for the values of an object
        by_cases hedeep : depth < stack.length + 1 + e.2.depth
        · exact @he depth (.object [] e.1 :: stack) _ hlt hedeep
        · rw [readsBack e.2 (Nat.not_lt.1 hedeep)]
          exact readRest?_fieldTokens_eq_none hl hlt (by omega) _ _ _ _
      · rfl

/-- **A value that is nested too deep is not read.** -/
theorem read?_eq_none {j : Json} {depth : Nat} (h : depth < j.depth) (ts : List Token) :
    read? depth (j.tokens ++ ts) = none :=
  runsOut j (Nat.zero_le depth) (by rwa [List.length_nil, Nat.zero_add])

namespace Reader

variable {α β σ : Type} {d : Nat}

/-! ## Typed data -/

/-- What comes after an error does not matter. -/
theorem bind_error {r : Reader α} (f : α → Reader β) {ts : List Token} {e : Fault}
    (h : r d ts = .error e) : (r >>= f) d ts = .error e := by
  change (r d ts >>= fun q => f q.1 d q.2) = _
  rw [h]
  rfl

/-- A function over a reader does not mend an error. -/
theorem map_error {r : Reader α} (f : α → β) {ts : List Token} {e : Fault}
    (h : r d ts = .error e) : (f <$> r) d ts = .error e := by
  change (r d ts >>= fun q => pure (f q.1, q.2)) = _
  rw [h]
  rfl

/-- Whether the written form of a value is malformed to a reader that may open `d` containers. -/
def Denies (r : Reader α) (j : Json) (d : Nat) : Prop :=
  ∀ ts, r d (j.tokens ++ ts) = .error .malformed

/-- A reader that denies a value denies it under a function too. -/
theorem Denies.map {r : Reader α} {j : Json} (h : Denies r j d) (f : α → β) : Denies (f <$> r) j d :=
  fun ts => map_error f (h ts)

/-- A value that is deeper than allowed is denied. -/
theorem denies_value {j : Json} (h : d < j.depth) : Denies value j d := by
  intro ts
  rw [value, read?_eq_none h]

/-- Whether the written fields, in the order of the fields of a record, are read up to one that is
malformed. -/
inductive Stops (d : Nat) : List (Field σ) → List (String × Json) → Prop where
  | here {f : Field σ} {fields : List (Field σ)} {j : Json} {written : List (String × Json)}
    (hdenied : Denies f.read j d) : Stops d (f :: fields) ((f.name, j) :: written)
  | read {f : Field σ} {fields : List (Field σ)} {j : Json} {written : List (String × Json)}
    {put : σ → σ} (hread : Reads f.read j put) (hj : j.depth ≤ d) (h : Stops d fields written) :
    Stops d (f :: fields) ((f.name, j) :: written)
  | skip {f : Field σ} {fields : List (Field σ)} {written : List (String × Json)}
    (hpresence : f.presence ≠ .required) (h : Stops d fields written) : Stops d (f :: fields) written

/-- The fields of such a record are read one by one up to that one: by induction on them. -/
theorem Stops.objectFields_run {fields : List (Field σ)} {written : List (String × Json)}
    (h : Stops d fields written) {done : List (Field σ)} {seen : List String}
    (hunder : Underway done fields seen) {fuel : Nat} (hfuel : written.length < fuel) (first : Bool)
    (s : σ) (ts : List Token) :
    objectFields (done ++ fields) fuel seen first s d (memberTokens first written ++ ts) =
      .error .malformed := by
  induction h generalizing done seen fuel first s with
  | @here f fields j written hdenied =>
    obtain ⟨fuel, rfl⟩ := Nat.exists_eq_succ_of_ne_zero (Nat.ne_zero_of_lt hfuel)
    rw [objectFields, bind_run _ (nextKey_cons first f.name j written d ts)]
    dsimp only
    rw [hunder.find?]
    dsimp only
    rw [if_neg hunder.unseen, bind_run _ (expect_run .colon d _), bind_error _ (hdenied _)]
  | @read f fields j written put hread hj h ih =>
    obtain ⟨fuel, rfl⟩ := Nat.exists_eq_succ_of_ne_zero (Nat.ne_zero_of_lt hfuel)
    have hrest := ih hunder.read (Nat.lt_of_succ_lt_succ hfuel) false (put s)
    rw [← List.append_cons] at hrest
    rw [objectFields, bind_run _ (nextKey_cons first f.name j written d ts)]
    dsimp only
    rw [hunder.find?]
    dsimp only
    rw [if_neg hunder.unseen, bind_run _ (expect_run .colon d _), bind_run _ (hread d _ hj)]
    exact hrest
  | @skip f fields written hpresence h ih =>
    rw [List.append_cons]
    exact ih (hunder.skip hpresence) hfuel first s

/-- Such a record is malformed, whichever of its fields it is. -/
theorem Stops.denies_objectRecord {fields : List (Field σ)} {written : List (String × Json)}
    (h : Stops d fields written) (hnames : (fields.map (·.name)).Nodup) (blank : σ) :
    Denies (objectRecord fields blank) (.object written) (d + 1) := by
  intro ts
  have hfuel : written.length < (memberTokens true written ++ ts).length + 1 := by
    have hlength := length_lt_length_memberTokens true written
    rw [List.length_append]
    omega
  rw [tokens_object, List.cons_append]
  exact h.objectFields_run (.start hnames) hfuel true blank ts

/-- A record with a field that is denied is denied. -/
theorem Stops.denies_record {fields : List (Field σ)} {written : List (String × Json)}
    (h : Stops d fields written) (hnames : (fields.map (·.name)).Nodup) (blank : σ) :
    Denies (record fields blank) (.object written) (d + 1) := by
  intro ts
  have hobject := h.denies_objectRecord hnames blank ts
  rw [tokens_object, List.cons_append] at hobject ⊢
  exact hobject

/-- A case with malformed content is malformed. -/
theorem denies_sum {cases : List (Case α)} (hnames : (cases.map (·.name)).Nodup) {c : Case α}
    (hc : c ∈ cases) {tagName contentName : String} (hne : contentName ≠ tagName) {j : Json}
    (h : Denies c.content j d) :
    Denies (sum tagName contentName cases)
      (.object [(tagName, .string c.name), (contentName, j)]) (d + 1) := by
  intro ts
  rw [tokens_object, List.cons_append]
  change sumObject tagName contentName cases (_ + 1) d _ = _
  rw [sumObject, bind_run _ (relevantKey_cons (.inl rfl) _ true _ _ d ts)]
  dsimp only
  rw [bind_run _ (expect_run .colon d _), if_pos rfl, bind_run _ (tag_run hnames hc d _),
    bind_run _ (relevantKey_cons (.inr rfl) _ false j [] d ts)]
  dsimp only
  rw [if_neg hne, bind_run _ (expect_run .colon d _), bind_error _ (h _)]

/-- **The text of a value that is nested too deep is malformed.** -/
theorem Denies.decode_text {r : Reader α} {j : Json} (h : Denies r j greatestDepth)
    (hj : j.Integral) : decode r j.text = .error .malformed := by
  have hread := h []
  rw [List.append_nil] at hread
  rw [decode, hj.scan_text, run, hread]

/-! ## What a reader gives -/

/-- Whether all that a reader gives, from whichever tokens, has a property. -/
def Yields (r : Reader α) (d : Nat) (P : α → Prop) : Prop :=
  ∀ ts a ts', r d ts = .ok (a, ts') → P a

/-- Every reader yields something. -/
theorem yields_any (r : Reader α) (d : Nat) : Yields r d fun _ => True :=
  fun _ _ _ _ => trivial

/-- A reader that reads nothing yields what it was given. -/
theorem yields_pure {P : α → Prop} {a : α} (h : P a) (d : Nat) : Yields (pure a) d P := by
  intro ts b ts' hb
  obtain rfl : a = b := congrArg Prod.fst (Except.ok.inj hb)
  exact h

/-- A fault yields nothing, so whatever it yields is right. -/
theorem yields_fault {P : α → Prop} (e : Fault) (d : Nat) : Yields (fault e) d P :=
  fun _ _ _ h => nomatch h

/-- What two readers in turn yield follows from what each does. -/
theorem Yields.bind {r : Reader α} {f : α → Reader β} {P : α → Prop} {Q : β → Prop}
    (hr : Yields r d P) (hf : ∀ a, P a → Yields (f a) d Q) : Yields (r >>= f) d Q := by
  intro ts b ts' hb
  change (r d ts >>= fun q => f q.1 d q.2) = _ at hb
  cases hrun : r d ts with
  | error e =>
    rw [hrun] at hb
    cases hb
  | ok q =>
    rw [hrun] at hb
    exact hf q.1 (hr ts q.1 q.2 hrun) q.2 b ts' hb

/-- What a reader yields under a function follows from what it yields. -/
theorem Yields.map {r : Reader α} {f : α → β} {P : α → Prop} {Q : β → Prop} (hr : Yields r d P)
    (hf : ∀ a, P a → Q (f a)) : Yields (f <$> r) d Q :=
  hr.bind fun a ha => yields_pure (hf a ha) d

/-- A container yields what its reader does one level further in. -/
theorem Yields.nested {r : Reader α} {P : α → Prop} (h : Yields r d P) :
    Yields (Reader.nested r) (d + 1) P := h

/-- Free-form data are in order and no deeper than allowed. -/
theorem yields_value (d : Nat) : Yields value d fun j => j.Sorted ∧ j.depth ≤ d := by
  intro ts j ts' hj
  rw [value] at hj
  split at hj
  · next r hread =>
    obtain rfl := Except.ok.inj hj
    exact ⟨sorted_of_read? hread, depth_of_read? hread⟩
  · cases hj

/-- Whether putting in a field keeps a property of the record. -/
def Field.Keeps (f : Field σ) (d : Nat) (P : σ → Prop) : Prop :=
  Yields f.read d fun put => ∀ s, P s → P (put s)

/-- The fields of an object are put in one by one: by induction on the bound. -/
theorem yields_objectFields {fields : List (Field σ)} {P : σ → Prop}
    (hfields : ∀ f ∈ fields, f.Keeps d P) (fuel : Nat) (seen : List String) (first : Bool) {s : σ}
    (hs : P s) : Yields (objectFields fields fuel seen first s) d P := by
  induction fuel generalizing seen first s with
  | zero => exact yields_fault _ d
  | succ fuel ih =>
    rw [objectFields]
    refine (yields_any _ d).bind fun key _ => ?_
    cases key with
    | none =>
      dsimp only
      split
      · exact (yields_any _ d).bind fun _ _ => yields_pure hs d
      · exact yields_fault _ d
    | some k =>
      dsimp only
      split
      · exact (yields_any _ d).bind fun _ _ => (yields_any _ d).bind fun _ _ => ih seen false hs
      · next f hf =>
        split
        · exact yields_fault _ d
        · refine (yields_any _ d).bind fun _ _ => ?_
          exact (hfields f (List.mem_of_find?_eq_some hf)).bind fun put hput =>
            ih (k :: seen) false (hput s hs)

/-- The items of an array are put in one by one: by induction on the fields. -/
theorem yields_arrayFields {fields : List (Field σ)} {P : σ → Prop}
    (hfields : ∀ f ∈ fields, f.Keeps d P) (first : Bool) {s : σ} (hs : P s) :
    Yields (arrayFields fields first s) d P := by
  induction fields generalizing first s with
  | nil => exact (yields_any _ d).bind fun _ _ => yields_pure hs d
  | cons f fields ih =>
    obtain ⟨hf, hfields⟩ := List.forall_mem_cons.1 hfields
    rw [arrayFields]
    refine (yields_any _ d).bind fun more _ => ?_
    split
    · exact hf.bind fun put hput => ih hfields false (hput s hs)
    · split
      · exact ih hfields first hs
      · exact yields_fault _ d

/-- A record has what its fields keep. -/
theorem yields_record {fields : List (Field σ)} {P : σ → Prop} (hfields : ∀ f ∈ fields, f.Keeps d P)
    {blank : σ} (hblank : P blank) : Yields (record fields blank) (d + 1) P := by
  rw [record]
  refine (yields_any _ _).bind fun t _ => ?_
  split
  · exact (yields_any _ _).bind fun _ _ => (yields_arrayFields hfields true hblank).nested
  · rw [objectRecord]
    refine (yields_any _ _).bind fun t _ => ?_
    split
    · refine (yields_any _ _).bind fun ts _ => ?_
      exact (yields_objectFields hfields _ [] true hblank).nested
    · exact yields_fault _ _

/-- What is decoded from a text is something the reader yields. -/
theorem Yields.of_decode {r : Reader α} {P : α → Prop} (h : Yields r greatestDepth P) {text : String}
    {a : α} (ha : decode r text = .ok a) : P a := by
  rw [decode, run] at ha
  split at ha
  · next hrun =>
    obtain rfl := Except.ok.inj ha
    exact h _ _ _ hrun
  · cases ha
  · cases ha

end Reader

end PushMesh.Json
