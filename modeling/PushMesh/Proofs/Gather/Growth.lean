import PushMesh.Proofs.Gather.Accounts

/-!
# Results only grow

A gather adds to what it holds and takes nothing back: of two results that it shows, the later one has
everything the earlier one has (`grown_takeAll`). What is added is known, too. The steps in between bring
answers into the value and put their nodes behind those that responded (`Gained`), and the value keeps what
it had because of two tallies that are merged the first one stands (`within_merge`).

Counts are words, so they only grow as long as the answers fit into one word together.
-/

namespace PushMesh

namespace Tally

/-- Whether a later tally still has what an earlier one had. -/
inductive Within : Tally → Tally → Prop where
  | count {m n : UInt64} (h : m ≤ n) : Within (.count m) (.count n)
  /-- Connections are kept with the descriptors that stand under their keys. -/
  | connections {s t : ConnectionSet} (h : ∀ key d, s.get? key = some d → t.get? key = some d) :
      Within (.connections s) (.connections t)
  | keys {s t : Ascending String} (h : ∀ key, key ∈ s → key ∈ t) : Within (.keys s) (.keys t)
  | distinct {s t : Ascending String} (h : ∀ key, key ∈ s → key ∈ t) :
      Within (.distinct s) (.distinct t)

theorem Within.refl (t : Tally) : t.Within t := by
  cases t with
  | count n => exact .count (UInt64.le_refl n)
  | connections s => exact .connections fun _ _ h => h
  | keys s => exact .keys fun _ h => h
  | distinct s => exact .distinct fun _ h => h

theorem Within.trans {s t u : Tally} (h : s.Within t) (h' : t.Within u) : s.Within u := by
  cases h with
  | count h => cases h' with | count h' => exact .count (UInt64.le_trans h h')
  | connections h =>
    cases h' with | connections h' => exact .connections fun key d hd => h' key d (h key d hd)
  | keys h => cases h' with | keys h' => exact .keys fun key hkey => h' key (h key hkey)
  | distinct h => cases h' with | distinct h' => exact .distinct fun key hkey => h' key (h key hkey)

/-- Counts of one word are added as numbers where the sum is one. -/
theorem size_merge_count {s t : Tally} (hs : s.kind = .count) (hfit : s.size + t.size < 2 ^ 64) :
    s.size ≤ (s.merge t).size ∧ (s.merge t).size ≤ s.size + t.size := by
  cases s with
  | connections _ | keys _ | distinct _ => cases hs
  | count m =>
    cases t with
    | connections _ | keys _ | distinct _ => exact ⟨Nat.le_refl _, Nat.le_add_right _ _⟩
    | count n =>
      simp only [size] at hfit
      simp only [merge, size, UInt64.toNat_add, Nat.mod_eq_of_lt hfit]
      omega

/-- A tally that another one is merged into keeps what it had. -/
theorem within_merge {s t : Tally} (hfit : s.kind = .count → s.size + t.size < 2 ^ 64) :
    s.Within (s.merge t) := by
  cases s with
  | count m =>
    -- the sum does not wrap, so it is no less than either count
    have hsize := (size_merge_count (s := .count m) (t := t) rfl (hfit rfl)).1
    cases t with
    | count n => exact .count (UInt64.le_iff_toNat_le.2 hsize)
    | connections _ | keys _ | distinct _ => exact .refl _
  | connections s =>
    cases t with
    | connections t =>
      refine .connections fun key d hd => ?_
      rw [ConnectionSet.get?_merge, hd]
      rfl
    | count _ | keys _ | distinct _ => exact .refl _
  | keys s =>
    cases t with
    | keys t => exact .keys fun key hkey => Ascending.mem_union.2 (.inl hkey)
    | count _ | connections _ | distinct _ => exact .refl _
  | distinct s =>
    cases t with
    | distinct t => exact .distinct fun key hkey => Ascending.mem_union.2 (.inl hkey)
    | count _ | connections _ | keys _ => exact .refl _

/-- A tally that others are merged into keeps what it had: by induction on the others. -/
theorem within_mergeAll {own : Tally} {l : List Tally}
    (hfit : own.kind = .count → own.size + (l.map size).sum < 2 ^ 64) :
    own.Within (own.mergeAll l) := by
  induction l generalizing own with
  | nil => exact .refl own
  | cons t l ih =>
    rw [List.map_cons, List.sum_cons] at hfit
    have hfirst : own.Within (own.merge t) := within_merge fun hown => by have := hfit hown; omega
    refine hfirst.trans (ih fun hkind => ?_)
    rw [kind_merge] at hkind
    have hsum := hfit hkind
    have hsize := size_merge_count (t := t) hkind (by omega)
    omega

end Tally

/-- What a later result has beyond an earlier one, where `answers` came in between. -/
structure Gathered.Grown (answers : List Tally) (r r' : Gathered) : Prop where
  responded : r.responded <+: r'.responded
  failures : r.failures <+: r'.failures
  /-- Those that are still awaited were awaited before. -/
  pending : r'.pending.Sublist r.pending
  /-- Nothing is lost from the value, unless counts exceed one word. -/
  value : (r.value.kind = .count → r.value.size + (answers.map Tally.size).sum < 2 ^ 64) →
    r.value.Within r'.value

namespace Gather

variable {g g' g'' : Gather} {answers answers' : List (String × Tally)}

/-! ## What is gained -/

/-- What a gather gains while it accepts answers. -/
structure Gained (answers : List (String × Tally)) (g g' : Gather) : Prop where
  value : g'.value = g.value.mergeAll (answers.map (·.2))
  responded : g'.responded = g.responded ++ answers.map (·.1)
  outstanding : g'.outstanding.toList.Sublist g.outstanding.toList

theorem Gained.trans (h : Gained answers g g') (h' : Gained answers' g' g'') :
    Gained (answers ++ answers') g g'' where
  value := by
    rw [h'.value, h.value, List.map_append]
    exact List.foldl_append.symm
  responded := by rw [h'.responded, h.responded, List.map_append, List.append_assoc]
  outstanding := h'.outstanding.trans h.outstanding

/-- Where the books stay as they are nothing is gained. -/
theorem SameBooks.gained (h : g.SameBooks g') : Gained [] g g' where
  value := h.value
  responded := by rw [h.responded, List.map_nil, List.append_nil]
  outstanding := by rw [h.outstanding]

/-- What one step gains is the answer that it brings, if it is accepted. -/
theorem gained_take (g : Gather) (s : Step) : Gained (g.accepted s).toList g (g.take s).1 := by
  -- a step that accepts nothing gains nothing
  have hsilent : ∀ {g'}, g.accepted s = none → g.SameBooks g' → Gained (g.accepted s).toList g g' := by
    intro g' hnone hsame
    rw [hnone]
    exact hsame.gained
  cases s with
  | complete nodeId value =>
    cases hwait : g.awaits nodeId with
    | true =>
      obtain ⟨hvalue, hresponded, houtstanding, -⟩ := sameBooks_complete hwait value
      have haccepted : g.accepted (.complete nodeId value) = some (nodeId, value) := by
        simp [accepted, Step.answer?, hwait]
      rw [haccepted]
      refine ⟨hvalue, hresponded, ?_⟩
      rw [take, houtstanding]
      exact List.filter_sublist
    | false =>
      refine hsilent (by simp [accepted, Step.answer?, hwait]) ?_
      rw [take, complete, if_neg (by simp [hwait])]
      exact .refl g
  | fail failure =>
    cases hwait : g.awaits failure.nodeId with
    | true =>
      obtain ⟨hvalue, hresponded, houtstanding, -⟩ := sameBooks_fail failure hwait
      refine ⟨hvalue, hresponded.trans (List.append_nil _).symm, ?_⟩
      rw [take, houtstanding]
      exact List.filter_sublist
    | false =>
      refine hsilent rfl ?_
      rw [take, fail, if_neg (by simp [hwait])]
      exact .refl g
  | cancel => exact hsilent rfl g.sameBooks_cancel
  | track task => exact hsilent rfl (g.sameBooks_track task).1
  | onComplete label => exact hsilent rfl (g.sameBooks_onComplete label).1
  | snapshot => exact hsilent rfl (.refl g)

/-- What a run gains: by induction on the steps. -/
theorem gained_takeAll (g : Gather) (steps : List Step) :
    Gained (g.acceptedAll steps) g (g.takeAll steps) := by
  induction steps generalizing g with
  | nil => exact (SameBooks.refl g).gained
  | cons s steps ih => exact (g.gained_take s).trans (ih (g.take s).1)

/-! ## Two results -/

/-- **Of two results the later one has grown**, whatever happens to the gather in between. -/
theorem grown_takeAll (g : Gather) (steps : List Step) {r r' : Gathered} (hr : g.Shows r)
    (hr' : (g.takeAll steps).Shows r') :
    Gathered.Grown ((g.acceptedAll steps).map (·.2)) r r' := by
  obtain rfl := hr.eq_snapshot
  obtain rfl := hr'.eq_snapshot
  obtain ⟨hvalue, hresponded, houtstanding⟩ := g.gained_takeAll steps
  have hfailures := g.failures_takeAll steps
  refine ⟨⟨_, hresponded.symm⟩, ⟨_, hfailures.symm⟩, houtstanding, fun hfit => ?_⟩
  change g.value.Within (g.takeAll steps).value
  rw [hvalue]
  exact Tally.within_mergeAll hfit

end Gather

end PushMesh
