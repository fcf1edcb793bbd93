import PushMesh.Proofs.Tally

/-!
# When the order of reports matters

Merging connection sets is associative and the empty set is neutral, but it is commutative only for sets
that describe the connections they share alike: else the descriptor of the first one stands. So with several
reports the order makes no difference just if no two of them contradict each other about a connection that
is not known yet (`mergeAll_order_iff`). Which connections there are never depends on it.
-/

namespace PushMesh

namespace ConnectionSet

/-- Whether two sets describe the connections that they share alike. -/
def Agrees (s t : ConnectionSet) : Prop :=
  ∀ key d e, s.get? key = some d → t.get? key = some e → d = e

theorem merge_assoc (s t u : ConnectionSet) : (s.merge t).merge u = s.merge (t.merge u) := by
  refine Table.ext_get? fun key => ?_
  simp only [get?_merge, Option.or_assoc]

theorem empty_merge (s : ConnectionSet) : merge ∅ s = s := by
  refine Table.ext_get? fun key => ?_
  rw [get?_merge, Table.get?_empty, Option.none_or]

theorem merge_empty (s : ConnectionSet) : s.merge ∅ = s := rfl

/-- Two sets can be merged in either order just if they agree. -/
theorem merge_comm_iff {s t : ConnectionSet} : s.merge t = t.merge s ↔ s.Agrees t := by
  constructor
  · intro h key d e hd he
    have hget : (s.merge t).get? key = (t.merge s).get? key := by rw [h]
    rw [get?_merge, get?_merge, hd, he] at hget
    exact Option.some.inj hget
  · intro h
    refine Table.ext_get? fun key => ?_
    rw [get?_merge, get?_merge]
    cases hd : s.get? key with
    | none => rw [Option.none_or, Option.or_none]
    | some d =>
      cases he : t.get? key with
      | none => rfl
      | some e => exact congrArg some (h key d e hd he)

/-- In either order there are the same connections. -/
theorem keys_merge_comm (s t : ConnectionSet) : (s.merge t).keys = (t.merge s).keys := by
  refine Table.keys_ext fun key => ?_
  simp only [Table.mem_keys, ← Option.isSome_iff_exists, get?_merge, Option.isSome_or, Bool.or_comm]

end ConnectionSet

namespace Tally

/-! ## Several reports -/

/-- Two tallies of connections are the same if they have the same descriptors. -/
theorem eq_of_get?_eq {s t : Tally} (hs : s.kind = .connections) (ht : t.kind = .connections)
    (h : ∀ key, s.get? key = t.get? key) : s = t := by
  cases s with
  | connections s =>
    cases t with
    | connections t => exact congrArg connections (Table.ext_get? h)
    | count _ | keys _ | distinct _ => cases ht
  | count _ | keys _ | distinct _ => cases hs

/-- A report that comes first stands. -/
theorem get?_mergeAll_of_mem {own s : Tally} {l : List Tally} (hown : own.kind = .connections)
    (hl : ∀ l', l.Perm l' → own.mergeAll l' = own.mergeAll l) (hs : s ∈ l) {key : ConnectionKey}
    {d : Descriptor} (hnew : own.get? key = none) (hd : s.get? key = some d) :
    (own.mergeAll l).get? key = some d := by
  obtain ⟨l₁, l₂, heq⟩ := List.append_of_mem hs
  have hfront : l.Perm (s :: (l₁ ++ l₂)) := heq ▸ List.perm_middle
  rw [← hl _ hfront, get?_mergeAll hown, hnew, Option.none_or, List.findSome?_cons, hd]

/-- The order of reports makes no difference just if none contradicts another one about a connection that is
not known yet. -/
theorem mergeAll_order_iff {own : Tally} (hown : own.kind = .connections) {l : List Tally} :
    (∀ l', l.Perm l' → own.mergeAll l' = own.mergeAll l) ↔
      ∀ s ∈ l, ∀ t ∈ l, ∀ key d e, own.get? key = none → s.get? key = some d → t.get? key = some e →
        d = e := by
  constructor
  · intro hl s hs t ht key d e hnew hd he
    -- either report may come first, and the first one counts
    have hfirst := get?_mergeAll_of_mem hown hl hs hnew hd
    have hsecond := get?_mergeAll_of_mem hown hl ht hnew he
    exact Option.some.inj (hfirst.symm.trans hsecond)
  · intro hagree l' hperm
    refine eq_of_get?_eq (by rw [kind_mergeAll, hown]) (by rw [kind_mergeAll, hown]) fun key => ?_
    rw [get?_mergeAll hown, get?_mergeAll hown]
    -- what the node knows itself stays; otherwise the first report of the key counts
    cases hnew : own.get? key with
    | some _ => rfl
    | none =>
      have hsome := get?_mergeAll_perm hown hperm key
      rw [get?_mergeAll hown, get?_mergeAll hown, hnew, Option.none_or, Option.none_or] at hsome
      rw [Option.none_or, Option.none_or]
      cases hd : l.findSome? (·.get? key) with
      | none =>
        rw [hd] at hsome
        exact Option.isNone_iff_eq_none.1 (Option.isSome_eq_false_iff.1 hsome.symm)
      | some d =>
        rw [hd] at hsome
        obtain ⟨e, he⟩ := Option.isSome_iff_exists.1 hsome.symm
        obtain ⟨s, hs, hsd⟩ := List.exists_of_findSome?_eq_some hd
        obtain ⟨t, ht, hte⟩ := List.exists_of_findSome?_eq_some he
        rw [he, hagree s hs t (hperm.mem_iff.2 ht) key d e hnew hsd hte]

/-- **Merging connection sets** is associative with the empty set as its neutral element, and it always
comes to the same connections. It comes to the same descriptors in both orders just if the two sets agree,
and several reports can be merged in any order just if they agree about the connections that are new. -/
theorem merge_connections (a b c own : ConnectionSet) (reports : List Tally) :
    (a.merge b).merge c = a.merge (b.merge c) ∧
      (ConnectionSet.merge ∅ a = a ∧ a.merge ∅ = a) ∧
      (a.merge b).keys = (b.merge a).keys ∧
      (a.merge b = b.merge a ↔ a.Agrees b) ∧
      ((∀ others, reports.Perm others →
          mergeAll (.connections own) others = mergeAll (.connections own) reports) ↔
        ∀ s ∈ reports, ∀ t ∈ reports, ∀ key d e, own.get? key = none → s.get? key = some d →
          t.get? key = some e → d = e) :=
  ⟨a.merge_assoc b c, ⟨a.empty_merge, a.merge_empty⟩, a.keys_merge_comm b, ConnectionSet.merge_comm_iff,
    mergeAll_order_iff rfl⟩

/-- Two nodes that count different numbers of messages for one connection: the number that comes first is
kept, so neither the merged sets nor the tallies of the two orders are the same. -/
theorem merge_connections_of_rivals :
    let d : Descriptor := { (default : Descriptor) with id := 7, nodeId := "b", delivered := 1 }
    let a := ConnectionSet.ofList [d]
    let b := ConnectionSet.ofList [{ d with delivered := 2 }]
    a.merge b ≠ b.merge a ∧
      mergeAll (.connections ∅) [.connections a, .connections b] ≠
        mergeAll (.connections ∅) [.connections b, .connections a] := by
  decide

end Tally

end PushMesh
