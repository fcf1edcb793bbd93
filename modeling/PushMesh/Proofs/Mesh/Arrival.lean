import PushMesh.Proofs.Mesh.Steps

/-!
# The order of arrival

The peers of a dispatch end their calls in some order. `concludeAll` ends them one after the other,
each with the reply that is given for its peer, and the gather takes one verdict for each
(`gather?_concludeAll`). So the result can be written down (`Concluded`), and of two orders it can be
said what they agree on (`independent_concludeAll`): on everything but the order of the lists, and
which of several descriptors of a connection stands.
-/

namespace PushMesh

/-- The descriptors that a reply lists. -/
def Reply.descriptors : Reply → List Descriptor
  | .ok output => output.descriptors
  | .error _ => []

namespace Mesh

variable {m : Mesh} {h : Host} {inquiry : Inquiry} {own : Tally} {replies : String → Reply}

/-! ## Calls that end -/

/-- Ends calls one after the other, each with the reply of its peer. -/
def concludeAll (m : Mesh) (replies : String → Reply) (calls : List PeerCall) : Mesh :=
  calls.foldl (fun m c => m.conclude c (replies c.callee.id)) m

/-- The verdicts on the peers of some calls. -/
def verdicts (replies : String → Reply) (calls : List PeerCall) : List Gather.Verdict :=
  calls.map fun c => c.verdict (replies c.callee.id)

/-- Calls of a gather that end bring their verdicts into it: by induction on the calls. -/
theorem gather?_concludeAll (replies : String → Reply) {id : Nat} {calls : List PeerCall}
    (hcalls : ∀ c ∈ calls, c.gather = id) {g : Gather} (hg : m.gather? id = some g) :
    (m.concludeAll replies calls).gather? id =
      some (g.takeAll ((verdicts replies calls).map (·.step))) := by
  induction calls generalizing m g with
  | nil => exact hg
  | cons c calls ih =>
    obtain ⟨hc, hcalls⟩ := List.forall_mem_cons.1 hcalls
    obtain ⟨f, heq⟩ := m.exists_conclude_eq c (replies c.callee.id)
    have hgather : (m.conclude c (replies c.callee.id)).gather? id =
        some (g.take (c.verdict (replies c.callee.id)).step).1 := by
      rw [heq, gather?_onGather, hc, if_pos rfl]
      exact congrArg (Option.map _) hg
    exact ih hcalls hgather

/-! ## The result -/

/-- The result of a dispatch that the node began with `own`, and whose `calls` ended in this order. -/
structure Concluded (h : Host) (inquiry : Inquiry) (own : Tally) (replies : String → Reply)
    (calls : List PeerCall) (r : Gathered) : Prop where
  pending : r.pending = []
  responded : r.responded =
    h.registry.nodeId :: ((verdicts replies calls).filterMap (·.answer?)).map (·.1)
  failures : r.failures = (verdicts replies calls).filterMap (·.failure?)
  value : r.value = own.mergeAll (((verdicts replies calls).filterMap (·.answer?)).map (·.2))
  /-- Connections are listed by node and number, each once. -/
  ascending : ∀ s, r.value = .connections s → (s.values.map (·.key)).Pairwise fun a b =>
    a.nodeId < b.nodeId ∨ a.nodeId = b.nodeId ∧ a.id < b.id
  /-- Of several descriptors of a connection the node's own stands, or else the first one of those
  that responded, in their order. -/
  mem_values : ∀ s, r.value = .connections s → ∀ d, d ∈ s.values ↔
    ((h.registry.perform inquiry.operation).2.descriptors ++
      r.responded.tail.flatMap fun node => (replies node).descriptors).find? (·.key == d.key) = some d

/-- What the results of two orders agree on. -/
structure Agree (r r' : Gathered) : Prop where
  kind : r.value.kind = r'.value.kind
  /-- Counts, keys and numbers of keys are the same. -/
  value : r.value.kind ≠ .connections → r.value = r'.value
  /-- The same connections are listed, in the same order. -/
  connections : ∀ s s', r.value = .connections s → r'.value = .connections s' →
    s.values.map (·.key) = s'.values.map (·.key)
  responded : r.responded.Perm r'.responded
  failures : r.failures.Perm r'.failures
  isPartial : r.isPartial = r'.isPartial

/-- The first descriptor of a connection in the answers that count is the first one in the lists of
those that gave them. -/
theorem findSome?_verdicts {calls : List PeerCall} (hkind : ∀ c ∈ calls, c.kind = .connections)
    (key : ConnectionKey) :
    (((verdicts replies calls).filterMap (·.answer?)).map (·.2)).findSome? (·.get? key) =
      ((((verdicts replies calls).filterMap (·.answer?)).map (·.1)).flatMap fun node =>
        (replies node).descriptors).find? (·.key == key) := by
  induction calls with
  | nil => rfl
  | cons c calls ih =>
    obtain ⟨hc, hkind⟩ := List.forall_mem_cons.1 hkind
    have hrest := ih hkind
    rw [verdicts, List.map_cons, List.filterMap_cons]
    change _ = _ at hrest
    cases hverdict : (replies c.callee.id).bind (Tally.ofOutput c.kind) with
    | error e =>
      -- the call failed, and has no part in either
      have hnone : (c.verdict (replies c.callee.id)).answer? = none := by
        rw [PeerCall.verdict, Gather.Verdict.answer?, hverdict]
      rw [hnone]
      exact hrest
    | ok t =>
      have hsome : (c.verdict (replies c.callee.id)).answer? = some (c.callee.id, t) := by
        rw [PeerCall.verdict, Gather.Verdict.answer?, hverdict]
      obtain ⟨output, hreply, ht⟩ : ∃ output, replies c.callee.id = .ok output ∧
          Tally.ofOutput .connections output = .ok t := by
        rw [hc] at hverdict
        cases hreply : replies c.callee.id with
        | error e => rw [hreply] at hverdict; cases hverdict
        | ok output => exact ⟨output, rfl, by rwa [hreply] at hverdict⟩
      have hfirst : t.get? key = (replies c.callee.id).descriptors.find? (·.key == key) := by
        rw [hreply]
        exact Tally.get?_ofOutput ht key
      rw [hsome]
      simp only [List.map_cons, List.findSome?_cons, List.flatMap_cons, List.find?_append, hfirst]
      rw [← verdicts, hrest]
      cases (replies c.callee.id).descriptors.find? (·.key == key) <;> rfl

/-- The calls of a dispatch belong to its gather, and are answered in the way of its inquiry. -/
theorem alike_callsOf {c : PeerCall} (hc : c ∈ m.callsOf h inquiry) :
    c.gather = m.nextId ∧ c.kind = inquiry.kind := by
  obtain ⟨task, heq⟩ := eq_callTo_of_mem hc
  rw [heq]
  exact ⟨rfl, rfl⟩

/-- A connection is looked up in the answers that count one after the other, the node's own first. -/
theorem get?_mergeAll_verdicts {r : Registry}
    (hlocal : inquiry.runLocally h.registry = .ok (r, own)) {calls : List PeerCall}
    (hkinds : ∀ c ∈ calls, c.kind = inquiry.kind) {s : ConnectionSet}
    (hs : own.mergeAll (((verdicts replies calls).filterMap (·.answer?)).map (·.2)) =
      .connections s) (key : ConnectionKey) :
    s.get? key = ((h.registry.perform inquiry.operation).2.descriptors ++
      (((verdicts replies calls).filterMap (·.answer?)).map (·.1)).flatMap fun node =>
        (replies node).descriptors).find? (·.key == key) := by
  obtain ⟨-, -, hown⟩ := Inquiry.runLocally_eq_ok_iff.1 hlocal
  have hkind : own.kind = .connections := by
    rw [← own.kind_mergeAll, hs]
    rfl
  have hinquiry : inquiry.kind = .connections := (Tally.kind_ofOutput hown).symm.trans hkind
  rw [hinquiry] at hown hkinds
  have hlookup := Tally.get?_mergeAll hkind
    (((verdicts replies calls).filterMap (·.answer?)).map (·.2)) key
  rw [hs, findSome?_verdicts hkinds, Tally.get?_ofOutput hown] at hlookup
  rw [List.find?_append]
  exact hlookup

/-- The descriptors that are merged are each under their own key. -/
theorem keyed_mergeAll_verdicts {r : Registry}
    (hlocal : inquiry.runLocally h.registry = .ok (r, own)) {calls : List PeerCall}
    (hkinds : ∀ c ∈ calls, c.kind = inquiry.kind) {s : ConnectionSet}
    (hs : own.mergeAll (((verdicts replies calls).filterMap (·.answer?)).map (·.2)) =
      .connections s) : s.Keyed := by
  intro key d hd
  rw [get?_mergeAll_verdicts hlocal hkinds hs] at hd
  simpa using List.find?_some hd

/-- **The result of an order** in which the calls of a dispatch end. -/
theorem exists_concluded {r : Registry} (hlocal : inquiry.runLocally h.registry = .ok (r, own))
    (replies : String → Reply) {calls : List PeerCall} (hperm : calls.Perm (m.callsOf h inquiry)) :
    ∃ g, ((m.dispatch h inquiry).1.concludeAll replies calls).gather? (m.dispatch h inquiry).2 =
        some g ∧ g.phase = .completed ∧ Concluded h inquiry own replies calls g.snapshot := by
  obtain ⟨g₀, hopened, haccounts₀, -, -, hfailures₀, hphase₀⟩ := gather_dispatch (m := m) hlocal
  have halike := fun c hc => alike_callsOf (hperm.mem_iff (a := c).1 hc)
  have hgather := gather?_concludeAll replies (fun c hc => (halike c hc).1) hopened
  -- every peer is called once, so the verdicts use up what is outstanding
  have hpeers : ((verdicts replies calls).map (·.peer.id)).Perm
      (Ascending.ofList (h.peers.map (·.id))).toList := by
    have hcallees := (hperm.map (·.callee.id)).trans (.of_eq (m.callee_id_callsOf h inquiry))
    rw [verdicts, List.map_map]
    exact hcallees.trans
      (Ascending.perm_ofList (Membership.peersOf_remotePeers h.self h.members).ids).symm
  obtain ⟨hdone, haccounts, hfailures⟩ := haccounts₀.takeAll_verdicts hfailures₀ hphase₀ hpeers
  set g := g₀.takeAll ((verdicts replies calls).map Gather.Verdict.step)
  -- the value is the own answer with those of the verdicts merged in
  have hvalue : own.mergeAll (((verdicts replies calls).filterMap (·.answer?)).map (·.2)) =
      g.value := by
    rw [haccounts.value, Tally.mergeAll, List.foldl_map]
  have hkinds := fun c hc => (halike c hc).2
  refine ⟨g, (snd_dispatch hlocal).symm ▸ hgather, hdone, ?_, haccounts.responded, hfailures,
    hvalue.symm, ?_, ?_⟩
  · exact List.eq_nil_iff_forall_not_mem.2
      (Ascending.isEmpty_iff.1 (haccounts.completed_iff.1 hdone))
  · intro s hs
    rw [(keyed_mergeAll_verdicts hlocal hkinds (hvalue.trans hs)).map_key_values]
    exact (List.pairwise_map.2 s.ascending).imp ConnectionKey.compare_eq_lt_iff.1
  · intro s hs d
    have hresponded : g.snapshot.responded.tail =
        ((verdicts replies calls).filterMap (·.answer?)).map (·.1) :=
      congrArg List.tail haccounts.responded
    rw [(keyed_mergeAll_verdicts hlocal hkinds (hvalue.trans hs)).mem_values,
      get?_mergeAll_verdicts hlocal hkinds (hvalue.trans hs), hresponded]

/-! ## Two orders -/

/-- Results of two orders agree. -/
theorem Concluded.agree {r : Registry} (hlocal : inquiry.runLocally h.registry = .ok (r, own))
    {calls calls' : List PeerCall} (hperm : calls.Perm calls')
    (hkinds : ∀ c ∈ calls, c.kind = inquiry.kind) {result result' : Gathered}
    (hr : Concluded h inquiry own replies calls result)
    (hr' : Concluded h inquiry own replies calls' result') : Agree result result' := by
  -- the verdicts of both orders are the same, in another order
  have hverdicts : (verdicts replies calls).Perm (verdicts replies calls') := hperm.map _
  have hanswers := hverdicts.filterMap (·.answer?)
  have hfailures : result.failures.Perm result'.failures := by
    rw [hr.failures, hr'.failures]
    exact hverdicts.filterMap _
  constructor
  case kind => rw [hr.value, hr'.value, Tally.kind_mergeAll, Tally.kind_mergeAll]
  case value =>
    intro hkind
    rw [hr.value, Tally.kind_mergeAll] at hkind
    rw [hr.value, hr'.value]
    exact Tally.mergeAll_perm hkind (hanswers.map _)
  case connections =>
    intro s s' hs hs'
    -- descriptors are merged by key, so it is enough that the keys agree
    have hown : own.kind = .connections := by
      rw [← own.kind_mergeAll, ← hr.value, hs]
      rfl
    rw [hr.value] at hs
    rw [hr'.value] at hs'
    have hkinds' : ∀ c ∈ calls', c.kind = inquiry.kind := fun c hc => hkinds c (hperm.mem_iff.2 hc)
    rw [(keyed_mergeAll_verdicts hlocal hkinds hs).map_key_values,
      (keyed_mergeAll_verdicts hlocal hkinds' hs').map_key_values]
    refine Table.keys_ext fun key => ?_
    have hsome := Tally.get?_mergeAll_perm hown (hanswers.map (·.2)) key
    rw [hs, hs'] at hsome
    rw [Table.mem_keys, Table.mem_keys, ← Option.isSome_iff_exists, ← Option.isSome_iff_exists]
    exact Bool.eq_iff_iff.1 hsome
  case responded =>
    rw [hr.responded, hr'.responded]
    exact (hanswers.map _).cons _
  case failures => exact hfailures
  case isPartial =>
    rw [Gathered.isPartial, Gathered.isPartial, hr.pending, hr'.pending, hfailures.isEmpty_eq]

/-- **Independence of the order of arrival.** Let a host dispatch an inquiry that it accepts, and let
the call to each peer end with a reply of its own, be it an answer or an error. In whatever order the
calls end, the gather is complete. Its result counts every answer that is of the right kind, lists
connections in the order of node and number, and describes each as the node itself did, or else as
the first node that responded with it. And the results of two orders agree on all but the order of the
lists and the descriptors of connections that several nodes reported. -/
theorem independent_concludeAll (m : Mesh) {r : Registry}
    (hlocal : inquiry.runLocally h.registry = .ok (r, own)) (replies : String → Reply)
    {order order' : List PeerCall} (horder : order.Perm (m.callsOf h inquiry))
    (horder' : order'.Perm (m.callsOf h inquiry)) :
    let start := (m.dispatch h inquiry).1
    let id := (m.dispatch h inquiry).2
    ∃ g g', (start.concludeAll replies order).gather? id = some g ∧
      (start.concludeAll replies order').gather? id = some g' ∧
      g.phase = .completed ∧ g'.phase = .completed ∧
      Concluded h inquiry own replies order g.snapshot ∧
      Concluded h inquiry own replies order' g'.snapshot ∧
      Agree g.snapshot g'.snapshot := by
  intro start id
  obtain ⟨g, hg, hdone, hconcluded⟩ := exists_concluded hlocal replies horder
  obtain ⟨g', hg', hdone', hconcluded'⟩ := exists_concluded hlocal replies horder'
  have hkinds : ∀ c ∈ order, c.kind = inquiry.kind :=
    fun c hc => (alike_callsOf (horder.mem_iff.1 hc)).2
  exact ⟨g, g', hg, hg', hdone, hdone', hconcluded, hconcluded',
    hconcluded.agree hlocal (horder.trans horder'.symm) hkinds hconcluded'⟩

/-- Two nodes that report the same connection in different ways, and others that are out of reach. -/
def rivals (node : String) : Reply :=
  let d : Descriptor := { (default : Descriptor) with id := 7, nodeId := "b", delivered := 1 }
  if node = "b" then .ok (.connections [d])
  else if node = "c" then .ok (.connections [{ d with delivered := 2 }])
  else .error (.unreachable "refused")

/-- Rival reports that arrive in one order and in the other. -/
theorem independent_concludeAll_rivals :
    let a := Host.standard "a" "host:1" [.peer "b" "host:2", .peer "c" "host:3", .peer "d" "host:4"]
    let m := create [a] ∅
    let order := m.callsOf a .queryAll
    let start := (m.dispatch a .queryAll).1
    let id := (m.dispatch a .queryAll).2
    Inquiry.queryAll.runLocally a.registry = .ok (a.registry, .connections ∅) ∧
      order.Perm order ∧ order.reverse.Perm order ∧
      ∃ g g', (start.concludeAll rivals order).gather? id = some g ∧
        (start.concludeAll rivals order.reverse).gather? id = some g' ∧
        g.phase = .completed ∧ g'.phase = .completed ∧
        Concluded a .queryAll (.connections ∅) rivals order g.snapshot ∧
        Concluded a .queryAll (.connections ∅) rivals order.reverse g'.snapshot ∧
        Agree g.snapshot g'.snapshot := by
  intro a m order start id
  have hlocal : Inquiry.queryAll.runLocally a.registry = .ok (a.registry, .connections ∅) := rfl
  exact ⟨hlocal, .refl _, order.reverse_perm,
    independent_concludeAll m hlocal rivals (.refl _) order.reverse_perm⟩

end Mesh

end PushMesh
