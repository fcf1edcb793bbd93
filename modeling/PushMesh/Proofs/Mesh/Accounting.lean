import PushMesh.Proofs.Mesh.Work

/-!
# The accounts of a dispatch

A dispatch opens a gather with the node's own answer and its peers, and the accounts of that gather
are in order ever after. What happens to the mesh meanwhile is a list of `Tending`s: steps of the
gather in any order, from anyone, and changes of what nodes know of their members. Only the former
reach the gather (`gather?_tendAll`), so what holds of a run of a gather holds here.
-/

namespace PushMesh

namespace Gather

/-- The accounts of a gather as its caller sees them. -/
structure Accounted (node : String) (own : Tally) (peers : List String)
    (answers : List (String × Tally)) (g : Gather) : Prop where
  responded : g.responded = node :: answers.map (·.1)
  /-- Nobody stands in two places, or twice in one. -/
  nodup : (g.responded ++ g.failures.map (·.nodeId) ++ g.outstanding.toList).Nodup
  mem_iff : ∀ n, n ∈ g.responded ++ g.failures.map (·.nodeId) ++ g.outstanding.toList ↔
    n = node ∨ n ∈ peers
  completed_iff : g.phase = .completed ↔ ∀ n, n ∉ g.outstanding
  phase : g.phase = .completed ∨ g.phase = .running ∨ g.phase = .cancelled
  value : g.value = Tally.mergeAll own (answers.map (·.2))
  count : own.kind = .count → (∀ a ∈ answers, a.2.kind = .count) →
    own.size + (answers.map fun a => a.2.size).sum < 2 ^ 64 →
      g.value.kind = .count ∧ g.value.size = own.size + (answers.map fun a => a.2.size).sum
  result : ∀ r, g.Shows r →
    r.value = g.value ∧ r.responded = g.responded ∧ r.failures = g.failures ∧
      r.pending = g.outstanding.toList ∧
      (r.isPartial = true ↔ r.failures ≠ [] ∨ r.pending ≠ [])

/-- Accounts in order are what the caller sees, where the node is not its own peer. -/
theorem Accounts.accounted {node : String} {own : Tally} {peers : List String}
    {answers : List (String × Tally)} {g : Gather}
    (h : Accounts node own (Ascending.ofList peers) answers g) (hnode : node ∉ peers) :
    g.Accounted node own peers answers where
  responded := h.responded
  nodup := by
    refine h.places.nodup_iff.2 (List.nodup_cons.2 ⟨?_, Ascending.nodup _⟩)
    rwa [← Ascending.mem_def, Ascending.mem_ofList]
  mem_iff n := by
    rw [h.places.mem_iff, List.mem_cons, ← Ascending.mem_def, Ascending.mem_ofList]
  completed_iff := h.completed_iff.trans Ascending.isEmpty_iff
  phase := h.phase
  value := by rw [h.value, Tally.mergeAll, List.foldl_map]
  count hown hanswers hfit := by
    have hsizes : (answers.map (·.2)).map Tally.size = answers.map fun a => a.2.size := by
      rw [List.map_map]
      rfl
    -- all answers are counts, so the value is the word of their sum
    have hkinds : ∀ t ∈ answers.map (·.2), t.kind = .count := by
      intro t ht
      obtain ⟨a, ha, rfl⟩ := List.mem_map.1 ht
      exact hanswers a ha
    have hvalue : g.value = Tally.mergeAll own (answers.map (·.2)) := by
      rw [h.value, Tally.mergeAll, List.foldl_map]
    rw [hvalue, ← hsizes]
    exact Tally.size_mergeAll_count hown hkinds (by rwa [hsizes])
  result r hr := by
    rw [hr.eq_snapshot]
    refine ⟨rfl, rfl, rfl, rfl, ?_⟩
    simp [Gathered.isPartial]

/-- An answer that counts is that of a peer, and the peer is awaited no more. -/
theorem Accounted.of_mem_answers {node : String} {own : Tally} {peers : List String}
    {answers : List (String × Tally)} {g : Gather} (h : g.Accounted node own peers answers)
    {a : String × Tally} (ha : a ∈ answers) : a.1 ∈ peers ∧ a.1 ∉ g.outstanding := by
  have hname : a.1 ∈ answers.map (·.1) := List.mem_map.2 ⟨a, ha, rfl⟩
  have hresponded : a.1 ∈ g.responded ++ g.failures.map (·.nodeId) := by
    rw [h.responded]
    exact List.mem_append_left _ (List.mem_cons_of_mem _ hname)
  obtain ⟨hsettled, -, hapart⟩ := List.nodup_append.1 h.nodup
  refine ⟨((h.mem_iff a.1).1 (List.mem_append_left _ hresponded)).resolve_left fun hself => ?_,
    fun hout => hapart _ hresponded _ hout rfl⟩
  -- the node itself stands first among those that answered
  rw [h.responded] at hsettled
  exact (List.nodup_cons.1 (List.nodup_append.1 hsettled).1).1 (hself ▸ hname)

end Gather

namespace Mesh

/-- Something that happens while a gather is under way: a step of the gather, or a node is told of
other members. -/
inductive Tending where
  | step (s : Gather.Step)
  | setMembers (node : String) (members : List Node)

/-- The step of the gather, if it is one. -/
def Tending.step? : Tending → Option Gather.Step
  | step s => some s
  | setMembers .. => none

/-- The mesh after something happened while a gather is under way. -/
def tend (m : Mesh) (id : Nat) : Tending → Mesh
  | .step .cancel => (m.cancel id).1
  | .step s => m.onGather id (·.take s)
  | .setMembers node members => m.setMembers node members

/-- The mesh after several things happened. -/
def tendAll (m : Mesh) (id : Nat) (tendings : List Tending) : Mesh :=
  tendings.foldl (fun m t => m.tend id t) m

/-- The gather takes the steps and nothing else. -/
theorem gather?_tend (m : Mesh) {id : Nat} {g : Gather} (hg : m.gather? id = some g) (t : Tending) :
    (m.tend id t).gather? id = some (g.takeAll t.step?.toList) ∧
      (m.tend id t).notices = m.notices ++ g.noticesAll t.step?.toList := by
  have htake : ∀ s : Gather.Step, g.noticesAll [s] = (g.take s).2 := by
    intro s
    simp [Gather.noticesAll]
  -- every step but a cancellation is taken as it is
  have hstep : ∀ s, (m.onGather id (·.take s)).gather? id = some (g.takeAll [s]) ∧
      (m.onGather id (·.take s)).notices = m.notices ++ g.noticesAll [s] := by
    intro s
    rw [gather?_onGather, if_pos rfl, hg, notices_onGather m hg, htake]
    exact ⟨rfl, rfl⟩
  cases t with
  | setMembers node members =>
    have hwork := m.work_setMembers node members
    refine ⟨(gather?_of_work hwork id).trans hg, ?_⟩
    rw [Tending.step?, Option.toList_none, Gather.noticesAll, List.append_nil]
    exact notices_of_work hwork
  | step s =>
    cases s with
    | cancel =>
      refine ⟨?_, ?_⟩
      · rw [tend, gather?_cancel, if_pos rfl, hg]
        rfl
      · rw [tend, cancel, hg]
        simp [Tending.step?, Gather.noticesAll, Gather.take]
    | complete nodeId value => exact hstep (.complete nodeId value)
    | fail failure => exact hstep (.fail failure)
    | track task => exact hstep (.track task)
    | onComplete label => exact hstep (.onComplete label)
    | snapshot => exact hstep .snapshot

/-- What happens to the gather in a run: by induction on what happens. -/
theorem gather?_tendAll (m : Mesh) {id : Nat} {g : Gather} (hg : m.gather? id = some g)
    (tendings : List Tending) :
    (m.tendAll id tendings).gather? id = some (g.takeAll (tendings.filterMap Tending.step?)) ∧
      (m.tendAll id tendings).notices =
        m.notices ++ g.noticesAll (tendings.filterMap Tending.step?) := by
  induction tendings generalizing m g with
  | nil => simpa [tendAll, Gather.takeAll, Gather.noticesAll] using hg
  | cons t tendings ih =>
    obtain ⟨hgather, hnotices⟩ := m.gather?_tend hg t
    obtain ⟨hrest, hrest'⟩ := ih (m.tend id t) hgather
    rw [tendAll, List.foldl_cons]
    change ((m.tend id t).tendAll id tendings).gather? id = _ ∧
      ((m.tend id t).tendAll id tendings).notices = _
    rw [hrest, hrest', hnotices, List.filterMap_cons]
    cases t with
    | setMembers node members => simp [Tending.step?, Gather.takeAll, Gather.noticesAll]
    | step s => simp [Tending.step?, Gather.takeAll, Gather.noticesAll]

/-- **The accounts of a dispatch.** Whatever happens after a dispatch, in whatever order: the nodes
that answered, those that failed and those that are awaited are the node itself and its peers, each
once; the gather is complete exactly when nobody is awaited; its value is the node's own merged with
one offered answer of each node that answered, in order; and every result shows just that, the
callbacks being given the final one. While it runs, the gather awaits the peers that nothing was
offered for, and only a cancellation stops it early. -/
theorem accounted_tendAll (m : Mesh) (h : Host) {inquiry : Inquiry} {r : Registry} {own : Tally}
    (hlocal : inquiry.runLocally h.registry = .ok (r, own))
    (hnode : h.registry.nodeId ∉ h.peers.map (·.id)) (tendings : List Tending) :
    let m₀ := (m.dispatch h inquiry).1
    let id := (m.dispatch h inquiry).2
    let steps := tendings.filterMap Tending.step?
    ∃ g answers, (m₀.tendAll id tendings).gather? id = some g ∧
      g.Accounted h.registry.nodeId own (h.peers.map (·.id)) answers ∧
      answers.Sublist (steps.filterMap Gather.Step.answer?) ∧
      g.failures.Sublist (steps.filterMap Gather.Step.failure?) ∧
      (g.phase = .running → ∀ n, n ∈ g.outstanding ↔
        n ∈ h.peers.map (·.id) ∧ ∀ s ∈ steps, s.node? ≠ some n) ∧
      (g.phase = .cancelled → .cancel ∈ steps) ∧
      ∃ notices, (m₀.tendAll id tendings).notices = m₀.notices ++ notices ∧
        ∀ n ∈ notices, g.phase = .completed ∧ n.2 = .ok g.snapshot := by
  intro m₀ id steps
  -- the gather has tracked its calls already when the first step comes
  let start := Gather.start h.registry.nodeId own (h.peers.map (·.id)) h.config.partialOnTimeout
  let tracks : List Gather.Step :=
    (callsTo m.nextId h inquiry (m.nextId + 1) h.peers).map fun c => .track c.task
  have htracks : tracks.filterMap Gather.Step.answer? = [] ∧
      tracks.filterMap Gather.Step.failure? = [] := by
    simp [tracks, List.filterMap_map, Function.comp_def, Gather.Step.answer?,
      Gather.Step.failure?]
  have hstart : start.Accounts h.registry.nodeId own (Ascending.ofList (h.peers.map (·.id))) [] :=
    Gather.accounts_start ..
  have hopened : m₀.gather? id = some (start.takeAll tracks) := m.gather?_dispatch h hlocal
  obtain ⟨hgather, hnotices⟩ := m₀.gather?_tendAll hopened tendings
  -- so what happens is one run of the gather, from its start
  have hrun := hstart.takeAll (tracks ++ steps)
  rw [← Gather.takeAll_append] at hgather
  refine ⟨start.takeAll (tracks ++ steps), start.acceptedAll (tracks ++ steps), hgather,
    hrun.accounted hnode, ?_, ?_, ?_, ?_, (start.takeAll tracks).noticesAll steps, hnotices, ?_⟩
  · have hsub := start.acceptedAll_sublist (tracks ++ steps)
    rwa [List.filterMap_append, htracks.1, List.nil_append] at hsub
  · have hsub := start.recordedAll_sublist (tracks ++ steps)
    rw [List.filterMap_append, htracks.2, List.nil_append] at hsub
    rw [Gather.failures_takeAll]
    exact hsub
  · intro hphase n
    obtain ⟨-, hout⟩ := Gather.running_takeAll hphase
    -- the tracked calls say nothing about any node
    have hsilent : ∀ s ∈ tracks, s.node? ≠ some n := by
      intro s hs
      obtain ⟨c, -, rfl⟩ := List.mem_map.1 hs
      simp [Gather.Step.node?]
    have hpeers : n ∈ start.outstanding ↔ n ∈ h.peers.map (·.id) := Ascending.mem_ofList
    rw [hout, hpeers, List.forall_mem_append]
    exact and_congr_right fun _ => and_iff_right hsilent
  · intro hphase
    rcases Gather.cancelled_takeAll hphase with hstopped | hmem
    · exact (Gather.phase_start_ne _ _ _ _ hstopped).elim
    · rcases List.mem_append.1 hmem with htrack | hstep
      · obtain ⟨c, -, hc⟩ := List.mem_map.1 htrack
        cases hc
      · exact hstep
  · intro n hn
    rw [Gather.takeAll_append]
    exact (hstart.takeAll tracks).notices_takeAll steps hn

/-- Everything that can happen to a gather whose one peer is `b`, the answer of `b` coming late and
more than once. -/
def bustle : List Tending :=
  [.step (.onComplete "done"), .step (.complete "z" (.count 9)), .step .snapshot,
    .setMembers "a" [], .step (.complete "b" (.count 4)), .step (.complete "b" (.count 4)),
    .step (.fail ⟨"b", "host:2", .timeout 5⟩), .step (.track 3), .step .cancel,
    .step (.onComplete "late")]

/-- The accounts of a count that one peer answers, twice and among much else. -/
theorem accounted_tendAll_bustle :
    let a := Host.standard "a" "host:1" [.peer "b" "host:2", .peer "b" "host:2"]
    let m := create [a, .standard "b" "host:2" []] ∅
    Inquiry.count.runLocally a.registry = .ok (a.registry, .count 0) ∧
      a.registry.nodeId ∉ a.peers.map (·.id) ∧
      ∃ g answers, ((m.dispatch a .count).1.tendAll (m.dispatch a .count).2 bustle).gather?
          (m.dispatch a .count).2 = some g ∧
        g.Accounted "a" (.count 0) (a.peers.map (·.id)) answers := by
  intro a m
  have hlocal : Inquiry.count.runLocally a.registry = .ok (a.registry, .count 0) := rfl
  have hnode : a.registry.nodeId ∉ a.peers.map (·.id) := by decide
  obtain ⟨g, answers, hg, haccounted, -⟩ := accounted_tendAll m a hlocal hnode bustle
  exact ⟨hlocal, hnode, g, answers, hg, haccounted⟩

end Mesh

end PushMesh
