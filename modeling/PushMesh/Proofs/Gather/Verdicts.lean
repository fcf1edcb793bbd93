import PushMesh.Metrics
import PushMesh.Node
import PushMesh.Proofs.Gather.Accounts

/-!
# The verdicts on the peers

The verdict on a peer is its answer, or the error that stands for it. A gather that has taken one
verdict on each peer, in whatever order, is complete, and every verdict has counted
(`Accounts.takeAll_verdicts`): nothing is left out, as there are as many places as verdicts.
-/

namespace PushMesh.Gather

/-- What became of the call to a peer. -/
structure Verdict where
  peer : Node
  result : Except PeerError Tally

namespace Verdict

/-- The answer of the peer, with its name. -/
def answer? (v : Verdict) : Option (String × Tally) :=
  match v.result with
  | .ok value => some (v.peer.id, value)
  | .error _ => none

/-- The failure of the call. -/
def failure? (v : Verdict) : Option NodeFailure :=
  match v.result with
  | .ok _ => none
  | .error e => some ⟨v.peer.id, v.peer.address, e⟩

/-- How the call is counted. -/
def outcome (v : Verdict) : CallOutcome :=
  match v.result with
  | .ok _ => .ok
  | .error e => .ofError e

/-- The step by which a gather takes the verdict. -/
def step (v : Verdict) : Step :=
  match v.result with
  | .ok value => .complete v.peer.id value
  | .error e => .fail ⟨v.peer.id, v.peer.address, e⟩

/-- The step of a verdict has the answer of the verdict. -/
theorem answer?_step (v : Verdict) : v.step.answer? = v.answer? := by
  unfold step answer?
  split <;> rfl

/-- The step of a verdict has the failure of the verdict. -/
theorem failure?_step (v : Verdict) : v.step.failure? = v.failure? := by
  unfold step failure?
  split <;> rfl

/-- The step of a verdict is about the peer that was called. -/
theorem node?_step (v : Verdict) : v.step.node? = some v.peer.id := by
  unfold step
  split <;> rfl

/-- No verdict cancels a gather. -/
theorem step_ne_cancel (v : Verdict) : v.step ≠ .cancel := by
  unfold step
  split <;> exact nofun

/-- Every verdict is an answer or a failure. -/
theorem length_filterMap (l : List Verdict) :
    (l.filterMap answer?).length + (l.filterMap failure?).length = l.length := by
  induction l with
  | nil => rfl
  | cons v l ih =>
    obtain ⟨peer, _ | _⟩ := v
    all_goals
      simp only [List.filterMap_cons, answer?, failure?, List.length_cons]
      omega

/-- Whether a verdict stands in the books of a gather, among its answers or its failures. -/
structure Taken (v : Verdict) (answers : List (String × Tally)) (g : Gather) : Prop where
  answer : ∀ a ∈ v.answer?, a ∈ answers
  failure : ∀ f ∈ v.failure?, f ∈ g.failures

/-- A verdict that was taken stays so as more is taken. -/
theorem Taken.mono {v : Verdict} {answers answers' : List (String × Tally)} {g g' : Gather}
    (h : v.Taken answers g) (hanswers : answers ⊆ answers') (hfailures : g.failures ⊆ g'.failures) :
    v.Taken answers' g' :=
  ⟨fun a ha => hanswers (h.answer a ha), fun f hf => hfailures (h.failure f hf)⟩

end Verdict

variable {node : String} {own : Tally} {peers : Ascending String}
  {answers : List (String × Tally)} {g : Gather}

/-- A gather that nobody has answered awaits its peers. -/
theorem Accounts.perm_outstanding (h : Accounts node own peers [] g) (hfailures : g.failures = []) :
    g.outstanding.toList.Perm peers.toList := by
  have hplaces := h.places
  rw [h.responded, hfailures] at hplaces
  exact hplaces.cons_inv

/-- The verdict on a peer that is awaited counts, and the peer is awaited no more. -/
theorem Accounts.verdict (h : Accounts node own peers answers g) {v : Verdict}
    (hwait : g.awaits v.peer.id = true) :
    Accounts node own peers (answers ++ v.answer?.toList) (g.take v.step).1 ∧
      (g.take v.step).1.phase ≠ .cancelled ∧
      (g.take v.step).1.outstanding = g.outstanding.erase v.peer.id ∧
      (g.take v.step).1.failures = g.failures ++ v.failure?.toList := by
  have hphase : g.phase ≠ .cancelled := by
    rw [(awaits_iff.1 hwait).1]
    exact nofun
  obtain ⟨peer, e | value⟩ := v
  · let failure : NodeFailure := ⟨peer.id, peer.address, e⟩
    have hbooks := sameBooks_fail failure hwait
    refine ⟨?_, phase_fail_ne hphase failure, hbooks.outstanding, hbooks.failures⟩
    rw [show Verdict.answer? ⟨peer, .error e⟩ = none from rfl, Option.toList_none,
      List.append_nil]
    exact h.fail hwait
  · have hbooks := sameBooks_complete hwait value
    refine ⟨h.complete hwait value, phase_complete_ne hphase peer.id value, hbooks.outstanding, ?_⟩
    rw [show Verdict.failure? ⟨peer, .ok value⟩ = none from rfl, Option.toList_none, List.append_nil]
    exact hbooks.failures

/-- Nobody has answered twice or failed twice, or answered and failed, where the node is not its own
peer. -/
theorem Accounts.nodup_settled (h : Accounts node own peers answers g) (hnode : node ∉ peers) :
    (g.responded ++ g.failures.map (·.nodeId)).Nodup :=
  (List.nodup_append.1 (h.places.nodup_iff.2 (List.nodup_cons.2 ⟨hnode, peers.nodup⟩))).1

/-- Then it can be seen from the books how a call is counted. -/
theorem Accounts.outcome_of_taken (h : Accounts node own peers answers g) (hnode : node ∉ peers)
    {v : Verdict} (hv : v.Taken answers g) :
    (v.peer.id ∈ g.responded → v.outcome = .ok) ∧
      ∀ f ∈ g.failures, f.nodeId = v.peer.id → v.outcome = .ofError f.error := by
  obtain ⟨-, hfailed, happart⟩ := List.nodup_append.1 (h.nodup_settled hnode)
  obtain ⟨peer, e | value⟩ := v
  · have hmem : (⟨peer.id, peer.address, e⟩ : NodeFailure) ∈ g.failures := hv.failure _ rfl
    refine ⟨fun hresponded => ?_, fun f hf hid => ?_⟩
    · exact absurd rfl (happart _ hresponded _ (List.mem_map.2 ⟨_, hmem, rfl⟩))
    · rw [List.inj_on_of_nodup_map hfailed hf hmem hid]
      rfl
  · refine ⟨fun _ => rfl, fun f hf hid => ?_⟩
    have hmem : (peer.id, value) ∈ answers := hv.answer _ rfl
    have hresponded : peer.id ∈ g.responded := by
      rw [h.responded]
      exact List.mem_cons_of_mem _ (List.mem_map.2 ⟨_, hmem, rfl⟩)
    exact absurd hid.symm (happart _ hresponded _ (List.mem_map.2 ⟨f, hf, rfl⟩))

/-- And the answer of a peer is the one that was its verdict. -/
theorem Accounts.mem_answers_iff (h : Accounts node own peers answers g) (hnode : node ∉ peers)
    {v : Verdict} (hv : v.Taken answers g) (t : Tally) :
    (v.peer.id, t) ∈ answers ↔ v.result = .ok t := by
  obtain ⟨hresponded, -, happart⟩ := List.nodup_append.1 (h.nodup_settled hnode)
  rw [h.responded, List.nodup_cons] at hresponded
  obtain ⟨peer, e | value⟩ := v
  · have hmem : (⟨peer.id, peer.address, e⟩ : NodeFailure) ∈ g.failures := hv.failure _ rfl
    refine iff_of_false (fun ha => ?_) nofun
    have hanswered : peer.id ∈ g.responded := by
      rw [h.responded]
      exact List.mem_cons_of_mem _ (List.mem_map.2 ⟨_, ha, rfl⟩)
    exact absurd rfl (happart _ hanswered _ (List.mem_map.2 ⟨_, hmem, rfl⟩))
  · have hmem : (peer.id, value) ∈ answers := hv.answer _ rfl
    refine ⟨fun ha => ?_, fun hvalue => ?_⟩
    · have hsame := List.inj_on_of_nodup_map hresponded.2 hmem ha rfl
      exact congrArg (fun a => Except.ok a.2) hsame
    · obtain rfl := Except.ok.inj hvalue
      exact hmem

/-- Once there is a verdict on each peer a gather is complete. -/
theorem Accounts.completed_verdicts (h : Accounts node own peers [] g) (hfailures : g.failures = [])
    (hphase : g.phase ≠ .cancelled) {l : List Verdict}
    (hl : (l.map (·.peer.id)).Perm peers.toList) :
    (g.takeAll (l.map Verdict.step)).phase = .completed := by
  have hafter := h.takeAll (l.map Verdict.step)
  rcases hafter.phase with hdone | hrunning | hcancelled
  · exact hdone
  · -- a node that is awaited still would be a peer without a verdict
    obtain ⟨-, hout⟩ := running_takeAll hrunning
    rw [hafter.completed_iff, Ascending.isEmpty_iff]
    intro n hn
    obtain ⟨hbefore, hsilent⟩ := (hout n).1 hn
    have hpeer := (h.perm_outstanding hfailures).mem_iff.1 hbefore
    obtain ⟨v, hv, rfl⟩ := List.mem_map.1 (hl.mem_iff.2 hpeer)
    exact absurd v.node?_step (hsilent _ (List.mem_map.2 ⟨v, hv, rfl⟩))
  · rcases cancelled_takeAll hcancelled with hbefore | hcancel
    · exact absurd hbefore hphase
    · obtain ⟨v, -, hv⟩ := List.mem_map.1 hcancel
      exact absurd hv v.step_ne_cancel

/-- **One verdict on each peer** completes a gather, and all of them count, in their order. -/
theorem Accounts.takeAll_verdicts (h : Accounts node own peers [] g) (hfailures : g.failures = [])
    (hphase : g.phase ≠ .cancelled) {l : List Verdict}
    (hl : (l.map (·.peer.id)).Perm peers.toList) :
    (g.takeAll (l.map Verdict.step)).phase = .completed ∧
      Accounts node own peers (l.filterMap Verdict.answer?) (g.takeAll (l.map Verdict.step)) ∧
      (g.takeAll (l.map Verdict.step)).failures = l.filterMap Verdict.failure? := by
  have hdone := h.completed_verdicts hfailures hphase hl
  have hafter := h.takeAll (l.map Verdict.step)
  have hrecorded := g.failures_takeAll (l.map Verdict.step)
  rw [hfailures, List.nil_append] at hrecorded
  rw [List.nil_append] at hafter
  -- only what is offered counts
  have haccepted : (g.acceptedAll (l.map Verdict.step)).Sublist (l.filterMap Verdict.answer?) := by
    have hsub := g.acceptedAll_sublist (l.map Verdict.step)
    rwa [List.filterMap_map, List.filterMap_congr fun v _ => v.answer?_step] at hsub
  have hfailed : (g.recordedAll (l.map Verdict.step)).Sublist (l.filterMap Verdict.failure?) := by
    have hsub := g.recordedAll_sublist (l.map Verdict.step)
    rwa [List.filterMap_map, List.filterMap_congr fun v _ => v.failure?_step] at hsub
  -- and as everyone has a place, all that is offered does
  have hempty : (g.takeAll (l.map Verdict.step)).outstanding.toList = [] :=
    List.eq_nil_iff_forall_not_mem.2 (Ascending.isEmpty_iff.1 (hafter.completed_iff.1 hdone))
  have hplaces := hafter.places.length_eq
  rw [hafter.responded, hrecorded, hempty] at hplaces
  have hcount : (g.acceptedAll (l.map Verdict.step)).length +
      (g.recordedAll (l.map Verdict.step)).length = l.length := by
    have hpeers := hl.length_eq
    simp only [List.length_map, List.length_append, List.length_cons, List.length_nil]
      at hplaces hpeers
    omega
  have hoffered := Verdict.length_filterMap l
  have hle := haccepted.length_le
  have hle' := hfailed.length_le
  have hall := haccepted.eq_of_length (by omega)
  rw [hfailed.eq_of_length (by omega)] at hrecorded
  exact ⟨hdone, hall ▸ hafter, hrecorded⟩

end PushMesh.Gather
