import PushMesh.Proofs.Mesh.Courses
import PushMesh.Proofs.Mesh.Deeds
import PushMesh.Proofs.Mesh.Resolved
import Mathlib.Algebra.Order.BigOperators.Group.List

/-!
# The metrics of a process

What the metrics of a process say can be read off elsewhere: from the registries of its nodes, from what was
done to them, from the inquiries that were dispatched, and from the gathers of those that are complete. The
sums over all registries follow from what is booked (`booked_run`) and from what each registry counts itself
(`Registry.metered_run`); the calls of one dispatch follow from their chart (`Charted.recorded`).
-/

namespace PushMesh.Mesh

variable {m s : Mesh} {h : Host} {inquiry : Inquiry} {own : Tally} {g : Gather}
  {answers : List (String × Tally)} {booked : List Booking}

/-! ## What registries come to -/

/-- What was counted for a dispatch that is complete. -/
structure Recorded (h : Host) (id : Nat) (booked : List Booking) (g : Gather) : Prop where
  /-- Each peer has answered or failed. -/
  settled : (g.responded ++ g.failures.map (·.nodeId)).Perm (h.self.id :: h.peers.map (·.id))
  /-- Nobody is among them twice. -/
  apart : (g.responded ++ g.failures.map (·.nodeId)).Nodup
  /-- The call of a peer that answered was counted once, as one that went well. -/
  answered : ∀ p ∈ h.peers, p.id ∈ g.responded →
    booked.filter (·.peer == p.id) = [⟨id, p.id, .ok⟩]
  /-- The call of a peer that failed was counted once, by its failure. -/
  failed : ∀ p ∈ h.peers, ∀ f ∈ g.failures, f.nodeId = p.id →
    booked.filter (·.peer == p.id) = [⟨id, p.id, .ofError f.error⟩]
  /-- Nothing else was counted. -/
  others : ∀ b ∈ booked, ∃ p ∈ h.peers, p.id = b.peer

/-- In a gather that is complete all calls are over. -/
theorem Charted.recorded (hcharted : Charted (m.setupOf h inquiry own) g answers booked s)
    (hnode : h.registry.nodeId = h.self.id) (hdone : g.phase = .completed) :
    Recorded h m.nextId booked g := by
  have hx := m.valid_setupOf h inquiry own
  have hpeers := Membership.peersOf_remotePeers h.self h.members
  have haccounts : g.Accounts h.self.id own (.ofList (h.peers.map (·.id))) answers :=
    hnode ▸ hcharted.accounts
  have hnobody : ∀ n, n ∉ g.outstanding := Ascending.isEmpty_iff.1 (haccounts.completed_iff.1 hdone)
  have hsettled : (g.responded ++ g.failures.map (·.nodeId)).Perm
      (h.self.id :: h.peers.map (·.id)) := by
    have hplaces := haccounts.places
    rw [List.eq_nil_iff_forall_not_mem.2 hnobody, List.append_nil] at hplaces
    exact hplaces.trans ((Ascending.perm_ofList hpeers.ids).cons _)
  -- what was counted for a peer, and where the peer stands, follow from its last reply
  have hcourse : ∀ p ∈ h.peers, ∃ v : Gather.Verdict, v.peer = p ∧ v.Taken answers g ∧
      booked.filter (·.peer == p.id) = [⟨m.nextId, p.id, v.outcome⟩] := by
    intro p hp
    obtain ⟨c, hc, rfl⟩ := m.exists_mem_callsOf inquiry hp
    cases hcharted.course c hc with
    | underWay hout _ _ _ => exact absurd hout (hnobody _)
    | @ended last _ _ _ htaken hbooked =>
      rw [show c.gather = m.nextId from hx.gather c hc] at hbooked
      exact ⟨c.verdict last, rfl, htaken, hbooked⟩
  have hapart : h.self.id ∉ Ascending.ofList (h.peers.map (·.id)) := by
    rw [Ascending.mem_ofList]
    exact hpeers.away
  refine ⟨hsettled, hsettled.nodup_iff.2 (List.nodup_cons.2 ⟨hpeers.away, hpeers.ids⟩), ?_, ?_, ?_⟩
  · intro p hp hresponded
    obtain ⟨v, rfl, htaken, hbooked⟩ := hcourse p hp
    rw [hbooked, (haccounts.outcome_of_taken hapart htaken).1 hresponded]
  · intro p hp f hf hid
    obtain ⟨v, rfl, htaken, hbooked⟩ := hcourse p hp
    rw [hbooked, (haccounts.outcome_of_taken hapart htaken).2 f hf hid]
  · intro b hb
    obtain ⟨c, hc, hid⟩ := hcharted.callees b hb
    exact ⟨c.callee, callee_mem_peers hc, hid⟩

end PushMesh.Mesh
