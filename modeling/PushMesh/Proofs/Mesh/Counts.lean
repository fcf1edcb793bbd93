import PushMesh.Proofs.Mesh.Accounting
import PushMesh.Proofs.Mesh.Courses
import PushMesh.Proofs.Mesh.Deeds
import PushMesh.Proofs.Mesh.OnTime
import Mathlib.Data.Set.List

/-!
# Counts that are added up

A dispatch that counts adds what its peers answer to what its own node counted. The answers are words,
whatever a peer chooses to answer, and so is their sum. `Summed` says what the sum is at every moment, and of
whom: of those peers whose calls are over and ended in a count. It is exact just as long as it fits a word, and
no answer keeps the gather from its end. The sum of two peers that answer much can come out as nothing
(`not_exact_polled`).
-/

namespace PushMesh.Mesh

variable {m s : Mesh} {h : Host} {inquiry : Inquiry} {own : UInt64} {g : Gather} {c : PeerCall}
  {x : Setup} {answers : List (String × Tally)} {booked : List Booking}

/-- What a dispatch that counts has come to: its node counted `own`, and its peers answered `counts`. -/
structure Summed (h : Host) (own : UInt64) (id : Nat) (counts : List (String × UInt64)) (g : Gather)
    (s : Mesh) : Prop where
  /-- Each peer has answered, has failed or is awaited, and the gather is complete if nobody is. -/
  accounted : g.Accounted h.self.id (.count own) (h.peers.map (·.id))
    (counts.map fun a => (a.1, .count a.2))
  /-- Something is due for everyone who is awaited. -/
  expected : ∀ node ∈ g.outstanding, s.Expects id node
  /-- Of the others those have answered whose last reply was a count, whichever it was. -/
  replied : ∀ p ∈ h.peers, p.id ∉ g.outstanding → ∀ n, (p.id, n) ∈ counts ↔
    (s.page id p.id).results.getLast? = some (.ok (.count n))
  /-- All counts are added as words. -/
  value : g.value = .count (UInt64.ofNat (own.toNat + (counts.map (·.2.toNat)).sum))
  exact_iff : g.value.size = own.toNat + (counts.map (·.2.toNat)).sum ↔
    own.toNat + (counts.map (·.2.toNat)).sum < 2 ^ 64

/-! ## Calls and their answers -/

/-- As long as a peer is awaited something is due for its call. -/
theorem Charted.expects (h : Charted x g answers booked m) (hc : c ∈ x.calls)
    (hout : c.callee.id ∈ g.outstanding) : m.Expects x.id c.callee.id := by
  cases h.course c hc with
  | underWay _ hdue _ _ => exact exists_timer_of_due (by rw [hdue]; exact List.cons_ne_nil _ _)
  | ended hover _ _ _ _ => exact absurd hout hover

/-- The answer of a peer that is awaited no more is what its last reply came to. -/
theorem Charted.mem_answers_iff (h : Charted x g answers booked m) (hnode : x.node ∉ x.peers)
    (hc : c ∈ x.calls) (hout : c.callee.id ∉ g.outstanding) (t : Tally) :
    (c.callee.id, t) ∈ answers ↔ ∃ output,
      (m.page x.id c.callee.id).results.getLast? = some (.ok output) ∧
        Tally.ofOutput c.kind output = .ok t := by
  cases h.course c hc with
  | underWay hwaits _ _ _ => exact absurd hwaits hout
  | @ended last _ _ hlast htaken _ =>
    rw [show c.callee.id = (c.verdict last).peer.id from rfl,
      h.accounts.mem_answers_iff hnode htaken, PeerCall.verdict, hlast]
    cases last with
    | error e =>
      refine iff_of_false nofun ?_
      rintro ⟨_, ⟨⟩, _⟩
    | ok output =>
      refine ⟨fun ht => ⟨output, rfl, ht⟩, ?_⟩
      rintro ⟨_, ⟨⟩, ht⟩
      exact ht

/-! ## The sum -/

/-- The counts are added in the books of the gather, and they are those that were answered last. -/
theorem Charted.summed (hcharted : Charted (m.setupOf h inquiry (.count own)) g answers booked s)
    (hnode : h.registry.nodeId = h.self.id) (hkind : inquiry.kind = .count) :
    ∃ counts, Summed h own m.nextId counts g s := by
  have hx := m.valid_setupOf h inquiry (.count own)
  have haway := (Membership.peersOf_remotePeers h.self h.members).away
  have haccounts : g.Accounts h.self.id (.count own) (.ofList (h.peers.map (·.id))) answers :=
    hnode ▸ hcharted.accounts
  have haccounted := haccounts.accounted haway
  have hanswers : ∀ p ∈ h.peers, p.id ∉ g.outstanding → ∀ t, (p.id, t) ∈ answers ↔
      ∃ output, (s.page m.nextId p.id).results.getLast? = some (.ok output) ∧
        Tally.ofOutput .count output = .ok t := by
    intro p hp hout t
    obtain ⟨c, hc, rfl⟩ := m.exists_mem_callsOf inquiry hp
    have hself : h.registry.nodeId ∉ Ascending.ofList (h.peers.map (·.id)) := by
      rwa [hnode, Ascending.mem_ofList]
    rw [hcharted.mem_answers_iff hself hc hout, hx.kind c hc, ← hkind]
    rfl
  -- so all answers are counts
  obtain ⟨counts, rfl⟩ : answers ∈
      Set.range (List.map fun a : String × UInt64 => (a.1, Tally.count a.2)) := by
    rw [Set.range_list_map]
    intro a ha
    obtain ⟨hpeer, hout⟩ := haccounted.of_mem_answers ha
    obtain ⟨p, hp, hid⟩ := List.mem_map.1 hpeer
    obtain ⟨output, -, ht⟩ := (hanswers p hp (hid ▸ hout) a.2).1 (hid ▸ ha)
    have hcount := Tally.exists_eq_count (Tally.kind_ofOutput ht)
    exact ⟨(a.1, UInt64.ofNat a.2.size), Prod.ext rfl hcount.symm⟩
  have hvalue : g.value = .count (UInt64.ofNat (own.toNat + (counts.map (·.2.toNat)).sum)) := by
    have hsum := Tally.mergeAll_count own (counts.map (·.2))
    rw [haccounted.value, List.map_map]
    rw [List.map_map, List.map_map] at hsum
    exact hsum
  refine ⟨counts, haccounted, fun node hout => ?_, fun p hp hout n => ?_, hvalue, ?_⟩
  · have hpeer := haccounts.mem_peers (by rwa [Ascending.mem_ofList]) hout
    rw [Ascending.mem_ofList, ← m.callee_id_callsOf h inquiry] at hpeer
    obtain ⟨c, hc, rfl⟩ := List.mem_map.1 hpeer
    exact hcharted.expects hc hout
  · have hmem : (p.id, n) ∈ counts ↔
        (p.id, Tally.count n) ∈ counts.map fun a : String × UInt64 => (a.1, Tally.count a.2) := by
      simp
    rw [hmem, hanswers p hp hout]
    simp only [Tally.ofOutput_count_iff, exists_eq_right]
  · rw [hvalue]
    exact Tally.size_count_ofNat_iff _

/-- **Counts are words.** In a mesh with any past let a host dispatch an inquiry that counts, let peers answer
any counts, and let anything happen afterwards. As long as the dispatch is not cancelled each peer has
answered, has failed or is awaited, something is due for those that are awaited, and when nobody is the gather
is complete. Any count that a peer answers in the end is added, and nothing else is. The value is the word of
the sum of all counts: it is the sum itself if that is less than 2⁶⁴, and otherwise it is not. -/
theorem summed_run (hm : m.Reached) {node : String} (hh : m.host? node = some h) {r : Registry}
    (hlocal : inquiry.runLocally h.registry = .ok (r, .count own)) (after : List Turn) :
    let id := (m.dispatch h inquiry).2
    let s := m.run (.dispatch node inquiry :: after)
    ∃ g, s.gather? id = some g ∧ (g.phase ≠ .cancelled → ∃ counts, Summed h own id counts g s) := by
  intro id s
  have hid : id = m.nextId := snd_dispatch hlocal
  have hkind : inquiry.kind = .count :=
    (Tally.kind_ofOutput (Inquiry.runLocally_eq_ok_iff.1 hlocal).2.2).symm
  rw [hid]
  rcases charted_run hm.sound hh hlocal after with ⟨g, answers, hcharted⟩ | ⟨g, hg, hcancelled⟩
  · exact ⟨g, hcharted.gather, fun _ => hcharted.summed (hm.nodeId_eq (host?_mem hh)) hkind⟩
  · exact ⟨g, hg, fun hphase => absurd hcancelled hphase⟩

/-- A node with two peers that answer `b` and `c`, whatever they are asked. -/
def polled (b c : UInt64) : Mesh :=
  create
    [.standard "a" "host:1" [.peer "b" "host:2", .peer "c" "host:3"], .standard "b" "host:2" [],
      .standard "c" "host:3" []]
    (((∅ : Table String (List Link)).insert "b" [⟨0, .answers (.count b), false⟩]).insert "c"
      [⟨0, .answers (.count c), false⟩])

/-- Counts whose sum is the greatest word are added exactly. -/
theorem summed_run_polled :
    let a := Host.standard "a" "host:1" [.peer "b" "host:2", .peer "c" "host:3"]
    let m := polled 18446744073709551614 1
    let id := (m.dispatch a .count).2
    let s := m.run [.dispatch "a" .count, .fire 0, .fire 1]
    m.Reached ∧ m.host? "a" = some a ∧
      Inquiry.count.runLocally a.registry = .ok (a.registry, .count 0) ∧
      (s.gather? id).map (·.value) = some (.count 18446744073709551615) ∧
      ∃ g counts, s.gather? id = some g ∧ g.phase = .completed ∧ Summed a 0 id counts g s := by
  intro a m id s
  have hm : m.Reached := by
    refine .create (by decide) (fun h hh => ⟨.standard, 0, [], ?_⟩) _
    simp only [List.mem_cons, List.not_mem_nil, or_false] at hh
    rcases hh with rfl | rfl | rfl <;> rfl
  have hh : m.host? "a" = some a := rfl
  have hlocal : Inquiry.count.runLocally a.registry = .ok (a.registry, .count 0) := rfl
  have hphase : (s.gather? id).map (·.phase) = some .completed := by decide
  obtain ⟨g, hg, hsummed⟩ := summed_run hm hh hlocal [.fire 0, .fire 1]
  rw [show s.gather? id = some g from hg] at hphase
  have hdone : g.phase = .completed := Option.some.inj hphase
  obtain ⟨counts, hcounts⟩ := hsummed (by rw [hdone]; exact nofun)
  exact ⟨hm, hh, hlocal, by decide, g, counts, hg, hdone, hcounts⟩

/-- With one more it is none: all peers have answered, nobody failed, and the value is not the sum. -/
theorem not_exact_polled :
    let s := (polled 18446744073709551615 1).run [.dispatch "a" .count, .fire 0, .fire 1]
    ∃ g, s.gather? 0 = some g ∧ g.phase = .completed ∧ g.responded = ["a", "b", "c"] ∧
      g.failures = [] ∧ (s.page 0 "b").results = [.ok (.count 18446744073709551615)] ∧
      (s.page 0 "c").results = [.ok (.count 1)] ∧ g.value = .count 0 ∧
      g.value.size ≠ 0 + 18446744073709551615 + 1 :=
  ⟨_, rfl, rfl, rfl, rfl, rfl, rfl, by decide, by decide⟩

end PushMesh.Mesh
