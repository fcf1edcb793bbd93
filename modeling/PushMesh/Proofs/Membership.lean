import PushMesh.Discovery.Heartbeat
import PushMesh.Mesh.Basic
import PushMesh.Proofs.Data.Ascending

/-!
# The peers among candidates

Candidates are considered one after the other, each beside the peers that were found before it. `added` is
that as a recursion on the candidates: what they add to peers that are known. Candidates in two parts add
what the first add and then what the second add to those (`added_append`), and what was added once is added
again in whole (`added_added`). So candidates may be filtered in stages, and what a configuration or a
heartbeat has filtered is dispatched to as it is (`selects_remotePeers`).

`PeersOf` is what dispatches rely on: the peers name other processes, each once, and no process is left out.
-/

namespace PushMesh.Membership

variable {me n : Node} {kept xs : List Node}

/-! ## One candidate -/

/-- Why a candidate is no peer beside the peers that were found before it. -/
def Redundant (me : Node) (kept : List Node) (n : Node) : Prop :=
  n.isSelf = true ∨ n.id = me.id ∨ n.endpointKey = me.endpointKey ∨
    ∃ p ∈ kept, p.id = n.id ∨ p.endpointKey = n.endpointKey

/-- More peers make a candidate no less redundant. -/
theorem Redundant.append (h : Redundant me kept n) (more : List Node) :
    Redundant me (kept ++ more) n := by
  rcases h with hflag | hid | hendpoint | ⟨p, hp, hsame⟩
  · exact .inl hflag
  · exact .inr (.inl hid)
  · exact .inr (.inr (.inl hendpoint))
  · exact .inr (.inr (.inr ⟨p, List.mem_append_left _ hp, hsame⟩))

/-- A node is taken as a peer iff it is not redundant. -/
theorem isNewPeer_iff : isNewPeer me kept n = true ↔ ¬Redundant me kept n := by
  simp [isNewPeer, Redundant, Node.sameEndpoint, and_assoc]

/-! ## One candidate after the other -/

/-- The peers that candidates add to those that were found before. -/
def added (me : Node) : List Node → List Node → List Node
  | _, [] => []
  | kept, n :: rest =>
    if isNewPeer me kept n then n :: added me (kept ++ [n]) rest else added me kept rest

/-- A redundant node is left out. -/
theorem added_cons_of_redundant (h : Redundant me kept n) (rest : List Node) :
    added me kept (n :: rest) = added me kept rest := by
  rw [added, if_neg fun hnew => isNewPeer_iff.1 hnew h]

/-- A node that is not redundant is kept, and those after it are compared with it too. -/
theorem added_cons_of_not_redundant (h : ¬Redundant me kept n) (rest : List Node) :
    added me kept (n :: rest) = n :: added me (kept ++ [n]) rest := by
  rw [added, if_pos (isNewPeer_iff.2 h)]

/-- Candidates that are considered in turn are put behind what was kept. -/
theorem foldl_eq_added (me : Node) (kept xs : List Node) :
    xs.foldl (fun kept n => if isNewPeer me kept n then kept ++ [n] else kept) kept =
      kept ++ added me kept xs := by
  induction xs generalizing kept with
  | nil => exact (List.append_nil kept).symm
  | cons n rest ih =>
    rw [List.foldl_cons, ih, added]
    split
    · rw [List.append_assoc, List.singleton_append]
    · rfl

/-- The peers are the nodes that are added to none. -/
theorem remotePeers_eq (me : Node) (xs : List Node) : remotePeers me xs = added me [] xs := by
  rw [remotePeers, foldl_eq_added, List.nil_append]

/-- Candidates in two parts: the second are considered beside what the first have added. -/
theorem added_append (me : Node) (kept xs ys : List Node) :
    added me kept (xs ++ ys) = added me kept xs ++ added me (kept ++ added me kept xs) ys := by
  induction xs generalizing kept with
  | nil => simp [added]
  | cons n rest ih =>
    rw [List.cons_append, added, added]
    split
    · rw [ih, List.cons_append, List.append_assoc, List.singleton_append]
    · exact ih kept

/-- What was added is added again in whole. -/
theorem added_added (me : Node) (kept xs : List Node) :
    added me kept (added me kept xs) = added me kept xs := by
  induction xs generalizing kept with
  | nil => rfl
  | cons n rest ih =>
    by_cases hn : Redundant me kept n
    · rw [added_cons_of_redundant hn]
      exact ih kept
    · rw [added_cons_of_not_redundant hn, added_cons_of_not_redundant hn, ih]

/-- The nodes that are added keep their order. -/
theorem added_sublist (me : Node) (kept xs : List Node) : (added me kept xs).Sublist xs := by
  induction xs generalizing kept with
  | nil => exact .slnil
  | cons n rest ih =>
    rw [added]
    split
    · exact (ih _).cons_cons n
    · exact (ih kept).cons n

/-- What is added was not redundant, and least of all beside those that were kept from the start. -/
theorem not_redundant_of_mem_added {p : Node} (hp : p ∈ added me kept xs) : ¬Redundant me kept p := by
  induction xs generalizing kept with
  | nil => exact absurd hp List.not_mem_nil
  | cons n rest ih =>
    by_cases hn : Redundant me kept n
    · rw [added_cons_of_redundant hn] at hp
      exact ih hp
    · rw [added_cons_of_not_redundant hn] at hp
      rcases List.mem_cons.1 hp with rfl | hp
      · exact hn
      · exact fun hredundant => ih hp (hredundant.append [n])

/-- Any two that are added differ in id and endpoint. -/
theorem pairwise_added (me : Node) (kept xs : List Node) :
    (added me kept xs).Pairwise fun p q => p.id ≠ q.id ∧ p.endpointKey ≠ q.endpointKey := by
  induction xs generalizing kept with
  | nil => exact .nil
  | cons n rest ih =>
    by_cases hn : Redundant me kept n
    · rw [added_cons_of_redundant hn]
      exact ih kept
    · rw [added_cons_of_not_redundant hn]
      refine List.pairwise_cons.2 ⟨fun q hq => ?_, ih _⟩
      have hlater : ∀ p ∈ kept ++ [n], ¬(p.id = q.id ∨ p.endpointKey = q.endpointKey) :=
        fun p hp hsame => not_redundant_of_mem_added hq (.inr (.inr (.inr ⟨p, hp, hsame⟩)))
      exact not_or.1 (hlater n (List.mem_append_right _ (List.mem_singleton_self n)))

/-! ## Peers -/

/-- Candidates in two parts, as peers. -/
theorem remotePeers_append (me : Node) (xs ys : List Node) :
    remotePeers me (xs ++ ys) = remotePeers me xs ++ added me (remotePeers me xs) ys := by
  rw [remotePeers_eq, remotePeers_eq, added_append, List.nil_append]

/-- Peers that are filtered again stay as they are. -/
theorem remotePeers_remotePeers (me : Node) (xs : List Node) :
    remotePeers me (remotePeers me xs) = remotePeers me xs := by
  simp only [remotePeers_eq, added_added]

/-- A candidate that is redundant beside the peers before it makes no difference. -/
theorem remotePeers_of_redundant {pre : List Node} (h : Redundant me (remotePeers me pre) n)
    (post : List Node) : remotePeers me (pre ++ n :: post) = remotePeers me (pre ++ post) := by
  rw [remotePeers_append, added_cons_of_redundant h, ← remotePeers_append]

/-- Any other candidate comes next among the peers. -/
theorem remotePeers_of_not_redundant {pre : List Node} (h : ¬Redundant me (remotePeers me pre) n)
    (post : List Node) : remotePeers me (pre ++ n :: post) =
      remotePeers me pre ++ n :: added me (remotePeers me pre ++ [n]) post := by
  rw [remotePeers_append, added_cons_of_not_redundant h]

/-- What the peers of a node among candidates are. -/
structure PeersOf (me : Node) (candidates peers : List Node) : Prop where
  ids : (peers.map (·.id)).Nodup
  mem : ∀ p ∈ peers, p ∈ candidates
  other : ∀ p ∈ peers, p.isSelf = false ∧ p.id ≠ me.id ∧ p.sameEndpoint me = false
  /-- Another process is a peer, under its id or under its endpoint. -/
  covers : ∀ n ∈ candidates, n.isSelf = false → n.id ≠ me.id → n.sameEndpoint me = false →
    ∃ p ∈ peers, p.id = n.id ∨ p.sameEndpoint n = true

/-- A node is not among its peers. -/
theorem PeersOf.away {candidates peers : List Node} (h : PeersOf me candidates peers) :
    me.id ∉ peers.map (·.id) := by
  intro hmem
  obtain ⟨p, hp, hid⟩ := List.mem_map.1 hmem
  exact (h.other p hp).2.1 hid

/-- No peer is the node itself, by its flag, its id or its address. -/
theorem other_of_mem_remotePeers {p : Node} (hp : p ∈ remotePeers me xs) :
    p.isSelf = false ∧ p.id ≠ me.id ∧ p.endpointKey ≠ me.endpointKey := by
  rw [remotePeers_eq] at hp
  have hnot := not_redundant_of_mem_added hp
  simpa [Redundant] using hnot

/-- **The peers of a node** are the candidates that name other processes, each once. -/
theorem peersOf_remotePeers (me : Node) (candidates : List Node) :
    PeersOf me candidates (remotePeers me candidates) where
  ids := by
    rw [remotePeers_eq]
    exact List.pairwise_map.2 ((pairwise_added me [] candidates).imp And.left)
  mem p hp := by
    rw [remotePeers_eq] at hp
    exact (added_sublist me [] candidates).subset hp
  other p hp := by
    simpa [Node.sameEndpoint] using other_of_mem_remotePeers hp
  covers n hn hflag hid hendpoint := by
    obtain ⟨pre, post, rfl⟩ := List.append_of_mem hn
    by_cases hredundant : Redundant me (remotePeers me pre) n
    · -- nothing but an earlier peer speaks against the candidate, and that peer stays
      obtain ⟨p, hp, hsame⟩ : ∃ p ∈ remotePeers me pre, p.id = n.id ∨ p.sameEndpoint n = true := by
        simp only [Node.sameEndpoint, beq_eq_false_iff_ne] at hendpoint
        simpa [Redundant, hflag, hid, hendpoint, Node.sameEndpoint] using hredundant
      rw [remotePeers_append]
      exact ⟨p, List.mem_append_left _ hp, hsame⟩
    · rw [remotePeers_of_not_redundant hredundant]
      exact ⟨n, List.mem_append_right _ List.mem_cons_self, .inl rfl⟩

/-- How peers come out of candidates. -/
structure Selects (me : Node) (candidates peers : List Node) : Prop where
  sublist : peers.Sublist candidates
  other : ∀ p ∈ peers, p.isSelf = false ∧ p.id ≠ me.id ∧ p.endpointKey ≠ me.endpointKey
  apart : peers.Pairwise fun p q => p.id ≠ q.id ∧ p.endpointKey ≠ q.endpointKey
  /-- Each candidate, in its place, is either redundant beside the peers before it and might as well be
  missing, or it is the next peer. -/
  judged : ∀ pre n post, candidates = pre ++ n :: post → remotePeers me pre <+: peers ∧
    (Redundant me (remotePeers me pre) n ∧ peers = remotePeers me (pre ++ post) ∨
      ¬Redundant me (remotePeers me pre) n ∧ remotePeers me pre ++ [n] <+: peers)
  /-- Candidates may be filtered before more of them come. -/
  staged : ∀ more, remotePeers me (peers ++ more) = remotePeers me (candidates ++ more)
  again : remotePeers me peers = peers

/-- **Filtering candidates.** The peers are a part of the candidates in their order, none is the node itself
by flag, id or endpoint, and any two differ in id and endpoint. Whatever is left out is the node itself or
repeats the id or the endpoint of a peer that comes before it. Filtering in stages comes to the same, so what
the configuration or a heartbeat of a node brings is what the node dispatches to. -/
theorem selects_remotePeers (me : Node) (candidates : List Node) :
    Selects me candidates (remotePeers me candidates) ∧
      ∀ h : Host, h.self = me →
        (h.members = remotePeers me candidates ∨
          (∃ entries, h.members = ofEntries me entries) ∨
          ∃ descriptors, h.members = Discovery.peersOf me descriptors) →
        h.peers = h.members := by
  refine ⟨⟨?_, fun p => other_of_mem_remotePeers, ?_, ?_, ?_, ?_⟩, ?_⟩
  · rw [remotePeers_eq]
    exact added_sublist me [] candidates
  · rw [remotePeers_eq]
    exact pairwise_added me [] candidates
  · rintro pre n post rfl
    refine ⟨by rw [remotePeers_append]; exact List.prefix_append _ _, ?_⟩
    by_cases hn : Redundant me (remotePeers me pre) n
    · exact .inl ⟨hn, remotePeers_of_redundant hn post⟩
    · refine .inr ⟨hn, ?_⟩
      rw [remotePeers_of_not_redundant hn]
      exact ⟨added me (remotePeers me pre ++ [n]) post, (List.append_cons ..).symm⟩
  · intro more
    rw [remotePeers_append, remotePeers_remotePeers, ← remotePeers_append]
  · exact remotePeers_remotePeers me candidates
  · rintro h rfl (hmembers | ⟨entries, hmembers⟩ | ⟨descriptors, hmembers⟩)
    all_goals
      rw [Host.peers, hmembers]
      exact remotePeers_remotePeers _ _

/-- Candidates of which each repeats an id or an endpoint of another one, dropped or not. -/
def aliases : List Node :=
  [.peer "b" "b:1", .peer "c" "http://b:1/", .peer "c" "c:1", .peer "old" "a:1", .peer "b" "d:1",
    ⟨"e", "e:1", true⟩]

/-- A node whose membership has filtered these candidates dispatches to the two that it found. -/
theorem selects_remotePeers_aliases :
    let h : Host :=
      { self := ⟨"a", "a:1", true⟩, registry := .create "a" .standard 0,
        members := [.peer "b" "b:1", .peer "c" "c:1"], config := ⟨3000, false, true⟩, secret := none,
        bodyLimit := 0, channelCapacity := 1, heartbeatInterval := 30 }
    Selects h.self aliases h.members ∧ h.peers = h.members := by
  intro h
  have hmembers : h.members = remotePeers h.self aliases := by decide
  obtain ⟨hselects, hdispatched⟩ := selects_remotePeers h.self aliases
  exact ⟨hmembers ▸ hselects, hdispatched h rfl (.inl hmembers)⟩

end PushMesh.Membership
