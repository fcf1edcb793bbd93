import PushMesh.Proofs.Mesh.AtMostOnce
import PushMesh.Proofs.Mesh.Deeds
import PushMesh.Proofs.Mesh.Steps
import PushMesh.Proofs.Registry.Leaving
import Mathlib.Algebra.Order.BigOperators.Group.List

/-!
# Connections of a mesh that leave

Each registry of a mesh goes through a run of its own, so each of them counts every connection once
(`Registry.conserved_run`). A disconnect of the whole mesh is told no more than what its own turns
closed (`countOf_run_le`), every turn belongs to at most one disconnect, and what a turn closes has
left. So disconnects that overlap do not count a connection twice among them (`sum_countOf_le`).
-/

namespace PushMesh.Mesh

variable {p : Nat → Prop} {q : Link → Prop} {m s : Mesh} {id : Nat} {t : Turn}

/-! ## Connections that leave -/

/-- The number of connections that turns are reported to have taken out of the registry of a node. -/
def departed (m : Mesh) (node : String) (turns : List Turn) : Nat :=
  (m.registryAt node).elim 0 fun r => (r.along Registry.reported (deedsIn node m turns)).sum

/-- The number of connections that turns are reported to have taken out of all registries. -/
def departedAll (m : Mesh) (turns : List Turn) : Nat :=
  ((m.hosts.map (·.self.id)).map fun node => m.departed node turns).sum

/-- Hosts come and go in no turn. -/
theorem Evolved.ids (hs : Evolved p q m s) :
    s.hosts.map (·.self.id) = m.hosts.map (·.self.id) := by
  induction hs with
  | refl => rfl
  | quiet _ h ih => exact h.hosts.trans ih
  | setLinks _ _ _ ih => exact ih
  | note _ _ _ ih => exact ih
  | schedule _ _ _ ih => exact ih
  | filter _ _ _ _ ih => exact ih
  | @onGather s _ id f _ _ ih =>
    obtain ⟨gathers, notices, heq⟩ := s.onGather_frame id f
    rw [heq]
    exact ih
  | addGather _ _ ih => exact ih
  | @spawn s _ id _ _ caller inquiry peer ih =>
    obtain ⟨gathers, heq⟩ := s.spawn_frame id caller inquiry peer
    rw [heq]
    exact ih

/-- What leaves a node in several turns leaves in the first or in the others. -/
theorem departed_cons (hm : m.Sound) (node : String) (t : Turn) (turns : List Turn) :
    m.departed node (t :: turns) = m.departed node [t] + (m.turn t).departed node turns := by
  rw [departed, departed, departed, registryAt_turn hm]
  cases m.registryAt node with
  | none => rfl
  | some r =>
    simp only [Option.elim_some, Option.map_some, deedsIn, List.append_nil]
    rw [Registry.along_append, List.sum_append]

/-- What leaves all nodes in several turns leaves them in the first or in the others. -/
theorem departedAll_cons (hm : m.Sound) (t : Turn) (turns : List Turn) :
    m.departedAll (t :: turns) = m.departedAll [t] + (m.turn t).departedAll turns := by
  rw [departedAll, departedAll, departedAll, (evolved_turn hm t).ids, ← List.sum_map_add]
  congr 1
  apply List.map_congr_left
  intro node _
  exact departed_cons hm node t turns

/-- The connections that all hosts hold, node by node. -/
theorem heldOn_eq (hm : m.Sound) : heldOn m.hosts =
    ((m.hosts.map (·.self.id)).map fun node => (m.registryAt node).elim 0 Registry.count).sum :=
  sum_registries_eq hm Registry.count

/-- Connections that are missing after a turn have left. -/
theorem heldOn_le_turn (hm : m.Sound) (t : Turn) :
    heldOn m.hosts ≤ heldOn (m.turn t).hosts + m.departedAll [t] := by
  rw [heldOn_eq hm, heldOn_eq (hm.turn t), (evolved_turn hm t).ids, departedAll, ← List.sum_map_add]
  apply List.sum_le_sum
  intro node hnode
  obtain ⟨h, hh, rfl⟩ := List.mem_map.1 hnode
  rw [departed, registryAt_turn hm, registryAt_of_mem hm hh]
  simp only [Option.elim_some, Option.map_some, deedsIn, List.append_nil]
  exact Registry.count_le_run (hm.stored h hh) _

/-! ## Turns and the disconnects they belong to -/

/-- The connections that the turns of a gather closed. -/
def closedIn (id : Nat) : Mesh → List Turn → Nat :=
  overOwn id fun m m' => heldOn m.hosts - heldOn m'.hosts

/-- A turn belongs to one gather at most. -/
theorem isOwn_inj {id' : Nat} (h : m.isOwn id t = true) (h' : m.isOwn id' t = true) : id = id' := by
  cases t with
  | dispatch node inquiry => exact (beq_iff_eq.1 h).symm.trans (beq_iff_eq.1 h')
  | fire order =>
    obtain ⟨u, htimer, hfor⟩ := (Option.any_eq_true ..).1 h
    obtain ⟨u', htimer', hfor'⟩ := (Option.any_eq_true ..).1 h'
    obtain rfl := Option.some.inj (htimer.symm.trans htimer')
    obtain ⟨c, hc, rfl⟩ := Timer.isFor_iff.1 hfor
    obtain ⟨c', hc', rfl⟩ := Timer.isFor_iff.1 hfor'
    rw [Option.some.inj (hc.symm.trans hc')]
  | _ => cases h

/-- What a turn closes is counted for one gather at most. -/
theorem sum_own_le {ids : List Nat} (hids : ids.Nodup) (n : Nat) :
    (ids.map fun id => if m.isOwn id t then n else 0).sum ≤ n := by
  induction ids with
  | nil => exact Nat.zero_le n
  | cons id ids ih =>
    obtain ⟨hnew, hids⟩ := List.nodup_cons.1 hids
    rw [List.map_cons, List.sum_cons]
    cases hown : m.isOwn id t with
    | false => simpa using ih hids
    | true =>
      have hrest : (ids.map fun id' => if m.isOwn id' t then n else 0).sum = 0 := by
        apply List.sum_eq_zero
        intro k hk
        obtain ⟨id', hid', rfl⟩ := List.mem_map.1 hk
        apply if_neg
        intro hown'
        exact hnew (isOwn_inj hown hown' ▸ hid')
      rw [hrest, if_pos rfl, Nat.add_zero]

/-- What different gathers closed has left: by induction on the turns, as each of them belongs to one
gather at most. -/
theorem sum_closedIn_le (hm : m.Sound) {ids : List Nat} (hids : ids.Nodup) (turns : List Turn) :
    (ids.map fun id => closedIn id m turns).sum ≤ m.departedAll turns := by
  induction turns generalizing m with
  | nil =>
    have hnothing : (ids.map fun id => closedIn id m []).sum = 0 := by
      apply List.sum_eq_zero
      intro k hk
      obtain ⟨id, -, rfl⟩ := List.mem_map.1 hk
      rfl
    rw [hnothing]
    exact Nat.zero_le _
  | cons t turns ih =>
    have hturn := heldOn_le_turn hm t
    have hown := sum_own_le (m := m) (t := t) hids (heldOn m.hosts - heldOn (m.turn t).hosts)
    have hrest := ih (hm.turn t)
    simp only [closedIn, overOwn] at hrest ⊢
    rw [List.sum_map_add, departedAll_cons hm]
    omega

theorem overOwn_append (id : Nat) (measure : Mesh → Mesh → Nat) (m : Mesh) (turns turns' : List Turn) :
    overOwn id measure m (turns ++ turns') =
      overOwn id measure m turns + overOwn id measure (m.run turns) turns' := by
  induction turns generalizing m with
  | nil => exact (Nat.zero_add _).symm
  | cons t turns ih =>
    rw [List.cons_append, overOwn, overOwn, ih (m.turn t), Nat.add_assoc]
    rfl

/-! ## What disconnects are told -/

/-- The count that a gather holds. -/
def countOf (m : Mesh) (id : Nat) : Nat :=
  match (m.gather? id).map Gather.value with
  | some (.count n) => n.toNat
  | _ => 0

/-- The gather that a turn opens if it dispatches a disconnect. -/
def disconnectOf (m : Mesh) : Turn → List Nat
  | .dispatch node (.disconnect _) => (m.host? node).toList.map fun _ => m.nextId
  | _ => []

/-- The gathers of the disconnects that are dispatched in several turns. -/
def disconnectsIn : Mesh → List Turn → List Nat
  | _, [] => []
  | m, t :: turns => m.disconnectOf t ++ disconnectsIn (m.turn t) turns

/-- A gather that holds a count counts that. -/
theorem countOf_eq {g : Gather} {n : UInt64} (hg : m.gather? id = some g) (hn : g.value = .count n) :
    m.countOf id = n.toNat := by
  rw [countOf, hg, Option.map_some, hn]

/-- Where there is no gather, nothing is counted. -/
theorem countOf_of_none (hg : m.gather? id = none) : m.countOf id = 0 := by
  rw [countOf, hg]
  rfl

/-- A gather that is over keeps its count. -/
theorem countOf_run_of_isDone (hm : m.Sound) (hid : id < m.nextId) {g : Gather}
    (hg : m.gather? id = some g) (hdone : g.isDone = true) (turns : List Turn) :
    (m.run turns).countOf id = m.countOf id := by
  rw [countOf, countOf, gather?_run_of_isDone hm hid hg hdone, hg]

/-- A ledger says that the count is no more than what has been moved, and it holds until the gather is
cancelled; after that the count stays. -/
theorem Ledger.countOf_run_le {x : Setup} {g : Gather} {answers : List (String × Tally)} {total : Nat}
    (h : Ledger x g answers total m) (hx : x.Effective) (hm : m.Sound) (hid : x.id < m.nextId)
    {turns : List Turn} (hturns : ∀ t ∈ turns, ∀ l, t.brings l → l.Unscripted) :
    (m.run turns).countOf x.id ≤ total + movedIn x.id x.operation m turns := by
  have hnow : ∀ {m : Mesh} {g : Gather} {answers : List (String × Tally)} {total : Nat},
      Ledger x g answers total m → m.countOf x.id ≤ total := by
    intro m g answers total h
    obtain ⟨v, hv, hcovered⟩ := h.value
    rw [countOf_eq h.gather hv]
    have := hcovered.1
    omega
  -- by induction on the turns, with the ledger as invariant
  induction turns generalizing m g answers total with
  | nil => exact Nat.le_add_right_of_le (hnow h)
  | cons t turns ih =>
    obtain ⟨ht, hturns⟩ := List.forall_mem_cons.1 hturns
    have hs : (m.turn t).Sound := hm.turn t
    have hlt : x.id < (m.turn t).nextId := lt_nextId_turn hm hid t
    by_cases hcancel : t = .cancel x.id
    · subst hcancel
      have hafter : (m.turn (.cancel x.id)).gather? x.id = some g.cancel.1 := by
        rw [Mesh.turn, gather?_cancel, if_pos rfl, h.gather]
        rfl
      -- from the cancellation on the ledger is lost, but the count does not move any more
      have hdone : g.cancel.1.isDone = true := by
        rw [Gather.isDone_iff, Gather.phase_cancel]
        split
        · intro hrun
          cases hrun
        · next hrun => exact hrun
      have hsame : (m.turn (.cancel x.id)).countOf x.id = m.countOf x.id := by
        have hvalue : g.cancel.1.value = g.value := by
          unfold Gather.cancel
          split <;> rfl
        rw [countOf, countOf, hafter, h.gather, Option.map_some, Option.map_some, hvalue]
      have hkept := countOf_run_of_isDone hs hlt hafter hdone turns
      have hbefore := hnow h
      show ((m.turn (.cancel x.id)).run turns).countOf x.id ≤ _
      omega
    · obtain ⟨g', answers', hledger, -⟩ := h.turn hx hm hid ⟨hcancel, ht⟩
      have hrest := ih hledger hs hlt hturns
      rw [Nat.add_assoc] at hrest
      exact hrest

/-- A disconnect that is dispatched now is told no more than what its turns close from now on. -/
theorem countOf_dispatch_le (hm : m.Sound) (hlinks : m.LinksAll Link.Unscripted) {node : String}
    {h : Host} (hh : m.host? node = some h) (a : Closing) {turns : List Turn}
    (hturns : ∀ t ∈ turns, ∀ l, t.brings l → l.Unscripted) :
    (m.run (.dispatch node (.disconnect a) :: turns)).countOf m.nextId ≤
      closedIn m.nextId m (.dispatch node (.disconnect a) :: turns) := by
  let inquiry : Inquiry := .disconnect a
  have hdispatch : m.turn (.dispatch node inquiry) = (m.dispatch h inquiry).1 :=
    turn_dispatch hh inquiry
  have hs : (m.dispatch h inquiry).1.Sound := hdispatch ▸ hm.turn _
  have hrun : m.run (.dispatch node inquiry :: turns) = (m.dispatch h inquiry).1.run turns := by
    rw [← hdispatch]
    rfl
  cases hlocal : inquiry.runLocally h.registry with
  | error e =>
    -- the gather of a refused disconnect is over from the start, with a count of zero
    have hgather : (m.dispatch h inquiry).1.gather? m.nextId =
        some (.failed inquiry.kind (.refused e)) := by
      rw [m.dispatch_error h hlocal, gather?_addGather]
      exact if_pos rfl
    have hlt : m.nextId < (m.dispatch h inquiry).1.nextId := by
      rw [m.dispatch_error h hlocal]
      exact Nat.lt_succ_self _
    rw [hrun, countOf_run_of_isDone hs hlt hgather rfl, countOf_eq hgather rfl]
    exact Nat.zero_le _
  | ok result =>
    have hfind := find?_of_host? hh
    have hlt : m.nextId < (m.dispatch h inquiry).1.nextId := by
      obtain ⟨metrics, gathers, hframe⟩ := dispatch_frame hm.hosts hfind hlocal
      rw [hframe]
      show m.nextId < m.nextId + 1 + h.peers.length
      omega
    obtain ⟨g, hledger⟩ := ledger_dispatch hm hfind hlocal rfl hlinks
    have htold := hledger.countOf_run_le (m.effective_setupOf h result.2 rfl) hs hlt hturns
    have hown : m.isOwn m.nextId (.dispatch node inquiry) = true := beq_self_eq_true m.nextId
    rw [hrun, closedIn, overOwn, if_pos hown, hdispatch]
    exact htold

/-- A disconnect is told no more than what its turns closed: by induction on the turns up to its
dispatch. -/
theorem countOf_run_le (hm : m.Sound) (hlinks : m.LinksAll Link.Unscripted) {turns : List Turn}
    (hturns : ∀ t ∈ turns, ∀ l, t.brings l → l.Unscripted) (hid : id ∈ disconnectsIn m turns) :
    (m.run turns).countOf id ≤ closedIn id m turns := by
  induction turns generalizing m with
  | nil => cases hid
  | cons t turns ih =>
    obtain ⟨ht, hrest⟩ := List.forall_mem_cons.1 hturns
    rcases List.mem_append.1 hid with hnow | hlater
    · cases t with
      | dispatch node inquiry =>
        cases inquiry with
        | disconnect a =>
          obtain ⟨h, hh, rfl⟩ := List.mem_map.1 hnow
          exact countOf_dispatch_le hm hlinks (Option.mem_toList.1 hh) a hrest
        | _ => cases hnow
      | _ => cases hnow
    · have hkept := (evolved_turn hm t).linksAll ht unscripted_direct hlinks
      rw [closedIn, overOwn]
      exact Nat.le_add_left_of_le (ih (hm.turn t) hkept hrest hlater)

/-! ## At any moment -/

/-- Whether gathers are kept only under names that have been given out. -/
def Named (m : Mesh) : Prop :=
  ∀ id, m.nextId ≤ id → m.gather? id = none

/-- Changes keep gathers under names that were given out. -/
theorem Evolved.named (hs : Evolved p q m s) (h : m.Named) : s.Named := by
  induction hs with
  | refl => exact h
  | quiet _ hq ih =>
    intro id hid
    rw [gather?_of_work hq.work]
    exact ih id (Nat.le_trans hq.nextId hid)
  | setLinks _ _ _ ih => exact ih
  | note _ _ _ ih => exact ih
  | schedule _ _ _ ih => exact ih
  | filter _ _ _ _ ih => exact ih
  | @onGather s _ id' f _ _ ih =>
    obtain ⟨gathers, notices, heq⟩ := s.onGather_frame id' f
    intro id hid
    have hnone : s.gather? id = none := ih id (by rwa [heq] at hid)
    rw [gather?_onGather]
    split
    · next hsame => rw [← hsame, hnone]; rfl
    · exact hnone
  | @addGather s _ g _ ih =>
    intro id hid
    have hlt : s.nextId < id := hid
    rw [gather?_addGather, if_neg (Nat.ne_of_gt hlt)]
    exact ih id (Nat.le_of_lt hlt)
  | @spawn s _ id' _ _ caller inquiry peer ih =>
    obtain ⟨gathers, heq⟩ := s.spawn_frame id' caller inquiry peer
    intro id hid
    have hlt : s.nextId < id := by rwa [heq] at hid
    have hnone := ih id (Nat.le_of_lt hlt)
    rw [gather?_spawn]
    split
    · next hsame => rw [← hsame, hnone]; rfl
    · exact hnone

/-- A new mesh has no gather. -/
theorem named_create (hosts : List Host) (links : Table String (List Link)) :
    (create hosts links).Named :=
  fun _ _ => rfl

/-- Gathers stay under names that were given out in any run. -/
theorem Named.run (h : m.Named) (hm : m.Sound) (turns : List Turn) : (m.run turns).Named := by
  induction turns generalizing m with
  | nil => exact h
  | cons t turns ih => exact ih ((evolved_turn hm t).named h) (hm.turn t)

/-- A disconnect that is dispatched gets a new name. -/
theorem nextId_le_of_mem (hm : m.Sound) {turns : List Turn} (hid : id ∈ disconnectsIn m turns) :
    m.nextId ≤ id := by
  induction turns generalizing m with
  | nil => cases hid
  | cons t turns ih =>
    rcases List.mem_append.1 hid with hnow | hlater
    · cases t with
      | dispatch node inquiry =>
        cases inquiry with
        | disconnect a =>
          obtain ⟨h, -, rfl⟩ := List.mem_map.1 hnow
          exact Nat.le_refl _
        | _ => cases hnow
      | _ => cases hnow
    · exact Nat.le_trans (evolved_turn hm t).nextId_le (ih (hm.turn t) hlater)

theorem disconnectsIn_append (m : Mesh) (turns turns' : List Turn) :
    disconnectsIn m (turns ++ turns') =
      disconnectsIn m turns ++ disconnectsIn (m.run turns) turns' := by
  induction turns generalizing m with
  | nil => rfl
  | cons t turns ih =>
    rw [List.cons_append, disconnectsIn, disconnectsIn, ih (m.turn t), List.append_assoc]
    rfl

/-- A disconnect is at no moment told more than what its turns close. -/
theorem countOf_take_le (hm : m.Sound) (hnamed : m.Named) (hlinks : m.LinksAll Link.Unscripted)
    {turns : List Turn} (hturns : ∀ t ∈ turns, ∀ l, t.brings l → l.Unscripted)
    (hid : id ∈ disconnectsIn m turns) (moment : Nat) :
    (m.run (turns.take moment)).countOf id ≤ closedIn id m turns := by
  have hsplit := List.take_append_drop moment turns
  have hclosed : closedIn id m (turns.take moment) ≤ closedIn id m turns := by
    conv_rhs => rw [← hsplit, closedIn, overOwn_append]
    exact Nat.le_add_right _ _
  rw [← hsplit, disconnectsIn_append] at hid
  rcases List.mem_append.1 hid with hbefore | hafter
  · have htaken : ∀ t ∈ turns.take moment, ∀ l, t.brings l → l.Unscripted :=
      fun t ht => hturns t (List.mem_of_mem_take ht)
    exact Nat.le_trans (countOf_run_le hm hlinks htaken hbefore) hclosed
  · -- there is no such gather yet
    have hnone := hnamed.run hm _ id (nextId_le_of_mem (hm.run _) hafter)
    rw [countOf_of_none hnone]
    exact Nat.zero_le _

/-- Different disconnects, each looked at when it may be, are together told no more than what has
left. -/
theorem sum_countOf_le (hm : m.Sound) (hnamed : m.Named) (hlinks : m.LinksAll Link.Unscripted)
    {turns : List Turn} (hturns : ∀ t ∈ turns, ∀ l, t.brings l → l.Unscripted) {ids : List Nat}
    (hids : ids.Nodup) (hdisconnects : ids ⊆ disconnectsIn m turns) (moment : Nat → Nat) :
    (ids.map fun id => (m.run (turns.take (moment id))).countOf id).sum ≤ m.departedAll turns := by
  refine Nat.le_trans ?_ (sum_closedIn_le hm hids turns)
  apply List.sum_le_sum
  intro id hid
  exact countOf_take_le hm hnamed hlinks hturns (hdisconnects hid) (moment id)

/-! ## From the start on -/

/-- What is known of the connections of a mesh after any turns from the start on. -/
structure CountedOnce (hosts : List Host) (links : Table String (List Link)) (turns : List Turn) :
    Prop where
  /-- On each node every connection that joined is registered still or left once and was counted
  then. -/
  nodes : ∀ h ∈ hosts, h.registry.Conserved (deedsIn h.self.id (create hosts links) turns)
  /-- That is the story of the registry that the node has in the end. -/
  registries : ∀ h ∈ hosts, ((create hosts links).run turns).registryAt h.self.id =
    some (h.registry.run (deedsIn h.self.id (create hosts links) turns))
  /-- On each node a disconnect closes just what it covers, and answers how many that are. -/
  closes : ∀ node r, ((create hosts links).run turns).registryAt node = some r →
    ∀ a b s output, b = a ∨ b = a.normalized → r.execute (.disconnect b) = .ok (s, output) →
      Registry.Closed a r s (r.reported (.execute (.disconnect b))) ∧
        output = .count (UInt64.ofNat (r.reported (.execute (.disconnect b))))
  /-- If no answers are made up, disconnects of the mesh that overlap are together told no more than
  what left, whenever each is looked at. -/
  overlap : (create hosts links).LinksAll Link.Unscripted →
    (∀ t ∈ turns, ∀ l, t.brings l → l.Unscripted) →
    ∀ ids : List Nat, ids.Nodup → ids ⊆ disconnectsIn (create hosts links) turns →
    ∀ moment : Nat → Nat,
      (ids.map fun id => ((create hosts links).run (turns.take (moment id))).countOf id).sum ≤
        (hosts.map fun h => (h.registry.along Registry.left
          (deedsIn h.self.id (create hosts links) turns)).flatten.length).sum

/-- **Connections are closed and counted once.** Let nodes start without connections, and let anything
happen to them in any order: clients come and go, disconnects are dispatched and run by peers, nodes
sweep and close all. On each node every connection that was registered is so still, or it left in one
action, and each action reported as many as left in it. A disconnect closes just the connections that
it covers. And disconnects that overlap are together told no more than what left the registries, as
long as peers do not make up their answers. -/
theorem countedOnce_run {hosts : List Host} (hids : (hosts.map (·.self.id)).Nodup)
    (hempty : ∀ h ∈ hosts, ∃ limits salt, h.registry = .create h.self.id limits salt)
    (links : Table String (List Link)) (turns : List Turn)
    (hhanded : ∀ h ∈ hosts,
      h.registry.handedOut (deedsIn h.self.id (create hosts links) turns) ≤ 2 ^ 64) :
    CountedOnce hosts links turns := by
  have hm : (create hosts links).Sound := by
    refine sound_create hids (fun h hh => ?_) links
    obtain ⟨limits, salt, heq⟩ := hempty h hh
    rw [heq]
    exact (Registry.aligned_create h.self.id limits salt).toStored
  have hnodes : ∀ h ∈ hosts,
      h.registry.Conserved (deedsIn h.self.id (create hosts links) turns) := by
    intro h hh
    obtain ⟨limits, salt, heq⟩ := hempty h hh
    have hhanded := hhanded h hh
    rw [heq] at hhanded ⊢
    exact Registry.conserved_run h.self.id limits salt _ hhanded
  have hregistries : ∀ h ∈ hosts, ((create hosts links).run turns).registryAt h.self.id =
      some (h.registry.run (deedsIn h.self.id (create hosts links) turns)) := by
    intro h hh
    rw [registryAt_run hm, registryAt_of_mem hm hh]
    rfl
  refine ⟨hnodes, hregistries, ?_, ?_⟩
  · intro node r hr a b s output hb hrun
    -- the node is one of the hosts, so its registry came about from the empty one
    have haligned : r.Aligned := by
      rw [registryAt_run hm] at hr
      obtain ⟨r₀, hr₀, rfl⟩ := Option.map_eq_some_iff.1 hr
      obtain ⟨h, hh, rfl⟩ := Option.map_eq_some_iff.1 hr₀
      have hmem : h ∈ hosts := host?_mem hh
      have hid : h.self.id = node := by simpa using List.find?_some hh
      obtain ⟨limits, salt, heq⟩ := hempty h hmem
      have hhanded := hhanded h hmem
      rw [hid] at hhanded heq
      rw [heq] at hhanded ⊢
      exact Registry.Reachable.aligned ⟨node, limits, salt, _, hhanded, rfl⟩
    exact Registry.closed_execute haligned hb hrun
  · intro hlinks hturns ids hnodup hsub moment
    have hsum := sum_countOf_le hm (named_create hosts links) hlinks hturns hnodup hsub moment
    refine Nat.le_trans hsum (Nat.le_of_eq ?_)
    rw [departedAll, List.map_map]
    congr 1
    apply List.map_congr_left
    intro h hh
    rw [Function.comp_apply, departed, registryAt_of_mem hm hh, Option.elim_some,
      (hnodes h hh).reports, List.length_flatten]

/-- Two nodes with a client of one user each, and a stream of another at the first. Both nodes
disconnect that user at the same time, then the stream is dropped, and what is left is swept and
closed. -/
def farewell : List Turn :=
  [.operate "a" (.register ⟨some "u", none, []⟩ default 1),
    .operate "b" (.register ⟨some "u", none, []⟩ default 1), .openStream "a" ⟨some "v", none, []⟩ default,
    .dispatch "a" (.disconnect (.user "u")), .dispatch "b" (.disconnect (.user "u")), .fire 1, .fire 0,
    .dropStream 0, .operate "b" .sweep, .operate "a" .closeAll]

/-- Disconnects that overlap. -/
theorem countedOnce_run_farewell :
    let hosts := [Host.standard "a" "host:1" [.peer "b" "host:2"],
      .standard "b" "host:2" [.peer "a" "host:1"]]
    (hosts.map (·.self.id)).Nodup ∧
      (∀ h ∈ hosts, ∃ limits salt, h.registry = .create h.self.id limits salt) ∧
      (∀ h ∈ hosts, h.registry.handedOut (deedsIn h.self.id (create hosts ∅) farewell) ≤ 2 ^ 64) ∧
      disconnectsIn (create hosts ∅) farewell = [1, 3] ∧ CountedOnce hosts ∅ farewell := by
  intro hosts
  have hids : (hosts.map (·.self.id)).Nodup := by decide
  have hempty : ∀ h ∈ hosts, ∃ limits salt, h.registry = .create h.self.id limits salt := by
    intro h hh
    refine ⟨.standard, 0, ?_⟩
    simp only [hosts, List.mem_cons, List.not_mem_nil, or_false] at hh
    rcases hh with rfl | rfl <;> rfl
  have hhanded : ∀ h ∈ hosts,
      h.registry.handedOut (deedsIn h.self.id (create hosts ∅) farewell) ≤ 2 ^ 64 := by
    intro h hh
    simp only [hosts, List.mem_cons, List.not_mem_nil, or_false] at hh
    rcases hh with rfl | rfl
    · decide
    · decide
  exact ⟨hids, hempty, hhanded, by decide, countedOnce_run hids hempty ∅ farewell hhanded⟩

end PushMesh.Mesh
