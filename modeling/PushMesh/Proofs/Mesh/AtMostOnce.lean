import PushMesh.Proofs.Mesh.Attempts

/-!
# Calls are made at most once

What a send or a disconnect comes to, whatever the network does to its calls and in whatever order
its timers go off (`atMostOnce_run`). The ledger is opened by the dispatch (`ledger_dispatch`), every
turn keeps it (`Ledger.turn`), and so does a run (`Ledger.run`). In the end every call has its last
result, and what the ledger says of the count is what the caller sees.
-/

namespace PushMesh

/-- A send or a disconnect is folded into a count. -/
theorem Inquiry.kind_eq_count {inquiry : Inquiry} (h : inquiry.operation.isEffect = true) :
    inquiry.kind = .count := by
  cases inquiry with
  | send audience message => rfl
  | disconnect closing => rfl
  | query _ _ | queryAll | listKeys _ | countKeys _ | count => cases h

namespace Mesh

/-! ## The turns of a dispatch -/

/-- The messages that the turns of a gather queued, or the connections that they closed. -/
def movedIn (id : Nat) (op : Operation) : Mesh → List Turn → Nat :=
  overOwn id fun m m' => op.moved m.hosts m'.hosts

/-- The messages that the turns of a gather queued for one connection of a node. -/
def gainedIn (id : Nat) (node : String) (connection : ConnectionId) : Mesh → List Turn → Nat :=
  overOwn id fun m m' => gainOn m.hosts m'.hosts node connection

/-- Whether a turn may happen while a dispatch is under way that is not cancelled. -/
def Turn.Allows (id : Nat) (t : Turn) : Prop :=
  t ≠ .cancel id ∧ ∀ l, t.brings l → l.Unscripted

variable {x : Setup} {g : Gather} {answers : List (String × Tally)} {total : Nat} {m : Mesh}

/-- Every turn keeps the ledger, and what it moves is booked. -/
theorem Ledger.turn (h : Ledger x g answers total m) (hx : x.Effective) (hm : m.Sound)
    (hid : x.id < m.nextId) {t : Turn} (ht : t.Allows x.id) :
    ∃ g' answers',
      Ledger x g' answers' (total + if m.isOwn x.id t then x.operation.moved m.hosts (m.turn t).hosts
        else 0) (m.turn t) ∧
      ∀ node k, (if m.isOwn x.id t then gainOn m.hosts (m.turn t).hosts node k else 0) +
        (m.page x.id node).ran ≤ ((m.turn t).page x.id node).ran := by
  cases hown : m.isOwn x.id t with
  | true =>
    cases t with
    | fire order =>
      rw [isOwn, Option.any_eq_true] at hown
      obtain ⟨t, htimer, hfor⟩ := hown
      have hturn : m.turn (.fire order) = m.fire t := by rw [Mesh.turn, htimer]; rfl
      obtain ⟨n, g', answers', hpays, hledger⟩ := h.fire hx hm (timer?_mem htimer) hfor
      rw [hturn, if_pos rfl, hpays.moves.moved_eq]
      exact ⟨g', answers', hledger, hpays.gain⟩
    | dispatch node inquiry =>
      rw [isOwn, beq_iff_eq] at hown
      exact absurd hid (by rw [hown]; exact Nat.lt_irrefl _)
    | _ => cases hown
  | false =>
    -- what the turn moves is not booked, as it is not a turn of this dispatch
    have htouches : ¬m.touches t x.id := by
      cases t with
      | dispatch node inquiry =>
        exact fun heq : x.id = m.nextId => absurd hid (heq ▸ Nat.lt_irrefl _)
      | fire order => exact fun hfor => Bool.false_ne_true (hown.symm.trans hfor)
      | cancel id => exact fun heq : x.id = id => ht.1 (heq ▸ rfl)
      | _ => exact not_false
    have hu := undisturbed_turn hm hid htouches
    have hlinks := (evolved_turn hm t).linksAll ht.2 unscripted_direct h.links
    obtain ⟨g', hledger⟩ := h.undisturbed hu hlinks
    refine ⟨g', answers, hledger, fun node k => ?_⟩
    refine Nat.le_of_eq ?_
    rw [if_neg Bool.false_ne_true, Nat.zero_add, page_congr hu.timers hu.journal]

/-- What a run keeps and moves: by induction on the turns. -/
theorem Ledger.run (h : Ledger x g answers total m) (hx : x.Effective) (hm : m.Sound)
    (hid : x.id < m.nextId) {turns : List Turn} (hturns : ∀ t ∈ turns, t.Allows x.id) :
    ∃ g' answers', Ledger x g' answers' (total + movedIn x.id x.operation m turns) (m.run turns) ∧
      ∀ node k, gainedIn x.id node k m turns + (m.page x.id node).ran ≤
        ((m.run turns).page x.id node).ran := by
  induction turns generalizing m g answers total with
  | nil =>
    refine ⟨g, answers, h, fun node k => ?_⟩
    rw [gainedIn, overOwn, Nat.zero_add]
    exact Nat.le_refl _
  | cons t turns ih =>
    obtain ⟨ht, hturns⟩ := List.forall_mem_cons.1 hturns
    obtain ⟨g₁, answers₁, hledger, hgain⟩ := h.turn hx hm hid ht
    have hid' : x.id < (m.turn t).nextId := lt_nextId_turn hm hid t
    obtain ⟨g₂, answers₂, hledger', hgain'⟩ := ih hledger (hm.turn t) hid' hturns
    refine ⟨g₂, answers₂, ?_, fun node k => ?_⟩
    · rwa [Nat.add_assoc] at hledger'
    · have hfirst := hgain node k
      have hrest := hgain' node k
      simp only [gainedIn, overOwn] at hrest ⊢
      show _ ≤ (((m.turn t).run turns).page x.id node).ran
      omega

/-! ## The dispatch itself -/

variable {h : Host} {inquiry : Inquiry} {own : Tally}

/-- The calls of a send or of a disconnect are those of an effect. -/
theorem effective_setupOf (m : Mesh) (h : Host) (own : Tally)
    (heffect : inquiry.operation.isEffect = true) : (m.setupOf h inquiry own).Effective :=
  ⟨m.valid_setupOf h inquiry own, Inquiry.kind_eq_count heffect, heffect⟩

/-- The ledger is opened by the dispatch, with what the node moved itself. -/
theorem ledger_dispatch (hm : m.Sound) (hh : m.hosts.find? (·.self.id == h.self.id) = some h)
    {r : Registry} (hlocal : inquiry.runLocally h.registry = .ok (r, own))
    (heffect : inquiry.operation.isEffect = true) (hlinks : m.LinksAll Link.Unscripted) :
    ∃ g, Ledger (m.setupOf h inquiry own) g []
      (inquiry.operation.moved m.hosts (m.dispatch h inquiry).1.hosts) (m.dispatch h inquiry).1 := by
  obtain ⟨metrics, gathers, heq⟩ := dispatch_frame hm.hosts hh hlocal
  obtain ⟨g, hkept, hvalue, -, hout⟩ := kept_dispatch hm hh hlocal
  obtain ⟨hcheck, -, hown⟩ := Inquiry.runLocally_eq_ok_iff.1 hlocal
  obtain ⟨n, hmoves, hanswer⟩ := serveAt_moves_of_find? hm.hosts hm.stored hh heffect hcheck
  have hmoved : inquiry.operation.moved m.hosts (m.dispatch h inquiry).1.hosts = n := by
    rw [heq]
    exact hmoves.moved_eq
  -- the node counts what it moved itself
  have hown : own = .count (UInt64.ofNat n) := by
    rw [Inquiry.kind_eq_count heffect, hanswer] at hown
    exact (Except.ok.inj hown).symm
  have hpage := fun c hc => page_dispatch_of_mem hm hh hlocal (c := c) hc
  rw [hmoved]
  refine ⟨g, hkept, ?_, ?_, ?_⟩
  · rw [heq]
    exact hlinks
  · intro c hc
    show Standing g [] c ((m.dispatch h inquiry).1.page m.nextId c.callee.id)
    rw [hpage c hc]
    exact .queued (hout c hc)
  · have hnothing : ∀ c ∈ m.callsOf h inquiry,
        ((m.dispatch h inquiry).1.page m.nextId c.callee.id).carried = 0 := by
      intro c hc
      rw [hpage c hc]
      rfl
    refine ⟨UInt64.ofNat n, hvalue.trans hown, ?_⟩
    show Covered _ g false (_ + ((m.callsOf h inquiry).map fun c =>
      ((m.dispatch h inquiry).1.page m.nextId c.callee.id).carried).sum) n
    rw [List.map_congr_left hnothing, List.map_const', List.sum_replicate_nat, Nat.mul_zero,
      Nat.add_zero]
    refine ⟨?_, fun _ _ _ => UInt64.ofNat_toNat⟩
    rw [UInt64.toNat_ofNat']
    exact Nat.mod_le _ _

/-! ## The end of a dispatch -/

/-- How the attempts at a peer went: there was one, or there were two and the first was given up. -/
inductive Ended (retries : Bool) (last : Reply) : Page → Prop where
  | once {ran : Nat} (h : retries = false ∨ ∀ e, last = .error e → e.isTimeout = false) :
      Ended retries last ⟨[], 1, ran, [last]⟩
  | twice {ran : Nat} (h : retries = true) {e : PeerError} (he : e.isTimeout = true) :
      Ended retries last ⟨[], 2, ran, [.error e, last]⟩

/-- What a send or a disconnect of a host comes to, where `moved` is the number of messages that it
queued or of connections that it closed, and `gained` how many of the messages went to a connection
of a node. -/
structure AtMostOnce (h : Host) (own : Tally) (id moved : Nat)
    (gained : String → ConnectionId → Nat) (answers : List (String × Tally)) (g : Gather)
    (m : Mesh) : Prop where
  completed : g.phase = .completed
  value : g.value = Tally.mergeAll own (answers.map (·.2))
  /-- Every peer ends with one contribution or with one failure. -/
  places : (answers.map (·.1) ++ g.failures.map (·.nodeId)).Perm (h.peers.map (·.id))
  /-- Which of the two it is depends on the last attempt. -/
  calls : ∀ peer ∈ h.peers, ∃ last,
    Ended h.config.retryOnTimeout last (m.page id peer.id) ∧ Decided g answers peer last
  /-- The host itself ran the operation once before it called its peers. -/
  runs : h.config.retryOnTimeout = false → ∀ node,
    (m.page id node).ran + (if node = h.self.id then 1 else 0) ≤ 1
  messages : h.config.retryOnTimeout = false → ∀ node connection, gained node connection ≤ 1
  count : ∃ n, g.value = .count n ∧ n.toNat ≤ moved ∧
    (h.config.retryOnTimeout = false → g.failures = [] → n = UInt64.ofNat moved)

/-- Where nothing is awaited any more, a call has its last result. -/
theorem Standing.ended {c : PeerCall} {p : Page} (h : Standing g answers c p)
    (hout : c.callee.id ∉ g.outstanding) :
    ∃ last, Ended c.retries last p ∧ Decided g answers c.callee last ∧ p.carried = 0 ∧
      (c.retries = false → p.ran ≤ 1) := by
  cases h with
  | queued hmem => exact absurd hmem hout
  | trying hmem => exact absurd hmem hout
  | @settled isSecond past last ran hpast hlast hdecided hran =>
    refine ⟨last, ?_, hdecided, rfl, ?_⟩
    · -- a call ends with its first attempt or with its second
      cases hpast with
      | first =>
        refine .once ?_
        rcases hlast with hsecond | hlast
        · cases hsecond
        · cases hretries : c.retries with
          | false => exact .inl rfl
          | true =>
            refine .inr fun e he => ?_
            rwa [he, wantsRetry, hretries, Bool.true_and] at hlast
      | second hretry =>
        obtain ⟨hretries, he⟩ := Bool.and_eq_true_iff.1 hretry
        exact .twice hretries he
    · intro hretries
      cases hpast with
      | first => exact hran
      | second hretry =>
        rw [wantsRetry, hretries] at hretry
        cases hretry

/-- A closed ledger says what the dispatch came to. -/
theorem Ledger.atMostOnce (h : Host) (heffect : inquiry.operation.isEffect = true)
    {s : Mesh} {moved : Nat} (hledger : Ledger (m.setupOf h inquiry own) g answers moved s)
    (hdone : g.isDone = true) {gained : String → ConnectionId → Nat}
    (hgained : ∀ node k, gained node k ≤
      (s.page m.nextId node).ran + if node = h.self.id then 1 else 0) :
    AtMostOnce h own m.nextId moved gained answers g s := by
  let x := m.setupOf h inquiry own
  have hx : x.Effective := m.effective_setupOf h own heffect
  obtain ⟨hcompleted, hout⟩ := hledger.toKept.completed hdone
  have hended := fun c hc => (hledger.standing c hc).ended (hout c.callee.id)
  have hretries : ∀ c ∈ m.callsOf h inquiry, c.retries = h.config.retryOnTimeout := hx.retries
  have hpeers := Membership.peersOf_remotePeers h.self h.members
  have hruns : h.config.retryOnTimeout = false → ∀ node,
      (s.page m.nextId node).ran + (if node = h.self.id then 1 else 0) ≤ 1 := by
    intro hretry node
    -- a node is called, or it is the host itself, or it has nothing to do with the dispatch
    by_cases hcalled : ∃ c ∈ m.callsOf h inquiry, c.callee.id = node
    · obtain ⟨c, hc, rfl⟩ := hcalled
      obtain ⟨last, -, -, -, hran⟩ := hended c hc
      rw [if_neg (hpeers.other _ (callee_mem_peers hc)).2.1, Nat.add_zero]
      exact hran ((hretries c hc).trans hretry)
    · push Not at hcalled
      have hnone : (s.page m.nextId node).ran = 0 := hledger.ran_eq_zero hcalled
      rw [hnone]
      split <;> omega
  refine ⟨hcompleted, ?_, ?_, ?_, hruns, ?_, ?_⟩
  · rw [hledger.accounts.value, Tally.mergeAll, List.foldl_map]
    rfl
  · have hplaces := hledger.accounts.places
    have hempty : g.outstanding.toList = [] :=
      List.eq_nil_iff_forall_not_mem.2 hout
    rw [hledger.accounts.responded, hempty, List.append_nil, List.cons_append,
      List.perm_cons] at hplaces
    exact hplaces.trans (Ascending.perm_ofList hpeers.ids)
  · intro peer hpeer
    rw [← m.callee_callsOf h inquiry] at hpeer
    obtain ⟨c, hc, rfl⟩ := List.mem_map.1 hpeer
    obtain ⟨last, hlast, hdecided, -⟩ := hended c hc
    rw [hretries c hc] at hlast
    exact ⟨last, hlast, hdecided⟩
  · intro hretry node k
    exact Nat.le_trans (hgained node k) (hruns hretry node)
  · obtain ⟨v, hv, hle, heq⟩ := hledger.value
    -- no call carries anything any more, so the count stands for itself
    have hcarried : (x.calls.map fun c => (s.page x.id c.callee.id).carried).sum = 0 := by
      have hnothing : ∀ c ∈ x.calls, (s.page x.id c.callee.id).carried = 0 := by
        intro c hc
        obtain ⟨last, -, -, hcarried, -⟩ := hended c hc
        exact hcarried
      rw [List.map_congr_left hnothing, List.map_const', List.sum_replicate_nat, Nat.mul_zero]
    rw [hcarried, Nat.add_zero] at hle heq
    refine ⟨v, hv, hle, fun hretry hfailures => ?_⟩
    rw [← heq hretry hfailures rfl, UInt64.ofNat_toNat]

/-- **Calls at most once, and no counting twice.** In a mesh with any past, let a host dispatch a
send or a disconnect that it accepts, and let links lose, delay and fail calls and run operations
early or late, but not make up answers. Let anything happen afterwards, timers going off in any
order, but let the dispatch not be cancelled. Once it is done, every peer was called once, or twice
if a first attempt that timed out is to be repeated, and its last attempt alone decided between one
contribution and one failure. Without repetitions no node ran the operation twice, and no connection
got the message twice. The count is at most what the dispatch moved on all hosts, and as a word it is
just that if nothing was repeated and nobody failed. -/
theorem atMostOnce_run (hm : m.Reached) {node : String} (hh : m.host? node = some h)
    (heffect : inquiry.operation.isEffect = true) {r : Registry}
    (hlocal : inquiry.runLocally h.registry = .ok (r, own))
    (hlinks : m.LinksAll Link.Unscripted) {after : List Turn} :
    let id := (m.dispatch h inquiry).2
    let turns := .dispatch node inquiry :: after
    (∀ t ∈ after, t.Allows id) → (m.run turns).isDone id = true →
      ∃ g answers, (m.run turns).gather? id = some g ∧
        AtMostOnce h own id (movedIn id inquiry.operation m turns)
          (fun node k => gainedIn id node k m turns) answers g (m.run turns) := by
  intro id turns hafter hdone
  have hm : m.Sound := hm.sound
  have hid : id = m.nextId := snd_dispatch hlocal
  have hnode : h.self.id = node := by simpa using List.find?_some hh
  have hfind : m.hosts.find? (·.self.id == h.self.id) = some h := by
    rw [hnode]
    exact hh
  have hdispatch : m.turn (.dispatch node inquiry) = (m.dispatch h inquiry).1 :=
    turn_dispatch hh inquiry
  have hown : m.isOwn m.nextId (.dispatch node inquiry) = true := beq_self_eq_true m.nextId
  obtain ⟨g₀, hopened⟩ := ledger_dispatch hm hfind hlocal heffect hlinks
  obtain ⟨metrics, gathers, hframe⟩ := dispatch_frame hm.hosts hfind hlocal
  have hlt : m.nextId < (m.dispatch h inquiry).1.nextId := by
    rw [hframe]
    show m.nextId < m.nextId + 1 + h.peers.length
    omega
  have hsound : (m.dispatch h inquiry).1.Sound := by
    rw [← hdispatch]
    exact hm.turn _
  rw [hid] at hafter hdone ⊢
  obtain ⟨g, answers, hledger, hgained⟩ :=
    hopened.run (m.effective_setupOf h own heffect) hsound hlt hafter
  have hrun : m.run turns = ((m.dispatch h inquiry).1).run after := by
    rw [← hdispatch]
    rfl
  have hmoved : movedIn m.nextId inquiry.operation m turns =
      inquiry.operation.moved m.hosts (m.dispatch h inquiry).1.hosts +
        movedIn m.nextId inquiry.operation (m.dispatch h inquiry).1 after := by
    rw [← hdispatch]
    simp only [movedIn, turns, overOwn, hown, if_true]
  rw [hrun] at hdone ⊢
  rw [hmoved]
  have hgdone : g.isDone = true := by
    have hg : ((m.dispatch h inquiry).1.run after).gather? m.nextId = some g := hledger.gather
    rwa [isDone, hg] at hdone
  refine ⟨g, answers, hledger.gather, hledger.atMostOnce h heffect hgdone fun k c => ?_⟩
  have hrest := hgained k c
  have hfirst := gainOn_serveAt_le hm.stored h.self.id inquiry.operation k c
  -- what a connection gained comes from the host itself and from the calls after it
  have hgain : gainedIn m.nextId k c m turns =
      gainOn m.hosts (serveAt h.self.id inquiry.operation m.hosts) k c +
        gainedIn m.nextId k c (m.dispatch h inquiry).1 after := by
    have hhosts : (m.dispatch h inquiry).1.hosts = serveAt h.self.id inquiry.operation m.hosts := by
      rw [hframe]
    rw [← hhosts, ← hdispatch]
    simp only [gainedIn, turns, overOwn, hown, if_true]
  rw [hgain]
  have hid' : (m.setupOf h inquiry own).id = m.nextId := rfl
  rw [hid'] at hrest
  omega

/-- A client comes to `b`, and the first call to `b` is run at once while its answer takes too
long. -/
def lossy : List Turn :=
  [.operate "b" (.register ⟨some "u", none, []⟩ default 8),
    .setLinks "b" [⟨9000, .runs, true⟩, .direct]]

/-- A message that is sent twice, because the first answer is lost, and counted once. -/
theorem atMostOnce_run_lossy :
    let a := { Host.standard "a" "host:1" [.peer "b" "host:2"] with config := ⟨5000, true, true⟩ }
    let m := (create [a, .standard "b" "host:2" []] ∅).run lossy
    let inquiry : Inquiry := .send .all ⟨none, .null, none⟩
    let turns : List Turn := [.dispatch "a" inquiry, .fire 0, .fire 1]
    m.Reached ∧ m.host? "a" = some a ∧ inquiry.operation.isEffect = true ∧
      inquiry.runLocally a.registry = .ok (a.registry, .count 0) ∧ m.LinksAll Link.Unscripted ∧
      (∀ t ∈ turns.tail, t.Allows (m.dispatch a inquiry).2) ∧
      (m.run turns).isDone (m.dispatch a inquiry).2 = true ∧
      ∃ g answers, (m.run turns).gather? (m.dispatch a inquiry).2 = some g ∧
        AtMostOnce a (.count 0) (m.dispatch a inquiry).2
          (movedIn (m.dispatch a inquiry).2 inquiry.operation m turns)
          (fun node k => gainedIn (m.dispatch a inquiry).2 node k m turns) answers g
          (m.run turns) := by
  intro a m inquiry turns
  have hstart : (create [a, .standard "b" "host:2" []] ∅).Reached := by
    refine .create (by decide) (fun h hh => ⟨.standard, 0, [], ?_⟩) ∅
    simp only [List.mem_cons, List.not_mem_nil, or_false] at hh
    rcases hh with rfl | rfl <;> rfl
  have hm : m.Reached := hstart.run lossy
  have hh : m.host? "a" = some a := rfl
  have hlocal : inquiry.runLocally a.registry = .ok (a.registry, .count 0) := rfl
  -- the links are set up to lose answers, and none of them makes one up
  have hlinks : m.LinksAll Link.Unscripted := by
    refine (linksAll_empty _ unscripted_direct).run hstart.sound unscripted_direct ?_
    simp [lossy, Turn.brings, Link.Unscripted, Link.direct]
  have hafter : ∀ t ∈ turns.tail, t.Allows (m.dispatch a inquiry).2 := by
    simp [turns, Turn.Allows, Turn.brings]
  have hdone : (m.run turns).isDone (m.dispatch a inquiry).2 = true := by decide
  exact ⟨hm, hh, rfl, hlocal, hlinks, hafter, hdone,
    atMostOnce_run hm hh rfl hlocal hlinks hafter hdone⟩

end Mesh

end PushMesh
