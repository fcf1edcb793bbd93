import PushMesh.Proofs.Mesh.Kept

/-!
# The ledger of a dispatch

A send or a disconnect is dispatched to several peers, and each call goes its own way: it may be run
and its answer lost, given up, made once more. `Ledger` is what holds of all these calls at every
moment. Each of them stands where its page says (`Standing`), and the count of the gather, together
with the answers that are on their way, is no more than what the calls have moved so far; it is
exactly that as long as nothing has been lost.

While a timer goes off, its call is in hand: nothing is due for it, and what it carries is told apart
from the other calls. `Open` is the ledger at such a moment. A step opens the ledger (`Ledger.fire`),
passes through making and ending attempts, and closes it again with a timer or with a result.
-/

namespace PushMesh

/-- Whether a link does not make up answers. -/
def Link.Unscripted (l : Link) : Prop :=
  ∀ output, l.fate ≠ .answers output

/-- A direct link is not scripted. -/
theorem unscripted_direct : Link.direct.Unscripted := nofun

/-- The count that an answer on its way carries. -/
def carry : Option Reply → Nat
  | some (.ok (.count n)) => n.toNat
  | _ => 0

/-- The count that is on its way on a page. -/
def Page.carried (p : Page) : Nat :=
  match p.due with
  | [.arrival _ _ _ early] => carry early
  | _ => 0

/-- The calls of a send or of a disconnect. -/
structure Setup.Effective (x : Setup) : Prop extends x.Valid where
  kind_eq : x.kind = .count
  effect : x.operation.isEffect = true

namespace Mesh

/-! ## Where a call stands -/

/-- The results before the attempt at hand: none at the first, and one that was given up at the
second. -/
inductive Past (c : PeerCall) : Bool → List Reply → Prop where
  | first : Past c false []
  | second {e : PeerError} (h : wantsRetry c (.error e) = true) : Past c true [.error e]

/-- Whether a result that is an answer is a count. -/
def Counts (r : Reply) : Prop :=
  ∀ output, r = .ok output → ∃ n, output = .count n

/-- Whether the last result of a call has gone into the gather, as an answer or as a failure. -/
def Decided (g : Gather) (answers : List (String × Tally)) (peer : Node) : Reply → Prop
  | .ok output => ∃ n, output = .count n ∧ (peer.id, Tally.count n) ∈ answers
  | .error e => ⟨peer.id, peer.address, e⟩ ∈ g.failures

/-- Where a call stands by its page. -/
inductive Standing (g : Gather) (answers : List (String × Tally)) (c : PeerCall) : Page → Prop where
  /-- It has still to be made. -/
  | queued (hout : c.callee.id ∈ g.outstanding) : Standing g answers c ⟨[.call c], 0, 0, []⟩
  /-- An attempt is under way. -/
  | trying {isSecond : Bool} {past : List Reply} {link : Link} {early : Option Reply} {ran : Nat}
      (hout : c.callee.id ∈ g.outstanding) (hpast : Past c isSecond past)
      (hlink : link.Unscripted) (hearly : ∀ r, early = some r → Counts r)
      (hran : ran ≤ past.length + if early.isSome then 1 else 0) :
      Standing g answers c ⟨[.arrival c isSecond link early], past.length + 1, ran, past⟩
  /-- It has its last result. -/
  | settled {isSecond : Bool} {past : List Reply} {last : Reply} {ran : Nat}
      (hpast : Past c isSecond past) (hlast : isSecond = true ∨ wantsRetry c last = false)
      (hdecided : Decided g answers c.callee last) (hran : ran ≤ past.length + 1) :
      Standing g answers c ⟨[], past.length + 1, ran, past ++ [last]⟩

/-- Whether a count is covered by what was moved: it is no more, and it is the same word if nothing
was lost. -/
def Covered (x : Setup) (g : Gather) (lost : Bool) (count total : Nat) : Prop :=
  count ≤ total ∧ (x.retries = false → g.failures = [] → lost = false →
    UInt64.ofNat count = UInt64.ofNat total)

/-- What holds of the calls of a dispatch after they moved `total`. -/
structure Ledger (x : Setup) (g : Gather) (answers : List (String × Tally)) (total : Nat)
    (m : Mesh) : Prop extends Kept x g answers m where
  links : m.LinksAll Link.Unscripted
  standing : ∀ c ∈ x.calls, Standing g answers c (m.page x.id c.callee.id)
  value : ∃ v, g.value = .count v ∧ Covered x g false
    (v.toNat + (x.calls.map fun c => (m.page x.id c.callee.id).carried).sum) total

/-- The ledger while one call is in hand and carries something, unless that was lost. -/
structure Open (x : Setup) (g : Gather) (answers : List (String × Tally)) (total : Nat)
    (c : PeerCall) (page : Page) (carried : Nat) (lost : Bool) (m : Mesh) : Prop
    extends Kept x g answers m where
  links : m.LinksAll Link.Unscripted
  mem : c ∈ x.calls
  out : c.callee.id ∈ g.outstanding
  page_eq : m.page x.id c.callee.id = page
  due_eq : page.due = []
  standing : ∀ d ∈ x.others c, Standing g answers d (m.page x.id d.callee.id)
  value : ∃ v, g.value = .count v ∧ Covered x g lost
    (v.toNat + ((x.others c).map fun d => (m.page x.id d.callee.id).carried).sum + carried) total

/-- What a step moves, and how often calls were run for it. -/
structure Pays (x : Setup) (n : Nat) (m m' : Mesh) : Prop where
  moves : x.operation.MovesAll m.hosts m'.hosts n
  /-- A connection gets no more messages from a step than its node ran calls in it. -/
  gain : ∀ node id, gainOn m.hosts m'.hosts node id + (m.page x.id node).ran ≤
    (m'.page x.id node).ran

variable {x : Setup} {g : Gather} {answers : List (String × Tally)} {total carried : Nat}
  {lost : Bool} {c : PeerCall} {p : Page} {m m' s : Mesh}

theorem Pays.trans {k n : Nat} (h : Pays x k m m') (h' : Pays x n m' s) : Pays x (k + n) m s where
  moves := h.moves.trans h'.moves
  gain node id := by
    have hfirst := h.gain node id
    have hsecond := h'.gain node id
    rw [gainOn] at hfirst hsecond ⊢
    omega

/-- Where hosts and pages are what they were, nothing is moved. -/
theorem pays_of_hosts (hhosts : m'.hosts = m.hosts)
    (hpage : ∀ node, (m'.page x.id node).ran = (m.page x.id node).ran) : Pays x 0 m m' where
  moves := by
    rw [hhosts]
    exact x.operation.movesAll_refl m.hosts
  gain node id := by
    rw [hhosts, hpage, gainOn]
    omega

/-! ## A call in hand -/

/-- A count stays covered when as much is moved as is added to it. -/
theorem Covered.mono {count total count' n : Nat} {lost' : Bool}
    (h : Covered x g lost (count + carried) total) (hle : count' ≤ carried + n)
    (heq : x.retries = false → lost' = false →
      lost = false ∧ UInt64.ofNat count' = UInt64.ofNat (carried + n)) :
    Covered x g lost' (count + count') (total + n) := by
  refine ⟨by have := h.1; omega, fun hretries hfailures hlost => ?_⟩
  obtain ⟨hlost', hcount⟩ := heq hretries hlost
  have hbefore := h.2 hretries hfailures hlost'
  rw [UInt64.ofNat_add, hcount, ← UInt64.ofNat_add, ← Nat.add_assoc, UInt64.ofNat_add, hbefore,
    ← UInt64.ofNat_add]

/-- Noting something of the call in hand, with whatever it moves, keeps the ledger open. -/
theorem Open.advance (hx : x.Effective) (h : Open x g answers total c p carried lost m)
    {events : List CallEvent} (hnoted : Noted c events m m')
    (hlinks : m'.LinksAll Link.Unscripted) {n k : Nat} {b : Bool}
    (hle : k ≤ carried + n)
    (heq : x.retries = false → b = false →
      lost = false ∧ UInt64.ofNat k = UInt64.ofNat (carried + n)) :
    Open x g answers (total + n) c (p.add c.callee.id events) k b m' := by
  have hothers : ∀ d ∈ x.others c, m'.page x.id d.callee.id = m.page x.id d.callee.id :=
    fun d hd => hnoted.page_others hx.toValid h.mem hd
  obtain ⟨v, hv, hcovered⟩ := h.value
  refine ⟨hnoted.kept h.mem h.toKept, hlinks, h.mem, h.out, ?_, h.due_eq, ?_, v, hv, ?_⟩
  · rw [hnoted.page hx.toValid h.mem, if_pos rfl, h.page_eq]
  · intro d hd
    rw [hothers d hd]
    exact h.standing d hd
  · rw [List.map_congr_left fun d hd => congrArg Page.carried (hothers d hd)]
    exact hcovered.mono hle heq

/-- What is noted of a call in hand is paid for where its operation is run as often as noted. -/
theorem Noted.pays_serve (hx : x.Effective) (hm : m.Sound) (hc : c ∈ x.calls)
    {events : List CallEvent} (hnoted : Noted c events m m')
    (hhosts : m'.hosts = serveAt c.callee.id c.operation m.hosts)
    (hran : (ranBy m.hosts c).length = events.countP (CallEvent.isRan c.callee.id)) {n : Nat}
    (hmoves : c.operation.MovesAll m.hosts (serveAt c.callee.id c.operation m.hosts) n) :
    Pays x n m m' := by
  refine ⟨by rw [hhosts, ← hx.operation c hc]; exact hmoves, fun node id => ?_⟩
  have hserve := gainOn_serveAt_le_ranBy hm.stored c node id
  rw [hhosts, hnoted.page hx.toValid hc]
  split
  · next hnode =>
    subst hnode
    rw [if_pos rfl, hran] at hserve
    show _ ≤ (m.page x.id c.callee.id).ran + events.countP (CallEvent.isRan c.callee.id)
    omega
  · next hnode =>
    rw [if_neg hnode] at hserve
    omega

/-- What is noted of a call in hand is free where nothing is run. -/
theorem Noted.pays (hx : x.Effective) (hc : c ∈ x.calls) {events : List CallEvent}
    (hnoted : Noted c events m m') (hhosts : m'.hosts = m.hosts)
    (hran : events.countP (CallEvent.isRan c.callee.id) = 0) : Pays x 0 m m' := by
  refine pays_of_hosts hhosts fun node => ?_
  rw [hnoted.page hx.toValid hc]
  split
  · next hnode =>
    subst hnode
    change _ + _ = _
    rw [hran, Nat.add_zero]
  · rfl

/-- All that a call ran is noted as run for its peer. -/
theorem countP_isRan_ranBy (hosts : List Host) (c : PeerCall) :
    (ranBy hosts c).countP (CallEvent.isRan c.callee.id) = (ranBy hosts c).length := by
  unfold ranBy
  split <;> simp [CallEvent.isRan]

/-- What running an operation adds to a page. -/
theorem add_ranBy (p : Page) (hosts : List Host) (c : PeerCall) :
    p.add c.callee.id (ranBy hosts c) = { p with ran := p.ran + (ranBy hosts c).length } := by
  unfold ranBy
  split <;> simp [Page.add, CallEvent.isBegan, CallEvent.isRan, CallEvent.result?]

theorem add_append (p : Page) (node : String) (events events' : List CallEvent) :
    p.add node (events ++ events') = (p.add node events).add node events' := by
  simp [Page.add, Nat.add_assoc]

/-- An attempt that begins is counted on its page. -/
theorem add_began (p : Page) (c : PeerCall) :
    p.add c.callee.id [.began c] = { p with began := p.began + 1 } := by
  simp [Page.add, CallEvent.isBegan, CallEvent.isRan, CallEvent.result?]

/-- A reply is added to the results of its page. -/
theorem add_ended (p : Page) (c : PeerCall) (r : Reply) :
    p.add c.callee.id [.ended c r] = { p with results := p.results ++ [r] } := by
  simp [Page.add, CallEvent.isBegan, CallEvent.isRan, CallEvent.result?]

/-- A reply carries what serving moved, as one word. -/
theorem carry_replyOf {hosts : List Host} {n : Nat}
    (h : replyOf hosts c = .ok (.count (UInt64.ofNat n)) ∨ n = 0 ∧ ∃ e, replyOf hosts c = .error e) :
    Counts (replyOf hosts c) ∧ carry (some (replyOf hosts c)) ≤ n ∧
      UInt64.ofNat (carry (some (replyOf hosts c))) = UInt64.ofNat n := by
  rcases h with hok | ⟨rfl, e, herror⟩
  · rw [hok]
    refine ⟨?_, ?_, ?_⟩
    · rintro output ⟨⟩
      exact ⟨_, rfl⟩
    · rw [carry, UInt64.toNat_ofNat']
      exact Nat.mod_le _ _
    · rw [carry, UInt64.ofNat_toNat]
  · rw [herror]
    exact ⟨by rintro output ⟨⟩, Nat.le_refl _, rfl⟩

/-! ## Gathers that change -/

/-- Where a call stands, while its place in the gather stays. -/
theorem Standing.mono {g' : Gather} {answers' : List (String × Tally)}
    (h : Standing g answers c p) (hout : c.callee.id ∈ g.outstanding → c.callee.id ∈ g'.outstanding)
    (hanswers : answers ⊆ answers') (hfailures : g.failures ⊆ g'.failures) :
    Standing g' answers' c p := by
  cases h with
  | queued h => exact .queued (hout h)
  | trying h hpast hlink hearly hran => exact .trying (hout h) hpast hlink hearly hran
  | @settled isSecond past last ran hpast hlast hdecided hran =>
    refine .settled hpast hlast ?_ hran
    cases last with
    | ok output =>
      obtain ⟨n, hn, hmem⟩ := hdecided
      exact ⟨n, hn, hanswers hmem⟩
    | error e => exact hfailures hdecided

/-- What leaves a gather alone, with its calls, keeps its ledger. -/
theorem Ledger.undisturbed (h : Ledger x g answers total m) (hu : Undisturbed x.id m m')
    (hlinks : m'.LinksAll Link.Unscripted) : ∃ g', Ledger x g' answers total m' := by
  obtain ⟨g', hsame, -, hkept⟩ := h.toKept.undisturbed hu
  have hpage : ∀ node, m'.page x.id node = m.page x.id node := page_congr hu.timers hu.journal
  refine ⟨g', hkept, hlinks, ?_, ?_⟩
  · intro c hc
    rw [hpage]
    exact (h.standing c hc).mono (hsame.outstanding ▸ id) (List.Subset.refl _)
      (hsame.failures ▸ List.Subset.refl _)
  · obtain ⟨v, hv, hle, heq⟩ := h.value
    simp only [hpage]
    exact ⟨v, hsame.value.trans hv, hle, hsame.failures ▸ heq⟩

end Mesh

end PushMesh
