import PushMesh.Proofs.Mesh.Steps
import PushMesh.Proofs.Mesh.Timers
import PushMesh.Proofs.Registry.Refusal

/-!
# Inquiries that are refused

An inquiry is judged like the operation with the same arguments, though the node that makes it puts
lists in order first (`check_operation`). One that its own registry refuses leaves the mesh as it is,
and no peer is called for it, then or later (`rejected_dispatch`). One that its own registry runs is
refused by none (`accepted_dispatch`).
-/

namespace PushMesh

namespace Inquiry

/-- The operation that has the arguments of an inquiry, as they were given. -/
def asked : Inquiry → Operation
  | query kind key => .query kind key
  | queryAll => .queryAll
  | listKeys kind => .listKeys kind
  | countKeys kind => .listKeys kind
  | send audience m => .send audience m
  | disconnect closing => .disconnect closing
  | count => .count

/-- Every operation is asked by some inquiry. -/
theorem exists_asked_eq (op : Operation) : ∃ inquiry : Inquiry, inquiry.asked = op := by
  cases op with
  | query kind key => exact ⟨query kind key, rfl⟩
  | queryAll => exact ⟨queryAll, rfl⟩
  | listKeys kind => exact ⟨listKeys kind, rfl⟩
  | send audience m => exact ⟨send audience m, rfl⟩
  | disconnect closing => exact ⟨disconnect closing, rfl⟩
  | count => exact ⟨count, rfl⟩

/-- Putting lists in order changes no verdict. -/
theorem check_operation (inquiry : Inquiry) : inquiry.operation.check = inquiry.asked.check := by
  have hsame : ∀ (kind : KeyKind) (ks : List String),
      kind.checkAll (Ascending.ofList ks).toList = kind.checkAll ks := by
    intro kind ks
    apply KeyKind.checkAll_congr
    intro k
    rw [← Ascending.mem_def, Ascending.mem_ofList]
  cases inquiry with
  | send audience m =>
    have haudience : audience.normalized.check = audience.check := by
      cases audience with
      | keys kind ks => exact hsame kind ks
      | _ => rfl
    rw [operation, asked, Operation.check, Operation.check, haudience]
  | disconnect closing => cases closing <;> rfl
  | _ => rfl

end Inquiry

namespace Mesh

variable {m : Mesh} {node : String} {h : Host} {inquiry : Inquiry} {e : Refusal}

/-! ## Inquiries that are refused -/

/-- What a dispatch comes to that its own registry refuses. -/
structure Rejected (m : Mesh) (h : Host) (inquiry : Inquiry) (e : Refusal) : Prop where
  /-- Hosts, links, timers and journal are what they were. -/
  frame : ∃ metrics gathers, (m.dispatch h inquiry).1 =
    { m with metrics, gathers, nextId := m.nextId + 1 }
  /-- The caller is told so, whenever it asks. -/
  outcome : ∀ after, let s := (m.dispatch h inquiry).1.run after
    s.isDone (m.dispatch h inquiry).2 = true ∧
      s.outcome (m.dispatch h inquiry).2 = .error (.refused e)
  /-- No peer is called, and none ever will be. -/
  uncalled : ∀ after, let s := (m.dispatch h inquiry).1.run after
    Silent (m.dispatch h inquiry).2 s ∧ ∀ event ∈ s.journal,
      event.call.gather ≠ (m.dispatch h inquiry).2

/-- A gather that has no timers has none after any turns. -/
theorem Silent.run {id : Nat} (hsilent : Silent id m) (hm : m.Sound) (hid : id < m.nextId)
    (turns : List Turn) : Silent id (m.run turns) := by
  induction turns generalizing m with
  | nil => exact hsilent
  | cons t turns ih =>
    exact ih (silent_turn hsilent hm hid t).1 (hm.turn t) (lt_nextId_turn hm hid t)

/-- A refused dispatch has no calls, and its gather is over from the start. -/
theorem rejected_dispatch (hm : m.Sound) (hh : m.host? node = some h)
    (he : inquiry.runLocally h.registry = .error e) : Rejected m h inquiry e := by
  have hdispatch := m.dispatch_error h he
  have hid : (m.dispatch h inquiry).2 = m.nextId := by
    rw [hdispatch]
    rfl
  have hframe : ∃ metrics gathers, (m.dispatch h inquiry).1 =
      { m with metrics, gathers, nextId := m.nextId + 1 } := by
    rw [hdispatch]
    exact ⟨_, _, rfl⟩
  have hgather : (m.dispatch h inquiry).1.gather? m.nextId =
      some (.failed inquiry.kind (.refused e)) := by
    rw [hdispatch, gather?_addGather]
    exact if_pos rfl
  have hs : (m.dispatch h inquiry).1.Sound := by
    rw [← turn_dispatch hh]
    exact hm.turn _
  obtain ⟨metrics, gathers, heq⟩ := hframe
  have hlt : m.nextId < (m.dispatch h inquiry).1.nextId := by
    rw [heq]
    exact Nat.lt_succ_self _
  have hsilent : Silent m.nextId (m.dispatch h inquiry).1 := by
    intro t ht
    rw [heq] at ht
    apply Bool.eq_false_iff.2
    intro hfor
    -- the timers are those of before, and their gathers have been named before
    obtain ⟨c, hc, hgather⟩ := Timer.isFor_iff.1 hfor
    have := (hm.known t ht c hc).gather_lt
    omega
  constructor
  · exact ⟨metrics, gathers, heq⟩
  · intro after s
    rw [hid, isDone, outcome, gather?_run_of_isDone hs hlt hgather rfl]
    exact ⟨rfl, rfl⟩
  · intro after s
    have hjournal := silent_run hsilent hs hlt after
    rw [hid]
    refine ⟨hsilent.run hs hlt after, ?_⟩
    intro event hevent hsame
    have hold : event ∈ s.journal.filter (CallEvent.isFor m.nextId) :=
      List.mem_filter.2 ⟨hevent, beq_iff_eq.2 hsame⟩
    rw [hjournal, heq] at hold
    have := hm.journal_lt event (List.mem_filter.1 hold).1
    omega

/-! ## Inquiries that are run -/

/-- What a dispatch comes to that its own registry runs: no registry refuses the operation that peers
are asked to run, so none of them answers with an error of its registry. -/
structure Accepted (m : Mesh) (h : Host) (inquiry : Inquiry) : Prop where
  registries : ∀ r : Registry, ∃ s output, r.execute inquiry.operation = .ok (s, output) ∧
    r.respond inquiry.operation = (s, .ok output)
  /-- Whatever happens, calls go on asking for the same. -/
  calls : ∀ after, ∀ t ∈ ((m.dispatch h inquiry).1.run after).timers, ∀ c,
    t.event.call? = some c → c.gather = (m.dispatch h inquiry).2 → c.operation = inquiry.operation
  peers : ∀ (s : Mesh) (c : PeerCall), c.operation = inquiry.operation →
    ∀ text, (s.execute c).2 ≠ .error (.domain text)

/-- The calls of a gather keep their operation in every run. -/
theorem operation_run {id : Nat} {op : Operation} (hm : m.Sound) (hid : id < m.nextId)
    (hcalls : ∀ t ∈ m.timers, ∀ c, t.event.call? = some c → c.gather = id → c.operation = op)
    (turns : List Turn) : ∀ t ∈ (m.run turns).timers, ∀ c,
      t.event.call? = some c → c.gather = id → c.operation = op := by
  induction turns generalizing m with
  | nil => exact hcalls
  | cons t turns ih =>
    apply ih (hm.turn t) (lt_nextId_turn hm hid t)
    intro u hu c hc hgather
    obtain ⟨u', hu', -, hsame⟩ := timers_turn hm hid t hu (Timer.isFor_iff.2 ⟨c, hc, hgather⟩)
    exact hcalls u' hu' c (hsame.trans hc) hgather

/-- A peer that runs what a registry runs does not answer with an error of its registry. -/
theorem execute_ne_domain {c : PeerCall} (hcheck : c.operation.check = .ok ()) (s : Mesh)
    (text : String) : (s.execute c).2 ≠ .error (.domain text) := by
  unfold execute
  cases s.host? c.callee.id with
  | none =>
    intro heq
    cases heq
  | some k =>
    dsimp only
    rw [Registry.execute_eq, hcheck]
    intro heq
    cases heq

/-- An inquiry that succeeds at home is accepted by the mesh. -/
theorem accepted_dispatch (hm : m.Sound) (hh : m.host? node = some h) {r : Registry} {own : Tally}
    (hlocal : inquiry.runLocally h.registry = .ok (r, own)) : Accepted m h inquiry := by
  have hcheck := (Inquiry.runLocally_eq_ok_iff.1 hlocal).1
  have hfind := find?_of_host? hh
  have hs : (m.dispatch h inquiry).1.Sound := by
    rw [← turn_dispatch hh]
    exact hm.turn _
  obtain ⟨g, hkept, -⟩ := kept_dispatch hm hfind hlocal
  obtain ⟨metrics, gathers, heq⟩ := dispatch_frame hm.hosts hfind hlocal
  constructor
  · intro r
    have hexecute : r.execute inquiry.operation = .ok (r.perform inquiry.operation) :=
      Registry.execute_eq_ok_iff.2 ⟨hcheck, rfl⟩
    refine ⟨(r.perform inquiry.operation).1, (r.perform inquiry.operation).2, hexecute, ?_⟩
    rw [Registry.respond, hexecute]
  · intro after
    rw [snd_dispatch hlocal]
    have hlt : m.nextId < (m.dispatch h inquiry).1.nextId := by
      rw [heq]
      show m.nextId < m.nextId + 1 + h.peers.length
      omega
    -- all timers of the gather are those of the dispatch, for one operation
    apply operation_run hs hlt
    intro t ht c hc hgather
    have hx := m.valid_setupOf h inquiry own
    exact hx.operation c (hkept.timers t ht c hc hgather)
  · intro s c hop text
    apply execute_ne_domain
    rwa [hop]

/-- **Refusals are the same everywhere.** A registry refuses an operation just for a blank key or for
a broken message, so all registries refuse the same operations with the same error, and they do it
before they touch anything. Every operation can be asked of a mesh. Where the node that makes the
inquiry would refuse the operation, it tells so its caller and calls no peer, then or later; where it
does not, no peer that runs the operation answers with an error of its registry. -/
theorem refused_alike (op : Operation) :
    op.JudgedAlike ∧ (∃ inquiry : Inquiry, inquiry.asked = op) ∧
      ∀ (m : Mesh) (node : String) (h : Host) (inquiry : Inquiry), m.Reached →
        m.host? node = some h → inquiry.asked = op →
        (∀ e, h.registry.execute op = .error e → Rejected m h inquiry e) ∧
        ((∃ result, h.registry.execute op = .ok result) → Accepted m h inquiry) := by
  refine ⟨op.judgedAlike, Inquiry.exists_asked_eq op, ?_⟩
  rintro m node h inquiry hm hh rfl
  constructor
  · intro e he
    have hcheck := Registry.execute_eq_error_iff.1 he
    rw [← Inquiry.check_operation] at hcheck
    exact rejected_dispatch hm.sound hh (Inquiry.runLocally_eq_error_iff.2 hcheck)
  · rintro ⟨result, hresult⟩
    have hcheck := (Registry.execute_eq_ok_iff.1 hresult).1
    rw [← Inquiry.check_operation] at hcheck
    obtain ⟨t, ht⟩ := inquiry.exists_ofOutput h.registry
    exact accepted_dispatch hm.sound hh (Inquiry.runLocally_eq_ok_iff.2 ⟨hcheck, rfl, ht⟩)

/-- A list whose second key is blank, in a mesh of two nodes, and the same list without it. -/
theorem refused_alike_tabbed :
    let a := Host.standard "a" "host:1" [.peer "b" "host:2"]
    let m := create [a, .standard "b" "host:2" []] ∅
    let message : Message := ⟨some "note", .null, none⟩
    let bad : Inquiry := .send (.keys .tag ["x", "\t", "x"]) message
    let good : Inquiry := .send (.keys .tag ["x", "x"]) message
    m.Reached ∧ m.host? "a" = some a ∧ bad.asked.JudgedAlike ∧
      a.registry.execute bad.asked = .error (.blankKey .tag) ∧ Rejected m a bad (.blankKey .tag) ∧
      (∃ result, a.registry.execute good.asked = .ok result) ∧ Accepted m a good := by
  intro a m message bad good
  have hm : m.Reached := by
    refine .create (by decide) (fun h hh => ⟨.standard, 0, [], ?_⟩) ∅
    simp only [List.mem_cons, List.not_mem_nil, or_false] at hh
    rcases hh with rfl | rfl <;> rfl
  have hh : m.host? "a" = some a := rfl
  have hrefused : a.registry.execute bad.asked = .error (.blankKey .tag) := rfl
  have hrun : ∃ result, a.registry.execute good.asked = .ok result := ⟨_, rfl⟩
  obtain ⟨hjudged, -, hbad⟩ := refused_alike bad.asked
  obtain ⟨-, -, hgood⟩ := refused_alike good.asked
  exact ⟨hm, hh, hjudged, hrefused, (hbad m "a" a bad hm hh rfl).1 _ hrefused, hrun,
    (hgood m "a" a good hm hh rfl).2 hrun⟩

end Mesh

end PushMesh
