import PushMesh.Proofs.Mesh.Deeds
import PushMesh.Proofs.Mesh.Refused
import PushMesh.Proofs.Registry.Effect

/-!
# A node does for itself what it does for a peer

An inquiry is written down twice: as what the node that makes it runs on its own registry
(`Inquiry.runLocally`), and as the operation that it sends, of which every peer folds the output
(`Inquiry.operation`, `Inquiry.kind`). The two agree on every registry, and so it makes no difference to
a node whether it makes an inquiry or is asked for it (`agrees_everywhere`).
-/

namespace PushMesh

namespace Inquiry

/-! ## The arguments as they were given -/

/-- Putting keys in order reaches the same connections. -/
theorem audience_normalized (r : Registry) (a : Audience) :
    r.audience a.normalized = r.audience a := by
  cases a with
  | keys kind ks =>
    apply r.audience_keys_congr kind
    intro k
    rw [← Ascending.mem_def, Ascending.mem_ofList]
  | key _ _ | connection _ | all => rfl

/-- Putting ids in order closes the same connections. -/
theorem closing_normalized (r : Registry) (c : Closing) : r.closing c.normalized = r.closing c := by
  cases c with
  | connections ids =>
    apply Ascending.ext_mem
    intro id
    rw [Closing.normalized, Registry.closing, Registry.closing, Ascending.mem_ofList,
      ← Ascending.mem_def]
  | user _ | token _ | connection _ => rfl

/-- What is sent to peers does what the arguments do as they were given. -/
theorem perform_operation (inquiry : Inquiry) (r : Registry) :
    r.perform inquiry.operation = r.perform inquiry.asked := by
  cases inquiry with
  | send audience m => rw [operation, asked, Registry.perform, Registry.perform, audience_normalized]
  | disconnect closing =>
    rw [operation, asked, Registry.perform, Registry.perform, closing_normalized]
  | query _ _ | queryAll | listKeys _ | countKeys _ | count => rfl

/-! ## On one registry -/

/-- What a node makes of an inquiry for itself is what it makes of the operation for a peer. -/
structure Agrees (inquiry : Inquiry) (r : Registry) : Prop where
  /-- Both are refused, for the same reason. -/
  refused : ∀ e, inquiry.runLocally r = .error e ↔ r.execute inquiry.operation = .error e
  /-- What is refused is refused before anything is changed in place. -/
  untouched : ∀ e, inquiry.runLocally r = .error e → inquiry.operation.serve.on r = (.error e, r)
  /-- Both are run: they leave the same registry, and the answer for the peer comes to the same tally. -/
  runs : ∀ s t, inquiry.runLocally r = .ok (s, t) ↔
    ∃ output, r.execute inquiry.operation = .ok (s, output) ∧
      Tally.ofOutput inquiry.kind output = .ok t
  /-- The answer for a peer is never of the wrong kind. -/
  folds : ∀ s output, r.execute inquiry.operation = .ok (s, output) →
    ∃ t, Tally.ofOutput inquiry.kind output = .ok t ∧ t.kind = inquiry.kind
  /-- It does not matter that lists are put in order first. -/
  ordered : r.execute inquiry.operation = r.execute inquiry.asked

/-- An inquiry and the operation that it asks of peers agree in any registry. -/
theorem agrees (inquiry : Inquiry) (r : Registry) : inquiry.Agrees r where
  refused e := by
    rw [runLocally_eq_error_iff, Registry.execute_eq_error_iff]
  untouched e he := by
    have hexecute : r.execute inquiry.operation = .error e := by
      rw [Registry.execute_eq_error_iff]
      exact runLocally_eq_error_iff.1 he
    exact inquiry.operation.judgedAlike.untouched r e hexecute
  runs s t := by
    rw [runLocally_eq_ok_iff]
    constructor
    · rintro ⟨hcheck, rfl, ht⟩
      exact ⟨_, Registry.execute_eq_ok_iff.2 ⟨hcheck, rfl⟩, ht⟩
    · rintro ⟨output, hexecute, ht⟩
      obtain ⟨hcheck, hperform⟩ := Registry.execute_eq_ok_iff.1 hexecute
      rw [hperform]
      exact ⟨hcheck, rfl, ht⟩
  folds s output hexecute := by
    obtain ⟨t, ht⟩ := inquiry.exists_ofOutput r
    rw [(Registry.execute_eq_ok_iff.1 hexecute).2] at ht
    exact ⟨t, ht, Tally.kind_ofOutput ht⟩
  ordered := by
    rw [Registry.execute_eq, Registry.execute_eq, check_operation, perform_operation]

end Inquiry

namespace Mesh

variable {m : Mesh} {h : Host} {inquiry : Inquiry} {c : PeerCall}

/-! ## In a mesh -/

/-- What a call comes to that a peer makes for an inquiry, beside the inquiry itself. -/
structure Matches (m : Mesh) (h : Host) (inquiry : Inquiry) (c : PeerCall) : Prop where
  /-- The registries are left alike. -/
  registry : ∀ node, (m.dispatch h inquiry).1.registryAt node = (m.execute c).1.registryAt node
  /-- The caller gets what the node would have started with. -/
  answer : (m.execute c).2.bind (Tally.ofOutput c.kind) =
    match inquiry.runLocally h.registry with
    | .ok (_, own) => .ok own
    | .error e => .error (.domain e.text)

/-- A call that is executed at a peer matches the inquiry there. -/
theorem matches_execute (hm : m.Sound) (hh : m.host? c.callee.id = some h)
    (hop : c.operation = inquiry.operation) (hkind : c.kind = inquiry.kind) :
    Matches m h inquiry c := by
  obtain ⟨metrics, hexecute⟩ := execute_eq hm.hosts c
  constructor
  · intro node
    have hhosts : (m.execute c).1.hosts = serveAt c.callee.id inquiry.operation m.hosts := by
      rw [hexecute, hop]
    rw [registryAt_dispatch hm hh, registryAt_of_serveAt hhosts]
  · have hreply : (m.execute c).2 = replyOf m.hosts c := by rw [hexecute]
    have hfind : m.hosts.find? (·.self.id == c.callee.id) = some h := hh
    rw [hreply, replyOf, hfind, hop, hkind]
    cases hlocal : inquiry.runLocally h.registry with
    | error e =>
      rw [Inquiry.runLocally_eq_error_iff.1 hlocal]
      rfl
    | ok result =>
      obtain ⟨hcheck, -, ht⟩ := Inquiry.runLocally_eq_ok_iff.1 hlocal
      rw [hcheck]
      exact ht

/-- **A node does for itself what it does for a peer.** On every registry, an inquiry and the operation
that is sent for it are refused for the same reason, or both are run; then they leave the same registry,
and the answer comes to the tally that the node itself starts with, so it is never of the wrong kind.
That lists are put in order first makes no difference. In every mesh, a node that makes an inquiry
is left as if it had been called for it. -/
theorem agrees_everywhere (inquiry : Inquiry) :
    (∀ r, inquiry.Agrees r) ∧ ∀ (m : Mesh) (h : Host) (c : PeerCall), m.Reached →
      m.host? c.callee.id = some h → c.operation = inquiry.operation → c.kind = inquiry.kind →
      Matches m h inquiry c :=
  ⟨inquiry.agrees, fun _ _ _ hm hh hop hkind => matches_execute hm.sound hh hop hkind⟩

/-- A send to a list of tags, made by a node with one connection and asked of it. -/
theorem agrees_everywhere_tagged :
    let a := Host.standard "a" "host:1" [.peer "b" "host:2"]
    let m := (create [a, .standard "b" "host:2" []] ∅).run
      [.openStream "a" ⟨none, none, ["x"]⟩ default]
    let inquiry : Inquiry := .send (.keys .tag ["y", "x", "y"]) ⟨some "note", .null, none⟩
    let c : PeerCall := ⟨0, 0, "b", .peer "a" "host:1", inquiry.operation, inquiry.kind, 100, false⟩
    ∃ h, m.Reached ∧ m.host? "a" = some h ∧ inquiry.Agrees h.registry ∧ Matches m h inquiry c ∧
      (m.execute c).2 = .ok (.count 1) := by
  intro a m inquiry c
  have hm : m.Reached := by
    refine Reached.run (.create (by decide) (fun h hh => ⟨.standard, 0, [], ?_⟩) ∅) _
    simp only [List.mem_cons, List.not_mem_nil, or_false] at hh
    rcases hh with rfl | rfl <;> rfl
  obtain ⟨hagrees, hmatches⟩ := agrees_everywhere inquiry
  exact ⟨_, hm, rfl, hagrees _, hmatches m _ c hm rfl rfl rfl, rfl⟩

end Mesh

end PushMesh
