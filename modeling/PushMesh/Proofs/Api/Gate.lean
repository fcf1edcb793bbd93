import PushMesh.Peer.Call
import PushMesh.Proofs.Api.Request
import PushMesh.Proofs.Operation.Wire
import PushMesh.Proofs.Text

/-!
# The gate for calls of peers

Under the path for calls of peers a request comes to one of three things (`ofRequest_rpc`): it is turned
away at the gate, it is let in and turned away behind it, or its operation is run. Whoever does not
present the secret is turned away at the gate (`peerGate_eq_ok_iff`), and whatever is turned away changes
nothing and learns nothing (`Unheeded`): the answer is the same whatever the node holds. An operation
that is run changes the registry of its node and is answered, and no peer is asked for it
(`guarded_rpc`).
-/

namespace PushMesh

open Http (Answer Request Rejection)

/-! ## Presenting the secret -/

/-- Whether a text is made of printable ASCII characters. -/
def IsPrintable (s : String) : Prop :=
  ∀ c ∈ s.toList, ' ' ≤ c ∧ c ≤ '~'

namespace Http.Request

/-- The value of the first header of a name, whatever characters it is made of. -/
def firstValue? (r : Request) (name : String) : Option String :=
  (r.headers.find? fun h => Text.lowered h.1 == name).map (·.2)

/-- Whether a request presents a secret, if there is one. -/
def Presents (r : Request) (secret : Option String) : Prop :=
  ∀ s, secret = some s → r.firstValue? "authorization" = some ("Bearer " ++ s)

/-- A header is read if all of its characters may stand in one. -/
theorem header?_eq (r : Request) (name : String) : r.header? name =
    (r.firstValue? name).filter fun value => value.toList.all isHeaderChar := rfl

/-- Printable characters may stand in a header. -/
theorem isHeaderChar_of_printable {s : String} (hs : IsPrintable s) :
    s.toList.all isHeaderChar = true := by
  apply List.all_eq_true.2
  intro c hc
  simp [isHeaderChar, hs c hc]

/-- The token of a request is what follows the scheme in its first header of that name. -/
theorem bearerToken?_eq_some_iff (r : Request) {s : String} (hs : IsPrintable s) :
    r.bearerToken? = some s ↔ r.firstValue? "authorization" = some ("Bearer " ++ s) := by
  have htext : ("Bearer " ++ s).toList.all isHeaderChar = true := by
    rw [String.toList_append, List.all_append, isHeaderChar_of_printable hs]
    rfl
  simp only [bearerToken?, header?_eq, bind, Option.bind_eq_some_iff, Option.filter_eq_some_iff,
    Text.afterPrefix?_eq_some_iff, pure, Option.some.injEq]
  constructor
  · rintro ⟨value, ⟨hvalue, -⟩, rest, hrest, rfl⟩
    rw [hvalue, Option.some.injEq]
    apply String.toList_inj.1
    rw [hrest, String.toList_append]
    exact congrArg (_ ++ ·) String.toList_ofList.symm
  · intro hvalue
    exact ⟨_, ⟨hvalue, htext⟩, s.toList, String.toList_append, String.ofList_toList⟩

/-- A body that is declared to be JSON and not too long is what its text decodes to. -/
theorem decodeBody_eq_ok_iff {α : Type} (r : Request) {limit : Nat} {reader : Json.Reader α} {a : α} :
    r.decodeBody limit reader = .ok a ↔
      r.isJson = true ∧ r.bodyLength ≤ limit ∧ reader.decode r.body = .ok a := by
  rw [decodeBody]
  cases r.isJson with
  | false => simp
  | true =>
    simp only [Bool.not_true, if_neg Bool.false_ne_true, true_and]
    split
    · next hlong => simp [Nat.not_le.2 hlong]
    · next hshort =>
      rw [and_iff_right (Nat.not_lt.1 hshort)]
      split
      · next hdecode => simp [hdecode]
      · next hdecode => simp [hdecode]
      · next hdecode => simp [hdecode]

end Http.Request

namespace Action

variable {h : Host} {r : Request}

/-- The gate opens for a request that declares no body beyond the limit and presents the secret. -/
theorem peerGate_eq_ok_iff (hsecret : ∀ s, h.secret = some s → IsPrintable s) :
    peerGate h r = .ok () ↔
      (∀ n, r.declaredLength? = some n → n ≤ h.bodyLimit) ∧ r.Presents h.secret := by
  have hdeclared : r.declaredLength?.any (h.bodyLimit < ·) = true ↔
      ¬∀ n, r.declaredLength? = some n → n ≤ h.bodyLimit := by
    simp [Option.any_eq_true]
  rw [peerGate]
  split
  · next hlong => exact ⟨nofun, fun hboth => absurd hboth.1 (hdeclared.1 hlong)⟩
  · next hshort =>
    have hfits : ∀ n, r.declaredLength? = some n → n ≤ h.bodyLimit :=
      Classical.byContradiction fun hlong => hshort (hdeclared.2 hlong)
    rw [and_iff_right hfits, Request.Presents]
    cases hs : h.secret with
    | none => exact ⟨fun _ _ hnone => (nomatch hnone), fun _ => rfl⟩
    | some secret =>
      have htoken := r.bearerToken?_eq_some_iff (hsecret secret hs)
      simp only [Option.some.injEq, forall_eq', ← htoken]
      cases r.bearerToken? with
      | none => simp
      | some token =>
        dsimp only
        split
        · next heq => simp [heq]
        · next hne => simp [hne]

/-- Whoever is turned away at the gate gets an answer that opens no stream. -/
theorem payload_of_peerGate {a : Answer} (ha : peerGate h r = .error a) (id : Nat) :
    a.payload ≠ .events id := by
  rcases peerGate_eq_error ha with rfl | ⟨message, rfl⟩
  · exact nofun
  · exact nofun

/-- What a request for the path of peers' calls asks for. -/
theorem ofRequest_rpc (hpath : r.path = Route.rpcPath) : ofRequest h r =
    if r.method = "OPTIONS" then .error ((Answer.bare 200).allowing Verb.post.allow)
    else if r.method = "POST" then
      match peerGate h r, called h r with
      | .error a, _ => .error a
      | .ok (), .error e => .error (.rejected e)
      | .ok (), .ok op => .ok (.serve op)
    else
      match peerGate h r with
      | .error a => .error (a.allowing Verb.post.allow)
      | .ok () => .error ((Answer.bare 405).allowing Verb.post.allow) := by
  have hroute : Route.ofPath? r.path = some .rpc := by
    rw [hpath]
    decide
  have haccepts : (Route.verb .rpc).accepts r.method = (r.method == "POST") := rfl
  rw [ofRequest, hroute]
  dsimp only
  rw [haccepts]
  split
  · rfl
  · by_cases hpost : r.method = "POST"
    · simp only [hpost, beq_self_eq_true, if_true, gate, ofRoute, refusing]
      cases peerGate h r with
      | error a => rfl
      | ok =>
        cases called h r with
        | error e => rfl
        | ok op => rfl
    · rw [if_neg hpost, if_neg (by simpa using hpost), wrongMethod, gate]
      cases peerGate h r <;> rfl

/-- What a request for that path asks for depends on nothing of the node but its secret and its
limit. -/
theorem ofRequest_rpc_congr (hpath : r.path = Route.rpcPath) {h' : Host}
    (hsecret : h'.secret = h.secret) (hlimit : h'.bodyLimit = h.bodyLimit) :
    ofRequest h' r = ofRequest h r := by
  have hgate : peerGate h' r = peerGate h r := by
    rw [peerGate, peerGate, hsecret, hlimit]
  have hcalled : called h' r = called h r := by
    rw [called, called, hlimit]
  rw [ofRequest_rpc hpath, ofRequest_rpc hpath, hgate, hcalled]

/-- An operation is run for a request that passes the gate and whose body can be read. -/
theorem ofRequest_rpc_cases (hpath : r.path = Route.rpcPath) :
    (∃ op, ofRequest h r = .ok (.serve op) ∧ peerGate h r = .ok () ∧ called h r = .ok op) ∨
      ∃ a, ofRequest h r = .error a ∧ ∀ id, a.payload ≠ .events id := by
  rw [ofRequest_rpc hpath]
  split
  · exact .inr ⟨_, rfl, fun _ => nofun⟩
  · split
    · split
      · next ha => exact .inr ⟨_, rfl, payload_of_peerGate ha⟩
      · exact .inr ⟨_, rfl, fun _ => nofun⟩
      · next op hgate hcalled => exact .inl ⟨op, rfl, hgate, hcalled⟩
    · split
      · next a ha => exact .inr ⟨_, rfl, fun id => (payload_of_peerGate ha id : a.payload ≠ _)⟩
      · exact .inr ⟨_, rfl, fun _ => nofun⟩

/-- The body of a call that is run is within the limit of the node, and is that operation. -/
theorem of_called_eq_ok {op : Operation} (hcalled : called h r = .ok op) :
    r.bodyLength ≤ h.bodyLimit ∧ Operation.reader.decode r.body = .ok op := by
  obtain ⟨-, hshort, hdecode⟩ := r.decodeBody_eq_ok_iff.1 hcalled
  refine ⟨?_, hdecode⟩
  cases hdeclared : r.declaredLength? with
  | none =>
    simp only [hdeclared, Option.map_none, Option.getD_none] at hshort
    omega
  | some n =>
    simp only [hdeclared, Option.map_some, Option.getD_some] at hshort
    omega

/-- A body within all limits that is declared to be JSON is read. -/
theorem called_eq_ok {op : Operation} (hjson : r.isJson = true) (hlimit : r.bodyLength ≤ bodyLimit)
    (hhost : r.bodyLength ≤ h.bodyLimit)
    (hdeclared : ∀ n, r.declaredLength? = some n → r.bodyLength ≤ n)
    (hdecode : Operation.reader.decode r.body = .ok op) : called h r = .ok op := by
  refine r.decodeBody_eq_ok_iff.2 ⟨hjson, ?_, hdecode⟩
  cases hlength : r.declaredLength? with
  | none =>
    simp only [Option.map_none, Option.getD_none]
    omega
  | some n =>
    have := hdeclared n hlength
    simp only [Option.map_some, Option.getD_some]
    omega

end Action

/-! ## What becomes of a request -/

/-- Whether a request changes nothing, and is answered alike by all nodes that have a secret and a limit
in common, whatever their registries and the rest of the mesh are like. -/
def Unheeded (h : Host) (r : Request) : Prop :=
  ∃ answer, ∀ (m : Mesh) (h' : Host) (now : Instant), h'.secret = h.secret →
    h'.bodyLimit = h.bodyLimit → m.respond h' now r = (m, answer)

/-- What becomes of a mesh in which an operation is run for a peer: the registry of one node is another
one, and apart from that only metrics change. No call is made, no timer set and no gather opened. -/
structure Ran (h : Host) (s : Registry) (m m' : Mesh) : Prop where
  hosts : m'.hosts =
    m.hosts.map fun k => if k.self.id == h.self.id then { k with registry := s } else k
  rest : m' = { m with hosts := m'.hosts, metrics := m'.metrics }

variable {h : Host} {r : Request}

/-- Whatever is turned away is unheeded. -/
theorem unheeded_of_error (hpath : r.path = Route.rpcPath)
    (herror : ∀ op, ¬(Action.peerGate h r = .ok () ∧ Action.called h r = .ok op)) :
    Unheeded h r := by
  rcases Action.ofRequest_rpc_cases (h := h) hpath with ⟨op, -, hboth⟩ | ⟨a, ha, hsilent⟩
  · exact absurd hboth (herror op)
  · refine ⟨(if r.method = "HEAD" then a.headOnly else a).shared, fun m h' now hsecret hlimit => ?_⟩
    rw [Mesh.respond, Action.ofRequest_rpc_congr hpath hsecret hlimit, ha]
    dsimp only
    split
    · -- there is no stream to be dropped again
      rw [Mesh.answerHead]
      cases hpayload : a.payload with
      | events id => exact absurd hpayload (hsilent id)
      | empty | text _ | json _ | samples _ => rfl
    · rfl

/-- Serving an operation runs it on the host. -/
theorem ran_serve (m : Mesh) (h : Host) (op : Operation) :
    Ran h (h.registry.respond op).1 m (m.serve h op).1 :=
  ⟨rfl, rfl⟩

/-- What a node does with a request under the path for calls of peers. -/
structure Guarded (h : Host) (r : Request) : Prop where
  /-- Without the secret there is no way in, whatever the method and the body are. -/
  secret : ¬r.Presents h.secret → Unheeded h r
  length : h.bodyLimit < r.bodyLength → Unheeded h r
  form : (∀ op, Operation.reader.decode r.body ≠ .ok op) → Unheeded h r
  /-- A call that is in order is run on the registry of the node and answered with what that gives. The
  length that it declares, if any, is that of its body. -/
  served : ∀ op, r.method = "POST" → r.Presents h.secret → r.isJson = true →
    r.bodyLength ≤ h.bodyLimit → r.bodyLength ≤ Action.bodyLimit →
    (∀ n, r.declaredLength? = some n → n = r.bodyLength) →
    Operation.reader.decode r.body = .ok op →
    ∀ (m : Mesh) (now : Instant),
      (∀ s output, h.registry.execute op = .ok (s, output) →
        Ran h s m (m.respond h now r).1 ∧
          (m.respond h now r).2 = (Answer.json 200 (Response.ok output).toJson).shared) ∧
      ∀ e, h.registry.execute op = .error e →
        Ran h h.registry m (m.respond h now r).1 ∧
          (m.respond h now r).2 = (Answer.json 200 (Response.error e.text).toJson).shared

/-- **Calls of peers are guarded.** Let a node have a secret of printable characters, or none. A request
for the path of peers' calls whose first authorization is not just that secret changes nothing, and its
answer is the same whatever the node holds; so it is with a body that is too long or that is no
operation. A call that presents the secret and is in order has the effect of its operation on the
registry of the node, is answered with what that gives, and leads to no call of another peer. -/
theorem guarded_rpc (h : Host) (r : Request) (hpath : r.path = Route.rpcPath)
    (hsecret : ∀ s, h.secret = some s → IsPrintable s) : Guarded h r where
  secret hmissing := unheeded_of_error hpath fun _ hboth =>
    hmissing ((Action.peerGate_eq_ok_iff hsecret).1 hboth.1).2
  length hlong := unheeded_of_error hpath fun _ hboth =>
    absurd (Action.of_called_eq_ok hboth.2).1 (Nat.not_le.2 hlong)
  form hnone := unheeded_of_error hpath fun op hboth =>
    hnone op (Action.of_called_eq_ok hboth.2).2
  served op hpost hpresents hjson hhost hlimit hdeclared hdecode m now := by
    -- the gate asks for a host and a length as well, and both are in order
    have hgate : Action.peerGate h r = .ok () := by
      refine (Action.peerGate_eq_ok_iff hsecret).2 ⟨fun n hn => ?_, hpresents⟩
      rw [hdeclared n hn]
      exact hhost
    have hcalled : Action.called h r = .ok op :=
      Action.called_eq_ok hjson hlimit hhost (fun n hn => Nat.le_of_eq (hdeclared n hn).symm) hdecode
    have hrespond : m.respond h now r = ((m.serve h op).1, (m.serve h op).2.shared) := by
      have hrequest : Action.ofRequest h r = .ok (.serve op) := by
        rw [Action.ofRequest_rpc hpath, if_neg (by rw [hpost]; decide), if_pos hpost, hgate, hcalled]
      rw [Mesh.respond, hrequest]
      dsimp only
      rw [if_neg (by rw [hpost]; decide)]
      rfl
    -- what is served is run on the host, and what is refused changes nothing
    have hran := ran_serve m h op
    rw [hrespond]
    constructor
    · intro s output hexecute
      have hresponse : h.registry.respond op = (s, .ok output) := by
        rw [Registry.respond, hexecute]
      rw [hresponse] at hran
      refine ⟨hran, ?_⟩
      rw [Mesh.serve, hresponse]
    · intro e hexecute
      have hresponse : h.registry.respond op = (h.registry, .error e.text) := by
        rw [Registry.respond, hexecute]
      rw [hresponse] at hran
      refine ⟨hran, ?_⟩
      rw [Mesh.serve, hresponse]

/-- A peer that closes the connections of a user, and presents a secret. -/
def knock (secret : String) : Request :=
  .ofTarget "POST" Route.rpcPath
    [("Authorization", "Bearer " ++ secret), ("Content-Type", "application/json"),
      ("authorization", "Bearer s3cret")]
    (Peer.body (.disconnect (.user "u")))

/-- The secret of the example is printable. -/
theorem isPrintable_s3cret : IsPrintable "s3cret" := by
  intro c hc
  have hchars : "s3cret".toList = ['s', '3', 'c', 'r', 'e', 't'] := rfl
  simp only [hchars, List.mem_cons, List.not_mem_nil, or_false] at hc
  rcases hc with rfl | rfl | rfl | rfl | rfl | rfl <;> decide

/-- A call with the secret, and one with a part of it in its first header. -/
theorem guarded_rpc_knock :
    let h := { Host.standard "a" "host:1" [] with secret := some "s3cret" }
    (∀ s, h.secret = some s → IsPrintable s) ∧
      (knock "s3cret").path = Route.rpcPath ∧ (knock "s3cret").method = "POST" ∧
      (knock "s3cret").Presents h.secret ∧ (knock "s3cret").isJson = true ∧
      (knock "s3cret").bodyLength ≤ h.bodyLimit ∧ (knock "s3cret").declaredLength? = none ∧
      Operation.reader.decode (knock "s3cret").body = .ok (.disconnect (.user "u")) ∧
      Guarded h (knock "s3cret") ∧
      (knock "s3cre").path = Route.rpcPath ∧ ¬(knock "s3cre").Presents h.secret ∧
      Guarded h (knock "s3cre") := by
  intro h
  have hsecret : ∀ s, h.secret = some s → IsPrintable s := by
    rintro s hs
    obtain rfl := Option.some.inj hs
    exact isPrintable_s3cret
  have hpresents : (knock "s3cret").Presents h.secret := by
    intro s hs
    obtain rfl := Option.some.inj hs
    decide
  have hmissing : ¬(knock "s3cre").Presents h.secret := by
    intro hin
    exact absurd (hin "s3cret" rfl) (by decide)
  have hintegral : (Operation.disconnect (.user "u")).toJson.Integral := Operation.integral_toJson nofun
  have hdecode : Operation.reader.decode (knock "s3cret").body = .ok (.disconnect (.user "u")) :=
    (Operation.reads_disconnect (.user "u")).decode_text hintegral (by decide)
  exact ⟨hsecret, rfl, rfl, hpresents, by decide, by decide, by decide, hdecode,
    guarded_rpc h _ rfl hsecret, rfl, hmissing, guarded_rpc h _ rfl hsecret⟩

end PushMesh
