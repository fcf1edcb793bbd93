import PushMesh.Proofs.Api.Gate
import PushMesh.Proofs.Operation.Envelope

/-!
# What a node accepts for its peers

A message that a client posts reaches the peers of its node in another envelope. In the request of the
client its data stand in one container, or in two beside a list of keys (`Action.ofRequest_send`); in the
call of a peer they stand in three. What a peer makes of a call depends on the body alone
(`Action.ofRequest_call`), so it runs the operation just if the body is short enough and the data leave
room for the third container (`Action.relayed_send`). At the limit a node accepts what no peer does
(`Action.not_relayed_abyss`).
-/

namespace PushMesh

open Http (Answer Request Rejection)

/-! ## What clients may send -/

/-- How deep the data of a message to an audience may be nested in a request of a client. -/
def Audience.depthLimit : Audience → Nat
  | keys _ _ => Json.greatestDepth - 2
  | _ => Json.greatestDepth - 1

namespace Action

/-- A selection reads no send. -/
theorem selection_ne_send (form : Http.Form) (a : Audience) (m : Message) :
    selection form ≠ .ok (.send a m) := by
  rw [selection]
  split <;> exact nofun

/-- A reader of keys and a message gives data in order, no deeper than what two containers leave. -/
theorem yields_keysReader (kind : KeyKind) (d : Nat) :
    Json.Reader.Yields (keysReader kind) (d + 2) fun p => p.2.data.Sorted ∧ p.2.data.depth ≤ d := by
  refine Json.Reader.yields_record ?_ ⟨.null, Nat.zero_le d⟩
  intro f hf
  simp only [List.mem_cons, List.not_mem_nil, or_false] at hf
  rcases hf with rfl | rfl
  · exact (Json.Reader.yields_any _ _).map fun _ _ _ hp => hp
  · exact (Message.yields_reader d).map fun _ hm _ _ => hm

/-- The message of a client's request is read from its body. -/
theorem ofRoute_send {h : Host} {r : Request} {route : Route} {a : Audience} {m : Message}
    {t : Option UInt64} (hr : ofRoute h r route = .ok (.inquire (.send a m) t)) :
    (∃ kind keys, a = .keys kind keys ∧ body r (keysReader kind) = .ok (keys, m)) ∨
      a.depthLimit = Json.greatestDepth - 1 ∧ body r Message.reader = .ok m := by
  cases route <;> simp only [ofRoute, bind_eq_ok_iff, refusing_eq_ok_iff, pure, Except.pure,
    Except.ok.injEq, reduceCtorEq, and_false, exists_false, inquire.injEq, Inquiry.send.injEq,
    false_and, Inquiry.connectionCount, Inquiry.disconnectByUserId, Inquiry.disconnectByAccessToken,
    Inquiry.disconnectByConnectionId, Inquiry.disconnectByConnectionIds, Inquiry.sendByConnectionId,
    Inquiry.sendAll] at hr
  case connections =>
    obtain ⟨form, -, _, -, inquiry, hselection, rfl, -⟩ := hr
    exact absurd hselection (selection_ne_send form a m)
  case sendKeys kind =>
    obtain ⟨_, -, ⟨keys, m'⟩, hbody, _, -, ⟨rfl, rfl⟩, -⟩ := hr
    exact .inl ⟨kind, keys, rfl, hbody⟩
  case sendKey kind _ =>
    obtain ⟨key, -, _, -, m', hbody, ⟨rfl, rfl⟩, -⟩ := hr
    exact .inr ⟨rfl, hbody⟩
  case sendConnection =>
    obtain ⟨id, -, _, -, m', hbody, ⟨rfl, rfl⟩, -⟩ := hr
    exact .inr ⟨rfl, hbody⟩
  case sendAll =>
    obtain ⟨_, -, m', hbody, ⟨rfl, rfl⟩, -⟩ := hr
    exact .inr ⟨rfl, hbody⟩

/-- **What a client may send** has data in order, nested no deeper than the envelope leaves room. -/
theorem ofRequest_send {h : Host} {r : Request} {a : Audience} {m : Message} {t : Option UInt64}
    (hr : ofRequest h r = .ok (.inquire (.send a m) t)) :
    m.data.Sorted ∧ m.data.depth ≤ a.depthLimit := by
  obtain ⟨route, hroute⟩ := exists_route_of_ofRequest hr
  rcases ofRoute_send hroute with ⟨kind, keys, rfl, hbody⟩ | ⟨hlimit, hbody⟩
  · obtain ⟨-, -, hdecode⟩ := r.decodeBody_eq_ok_iff.1 hbody
    exact (yields_keysReader kind _).of_decode hdecode
  · obtain ⟨-, -, hdecode⟩ := r.decodeBody_eq_ok_iff.1 hbody
    rw [hlimit]
    exact (Message.yields_reader _).of_decode hdecode

end Action

/-! ## What peers receive -/

namespace Peer

variable (secret : Option String) (trace : Option Trace.Context) (op : Operation)

/-- A peer call says that its body is JSON. -/
theorem firstValue?_contentType :
    (request secret trace op).firstValue? "content-type" = some "application/json" := by
  cases secret <;>
    simp +decide [Request.firstValue?, request, Request.ofTarget, headers, authorization]

/-- A peer call says how long its body is. -/
theorem firstValue?_contentLength : (request secret trace op).firstValue? "content-length" =
    some (toString (body op).utf8ByteSize) := by
  cases secret <;>
    simp +decide [Request.firstValue?, request, Request.ofTarget, headers, authorization]

/-- A call presents the secret that it is made with. -/
theorem presents_request : (request secret trace op).Presents secret := by
  rintro s rfl
  simp +decide [Request.firstValue?, request, Request.ofTarget, headers, authorization]

/-- The body of a peer call is taken as JSON. -/
theorem isJson_request : (request secret trace op).isJson = true := by
  rw [Request.isJson, Request.header?_eq, firstValue?_contentType]
  decide

/-- The length that a call declares, if it can be read, is that of its body. -/
theorem declaredLength?_request {n : Nat}
    (h : (request secret trace op).declaredLength? = some n) : n = (body op).utf8ByteSize := by
  simp only [Request.declaredLength?, Request.header?_eq, firstValue?_contentLength, bind,
    Option.bind_eq_some_iff, Option.filter_eq_some_iff, pure, Option.some.injEq] at h
  obtain ⟨_, ⟨rfl, -⟩, w, hw, rfl⟩ := h
  exact Number.toNat_of_word?_toString hw

end Peer

namespace Action

variable {peer : Host} {r : Request}

/-- A request that presents the secret is kept out only by the length that it declares. -/
theorem peerGate_of_presents (hsecret : ∀ s, peer.secret = some s → IsPrintable s)
    (hpresents : r.Presents peer.secret) : peerGate peer r =
      if r.declaredLength?.any (peer.bodyLimit < ·) then .error (.rejected .bodyLength)
      else .ok () := by
  split
  · next hlong => rw [peerGate, if_pos hlong]
  · next hshort =>
    refine (peerGate_eq_ok_iff hsecret).2 ⟨fun n hn => ?_, hpresents⟩
    rw [hn, Option.any_some, decide_eq_true_eq] at hshort
    exact Nat.not_lt.1 hshort

/-- What the body of a call is read as, if the length that it declares is that of the body. -/
theorem called_eq (peer : Host) (hjson : r.isJson = true)
    (hdeclared : ∀ n, r.declaredLength? = some n → n = r.bodyLength) : called peer r =
      if min bodyLimit peer.bodyLimit < r.bodyLength then .error .bodyLength
      else
        match Operation.reader.decode r.body with
        | .ok op => .ok op
        | .error .malformed => .error .bodyForm
        | .error .mismatch => .error .bodyShape := by
  have hlimit : (r.declaredLength?.map (min (min bodyLimit peer.bodyLimit))).getD
        (min bodyLimit peer.bodyLimit) < r.bodyLength ↔
      min bodyLimit peer.bodyLimit < r.bodyLength := by
    cases hlength : r.declaredLength? with
    | none => rfl
    | some n =>
      rw [Option.map_some, Option.getD_some, hdeclared n hlength]
      omega
  simp only [called, Request.decodeBody, hjson, Bool.not_true, if_neg Bool.false_ne_true, hlimit]
  rcases Operation.reader.decode r.body with (_ | _) | _ <;> rfl

/-- What a peer makes of a call with its secret: the length of the body decides first, and then what its
text is decoded to. -/
theorem ofRequest_call (hsecret : ∀ s, peer.secret = some s → IsPrintable s)
    (trace : Option Trace.Context) (op : Operation) :
    ofRequest peer (Peer.request peer.secret trace op) =
      if min bodyLimit peer.bodyLimit < (Peer.body op).utf8ByteSize then
        .error (.rejected .bodyLength)
      else
        match Operation.reader.decode (Peer.body op) with
        | .ok op => .ok (.serve op)
        | .error .malformed => .error (.rejected .bodyForm)
        | .error .mismatch => .error (.rejected .bodyShape) := by
  have hgate := peerGate_of_presents hsecret (Peer.presents_request peer.secret trace op)
  have hcalled := called_eq peer (Peer.isJson_request peer.secret trace op)
    fun n => Peer.declaredLength?_request peer.secret trace op
  have hlength : (Peer.request peer.secret trace op).bodyLength = (Peer.body op).utf8ByteSize := rfl
  have hbody : (Peer.request peer.secret trace op).body = Peer.body op := rfl
  have hpost : (Peer.request peer.secret trace op).method = "POST" := rfl
  rw [hlength, hbody] at hcalled
  rw [ofRequest_rpc rfl, hpost, if_neg (by decide), if_pos rfl, hgate, hcalled]
  by_cases hlong : min bodyLimit peer.bodyLimit < (Peer.body op).utf8ByteSize
  · -- both limits are reported alike
    rw [if_pos hlong, if_pos hlong]
    cases (Peer.request peer.secret trace op).declaredLength?.any (peer.bodyLimit < ·) <;> rfl
  · have hfits : ¬(Peer.request peer.secret trace op).declaredLength?.any (peer.bodyLimit < ·) := by
      rw [Option.any_eq_true]
      rintro ⟨n, hn, hlt⟩
      rw [Peer.declaredLength?_request peer.secret trace op hn, decide_eq_true_eq] at hlt
      omega
    rw [if_neg hlong, if_neg hlong, if_neg hfits]
    rcases Operation.reader.decode (Peer.body op) with (_ | _) | _ <;> rfl

/-! ## From the client to the peers -/

/-- **What a client may send is run by the peers just if it fits their envelope.** Let a node accept a
request to send a message whose data hold no numbers but integers of 64 bits. A peer with the same
secret refuses the call if the body is longer than it takes, and refuses it too if the data are nested
deeper than three containers leave room for, though the node took data one or two levels deeper. In all
other cases it runs the very operation. -/
theorem relayed_send {h peer : Host} {r : Request} {a : Audience} {m : Message} {t : Option UInt64}
    (hr : ofRequest h r = .ok (.inquire (.send a m) t)) (hdata : m.data.Integral)
    (hsecret : ∀ s, peer.secret = some s → IsPrintable s) (trace : Option Trace.Context) :
    m.data.depth ≤ a.depthLimit ∧
      ofRequest peer (Peer.request peer.secret trace (Inquiry.send a m).operation) =
        if min bodyLimit peer.bodyLimit < (Peer.body (Inquiry.send a m).operation).utf8ByteSize then
          .error (.rejected .bodyLength)
        else if Json.greatestDepth - 3 < m.data.depth then .error (.rejected .bodyForm)
        else .ok (.serve (Inquiry.send a m).operation) := by
  obtain ⟨hsorted, hdepth⟩ := ofRequest_send hr
  refine ⟨hdepth, ?_⟩
  have hdecode : Operation.reader.decode (Peer.body (Inquiry.send a m).operation) =
      if m.data.depth + 3 ≤ Json.greatestDepth then .ok (Inquiry.send a m).operation
      else .error .malformed := Operation.decode_send a.normalized hdata hsorted
  have hthree : 3 ≤ Json.greatestDepth := by decide
  rw [ofRequest_call hsecret, hdecode]
  split
  · rfl
  · by_cases hfits : m.data.depth + 3 ≤ Json.greatestDepth
    · rw [if_pos hfits, if_neg (by omega)]
    · rw [if_neg hfits, if_pos (by omega)]

/-- A client that posts a message to all connections. -/
def broadcast (m : Message) : Request :=
  .ofTarget "POST" "/api/v1/send/all" [("content-type", "application/json")] m.toJson.text

/-- A node accepts every such request whose data are not nested too deep for the client's envelope. -/
theorem ofRequest_broadcast {m : Message} (hdata : m.data.Integral) (hsorted : m.data.Sorted)
    (hdepth : m.data.depth ≤ Audience.all.depthLimit) (hlength : m.toJson.text.utf8ByteSize ≤ bodyLimit)
    (h : Host) : ofRequest h (broadcast m) = .ok (.inquire (.send .all m) none) := by
  have hm : m.toJson.depth ≤ Json.greatestDepth := by
    rw [m.depth_toJson]
    exact Nat.add_le_of_le_sub (by decide) hdepth
  have hdecode : Message.reader.decode m.toJson.text = .ok m :=
    (Message.reads_reader hsorted).decode_text (Message.integral_toJson hdata) hm
  have hjson : (broadcast m).isJson = true := rfl
  have hbody : body (broadcast m) Message.reader = .ok m :=
    (broadcast m).decodeBody_eq_ok_iff.2 ⟨hjson, hlength, hdecode⟩
  have hpath : (broadcast m).path = "/api/v1/send/all" := rfl
  have hroute : Route.ofPath? "/api/v1/send/all" = some .sendAll := by decide
  have hpost : (broadcast m).method = "POST" := rfl
  have htimeout : timeout (broadcast m) = .ok none := rfl
  rw [ofRequest, hpath, hroute, hpost]
  dsimp only
  have hgate : gate h .sendAll (broadcast m) = .ok () := rfl
  rw [if_neg (by decide), if_pos (by decide), hgate, ofRoute, htimeout, hbody]
  rfl

/-! ### At the limit -/

/-- Arrays inside each other, so many of them. -/
def abyss : Nat → Json
  | 0 => .null
  | n + 1 => .array [abyss n]

/-- Nested arrays are as deep as there are of them. -/
theorem depth_abyss (n : Nat) : (abyss n).depth = n := by
  induction n with
  | zero => rfl
  | succ n ih => rw [abyss, Json.depth, Json.itemsDepth, Json.itemsDepth, ih, Nat.max_zero]

/-- Nested arrays have no number in them that is out of range. -/
theorem integral_abyss (n : Nat) : (abyss n).Integral := by
  induction n with
  | zero => exact .null
  | succ n ih => exact .array (List.forall_mem_singleton.2 ih)

/-- Nested arrays have no object in them that is out of order. -/
theorem sorted_abyss (n : Nat) : (abyss n).Sorted := by
  induction n with
  | zero => exact .null
  | succ n ih => exact .array (List.forall_mem_singleton.2 ih)

/-- The length in bytes of what tokens are written as. -/
def byteSize (ts : List Json.Token) : Nat :=
  (String.ofList (ts.flatMap Json.Token.text)).utf8ByteSize

theorem byteSize_append (ts ts' : List Json.Token) :
    byteSize (ts ++ ts') = byteSize ts + byteSize ts' := by
  rw [byteSize, List.flatMap_append, String.ofList_append, String.utf8ByteSize_append]
  rfl

/-- Each nested array takes two bytes. -/
theorem byteSize_abyss (n : Nat) : byteSize (abyss n).tokens = 2 * n + 4 := by
  induction n with
  | zero => decide
  | succ n ih =>
    have htokens : (abyss (n + 1)).tokens =
        [.leftBracket] ++ ((abyss n).tokens ++ [.rightBracket]) := rfl
    have hopen : byteSize [.leftBracket] = 1 := by decide
    have hclose : byteSize [.rightBracket] = 1 := by decide
    rw [htokens, byteSize_append, byteSize_append, ih, hopen, hclose]
    omega

/-- A message that holds nothing but arrays inside each other. -/
def plunge (n : Nat) : Message := ⟨none, abyss n, none⟩

/-- A message with nested arrays is longer by the names of its fields. -/
theorem utf8ByteSize_plunge (n : Nat) : (plunge n).toJson.text.utf8ByteSize = 2 * n + 13 := by
  have htokens : (plunge n).toJson.tokens =
      [.leftBrace, .string "data", .colon] ++ ((abyss n).tokens ++ [.rightBrace]) := rfl
  have hbefore : byteSize [.leftBrace, .string "data", .colon] = 8 := by decide
  have hafter : byteSize [.rightBrace] = 1 := by decide
  change byteSize (plunge n).toJson.tokens = _
  rw [htokens, byteSize_append, byteSize_append, byteSize_abyss, hbefore, hafter]
  omega

/-- Its envelope is longer by the name of the operation. -/
theorem utf8ByteSize_body_plunge (n : Nat) :
    (Peer.body (.send .all (plunge n))).utf8ByteSize = 2 * n + 57 := by
  let before : List Json.Token :=
    [.leftBrace, .string "operation", .colon, .string "send_all", .comma, .string "args", .colon,
      .leftBrace, .string "message", .colon]
  have htokens : (Operation.send .all (plunge n)).toJson.tokens =
      before ++ ((plunge n).toJson.tokens ++ [.rightBrace, .rightBrace]) := by
    simp [before, Operation.toJson, Operation.arguments?, Operation.name, Json.tokens,
      Json.fieldTokens]
  have hbefore : byteSize before = 42 := by decide
  have hafter : byteSize [.rightBrace, .rightBrace] = 2 := by decide
  have hmessage : byteSize (plunge n).toJson.tokens = 2 * n + 13 := utf8ByteSize_plunge n
  change byteSize (Operation.send .all (plunge n)).toJson.tokens = _
  rw [htokens, byteSize_append, byteSize_append, hmessage, hbefore, hafter]
  omega

/-- The public API reads a broadcast whose data is no deeper than it allows. -/
theorem ofRequest_broadcast_plunge {n : Nat} (hn : n ≤ Audience.all.depthLimit) (h : Host) :
    ofRequest h (broadcast (plunge n)) = .ok (.inquire (.send .all (plunge n)) none) := by
  have hlength : (plunge n).toJson.text.utf8ByteSize ≤ bodyLimit := by
    have hlimit : 2 * Audience.all.depthLimit + 13 ≤ bodyLimit := by decide
    rw [utf8ByteSize_plunge]
    omega
  exact ofRequest_broadcast (integral_abyss n) (sorted_abyss n) (by rwa [plunge, depth_abyss]) hlength h

/-- A message that is run by a peer, its data as deep as can be. -/
theorem relayed_send_brink :
    let h := Host.standard "a" "host:1" []
    let peer := { Host.standard "b" "host:2" [] with secret := some "s3cret" }
    ofRequest h (broadcast (plunge 124)) = .ok (.inquire (.send .all (plunge 124)) none) ∧
      (plunge 124).data.Integral ∧ (∀ s, peer.secret = some s → IsPrintable s) ∧
      ofRequest peer (Peer.request peer.secret none (Inquiry.send .all (plunge 124)).operation) =
        .ok (.serve (.send .all (plunge 124))) := by
  intro h peer
  have hrequest := ofRequest_broadcast_plunge (n := 124) (by decide) h
  have hsecret : ∀ s, peer.secret = some s → IsPrintable s := by
    intro s hs
    obtain rfl := Option.some.inj hs
    exact isPrintable_s3cret
  have hlength : (Peer.body (Inquiry.send .all (plunge 124)).operation).utf8ByteSize ≤
      min bodyLimit peer.bodyLimit :=
    Nat.le_trans (Nat.le_of_eq (utf8ByteSize_body_plunge 124)) (by decide)
  obtain ⟨-, hcall⟩ := relayed_send hrequest (integral_abyss 124) hsecret none
  rw [if_neg (Nat.not_lt.2 hlength), plunge, if_neg (by rw [depth_abyss]; decide)] at hcall
  exact ⟨hrequest, integral_abyss 124, hsecret, hcall⟩

/-- One container more, and the node accepts the message and sends it to its own connections, but the
peer refuses a call that is short enough. -/
theorem not_relayed_abyss :
    let h := Host.standard "a" "host:1" []
    let peer := Host.standard "b" "host:2" []
    ofRequest h (broadcast (plunge 125)) = .ok (.inquire (.send .all (plunge 125)) none) ∧
      (∃ s, h.registry.send .all (plunge 125) = .ok (s, 0)) ∧ (plunge 125).data.Integral ∧
      (Peer.body (Inquiry.send .all (plunge 125)).operation).utf8ByteSize ≤
        min bodyLimit peer.bodyLimit ∧
      ofRequest peer (Peer.request peer.secret none (Inquiry.send .all (plunge 125)).operation) =
        .error (.rejected .bodyForm) := by
  intro h peer
  have hrequest := ofRequest_broadcast_plunge (n := 125) (by decide) h
  have hlength : (Peer.body (Inquiry.send .all (plunge 125)).operation).utf8ByteSize ≤
      min bodyLimit peer.bodyLimit :=
    Nat.le_trans (Nat.le_of_eq (utf8ByteSize_body_plunge 125)) (by decide)
  have hdecode : Operation.reader.decode (Peer.body (Inquiry.send .all (plunge 125)).operation) =
      .error .malformed := by
    have hdeep : ¬(plunge 125).data.depth + 3 ≤ Json.greatestDepth := by
      rw [plunge, depth_abyss]
      decide
    exact (Operation.decode_send .all (integral_abyss 125) (sorted_abyss 125)).trans (if_neg hdeep)
  have hsecret : ∀ s, peer.secret = some s → IsPrintable s := fun s hs => nomatch hs
  refine ⟨hrequest, ⟨_, rfl⟩, integral_abyss 125, hlength, ?_⟩
  rw [ofRequest_call hsecret, if_neg (Nat.not_lt.2 hlength), hdecode]

end Action

end PushMesh
