import PushMesh.Proofs.Peer.Relay

/-!
# What a secret is worth at the gate

A node presents its secret in a header, which is sent as the bytes of its UTF-8 form. A header may hold
more bytes than those of texts: the value of a header is only read if it is visible ASCII, so all that
the gate tells of a secret with other characters is that there is none (`Action.peerGate_eq`). The
secret of the node is recognised just if it is readable, and another one never is (`Peer.vouches`).
-/

namespace PushMesh

open Http (Answer Request)

/-! ## Bytes of texts -/

namespace Text.Utf8

/-- An ASCII character is encoded as one byte. -/
theorem utf8EncodeChar_of_lt {c : Char} (h : c.toNat < 0x80) :
    String.utf8EncodeChar c = [UInt8.ofNat c.toNat] := by
  have hval : c.val.toNat ≤ 0x7F := Nat.le_of_lt_succ h
  simp only [String.utf8EncodeChar, if_pos hval]
  rfl

/-- All bytes of a character beyond ASCII have the highest bit. -/
theorem le_of_mem_utf8EncodeChar {c : Char} (h : 0x80 ≤ c.toNat) {b : UInt8}
    (hb : b ∈ String.utf8EncodeChar c) : 0x80 ≤ b.toNat := by
  have hval : ¬c.val.toNat ≤ 0x7F := Nat.not_le_of_lt h
  simp only [String.utf8EncodeChar, if_neg hval] at hb
  split_ifs at hb <;> simp only [List.mem_cons, List.not_mem_nil, or_false] at hb
  · rcases hb with rfl | rfl <;> rw [UInt8.toNat_ofNat'] <;> omega
  · rcases hb with rfl | rfl | rfl <;> rw [UInt8.toNat_ofNat'] <;> omega
  · rcases hb with rfl | rfl | rfl | rfl <;> rw [UInt8.toNat_ofNat'] <;> omega

/-- What holds of all bytes of a text holds of its ASCII characters, and of the bytes of all others. -/
theorem forall_mem_encode_iff {p : Nat → Prop} (cs : List Char) :
    (∀ b ∈ encode cs, p b.toNat) ↔ ∀ c ∈ cs,
      if c.toNat < 0x80 then p c.toNat else ∀ b ∈ String.utf8EncodeChar c, p b.toNat := by
  have hchar (c : Char) : (∀ b ∈ String.utf8EncodeChar c, p b.toNat) ↔
      if c.toNat < 0x80 then p c.toNat else ∀ b ∈ String.utf8EncodeChar c, p b.toNat := by
    split
    · next hc =>
      have hbyte : (UInt8.ofNat c.toNat).toNat = c.toNat :=
        UInt8.toNat_ofNat_of_lt' (Nat.lt_trans hc (by decide))
      rw [utf8EncodeChar_of_lt hc, List.forall_mem_singleton, hbyte]
    · rfl
  simp only [encode, List.mem_flatMap, forall_exists_index, and_imp]
  exact ⟨fun h c hc => (hchar c).1 fun b hb => h b c hc hb,
    fun h b c hc hb => (hchar c).2 (h c hc) b hb⟩

/-- A character is written in at least one byte. -/
theorem exists_mem_utf8EncodeChar (c : Char) : ∃ b, b ∈ String.utf8EncodeChar c := by
  refine List.exists_mem_of_length_pos ?_
  rw [String.length_utf8EncodeChar]
  exact c.utf8Size_pos

end Text.Utf8

/-! ## Bytes of headers -/

namespace Http

/-- Whether a text may be sent as the value of a header: none of its bytes is a control character but a
tab. -/
def IsFieldValue (s : String) : Prop :=
  ∀ b ∈ Text.Utf8.encode s.toList, b.toNat = 0x09 ∨ 0x20 ≤ b.toNat ∧ b.toNat ≠ 0x7F

/-- Whether the value of a header is read as a text: its bytes are visible ASCII, spaces and tabs. -/
def IsReadable (s : String) : Prop :=
  ∀ b ∈ Text.Utf8.encode s.toList, b.toNat = 0x09 ∨ 0x20 ≤ b.toNat ∧ b.toNat < 0x7F

instance (s : String) : Decidable (IsFieldValue s) :=
  List.decidableBAll _ (Text.Utf8.encode s.toList)

instance (s : String) : Decidable (IsReadable s) :=
  List.decidableBAll _ (Text.Utf8.encode s.toList)

end Http

open Http (IsFieldValue IsReadable)

/-- The characters that a client can send are those whose bytes may stand in a header. -/
theorem Peer.isSendable_iff (s : String) : Peer.isSendable s = true ↔ IsFieldValue s := by
  rw [IsFieldValue, Text.Utf8.forall_mem_encode_iff (p := fun n => n = 0x09 ∨ 0x20 ≤ n ∧ n ≠ 0x7F),
    Peer.isSendable, List.all_eq_true]
  refine forall₂_congr fun c _ => ?_
  have htab : c = '\t' ↔ c.toNat = 0x09 := Char.toNat_inj.symm
  simp only [Bool.or_eq_true, Bool.and_eq_true, decide_eq_true_eq, htab]
  split
  · rfl
  · next hc =>
    refine iff_of_true (by omega) fun b hb => ?_
    have := Text.Utf8.le_of_mem_utf8EncodeChar (Nat.not_lt.1 hc) hb
    omega

/-- The characters that are read in a header are those whose bytes are visible. -/
theorem all_isHeaderChar_iff (s : String) :
    s.toList.all Request.isHeaderChar = true ↔ IsReadable s := by
  rw [IsReadable, Text.Utf8.forall_mem_encode_iff (p := fun n => n = 0x09 ∨ 0x20 ≤ n ∧ n < 0x7F),
    List.all_eq_true]
  refine forall₂_congr fun c _ => ?_
  have htab : c = '\t' ↔ c.toNat = 0x09 := Char.toNat_inj.symm
  have hvisible : (' ' ≤ c ∧ c ≤ '~') ↔ 0x20 ≤ c.toNat ∧ c.toNat ≤ 0x7E := Iff.rfl
  simp only [Request.isHeaderChar, Bool.or_eq_true, Bool.and_eq_true, decide_eq_true_eq, htab, hvisible]
  split
  · omega
  · next hc =>
    refine iff_of_false (by omega) fun hall => ?_
    obtain ⟨b, hb⟩ := Text.Utf8.exists_mem_utf8EncodeChar c
    have := Text.Utf8.le_of_mem_utf8EncodeChar (Nat.not_lt.1 hc) hb
    have := hall b hb
    omega

/-! ## At the gate -/

namespace Problem

/-- The problem of a request that presents no secret. -/
def missingSecret : Problem := authentication "Missing cluster secret"

/-- The problem of a request that presents another secret. -/
def invalidSecret : Problem := authentication "Invalid cluster secret"

/-- What reports a problem is no response to a call. -/
theorem decode_text (code message : String) :
    Response.reader.decode (Json.object
      [("error", .object [("code", .string code), ("message", .string message)])]).text =
        .error .mismatch := by
  have hintegral : (Json.object
      [("error", .object [("code", .string code), ("message", .string message)])]).Integral := by
    simp
  -- no field tells the case of a response
  rw [Json.Reader.decode, hintegral.scan_text]
  rfl

/-- A caller that is told of a problem of this kind takes the peer for one that cannot be reached. -/
theorem conclude_authentication (message : String) :
    ∃ value, ((authentication message).answer false).payload = .json value ∧
      ∀ id timeout,
        Peer.conclude id timeout (.answered ((authentication message).answer false).status value.text) =
          .error (.unreachable (id ++ " answered HTTP 401 Unauthorized")) := by
  refine ⟨_, rfl, fun id timeout => ?_⟩
  have hdecode := decode_text "UNAUTHORIZED" message
  simp only [Peer.conclude, code, clientText, hdecode]
  have hstatus : Http.isSuccess 401 = false := by decide
  have htext : Http.statusText 401 = "401 Unauthorized" := by decide
  simp only [answer, Answer.json, status, hstatus, htext, Bool.false_eq_true, if_false,
    String.append_assoc]
  rfl

end Problem

/-- The token of a request that presents a secret, if it can be read. -/
theorem Http.Request.bearerToken?_of_presents {r : Request} {s : String}
    (hpresents : r.Presents (some s)) : r.bearerToken? = if IsReadable s then some s else none := by
  have hread : ("Bearer " ++ s).toList.all isHeaderChar = true ↔ IsReadable s := by
    have hscheme : "Bearer ".toList.all isHeaderChar = true := by decide
    rw [String.toList_append, List.all_append, hscheme, Bool.true_and, all_isHeaderChar_iff]
  rw [bearerToken?, header?_eq, hpresents s rfl, Option.filter_some]
  by_cases hs : IsReadable s
  · rw [if_pos hs, if_pos (hread.2 hs)]
    simp only [bind, Option.bind_some, String.toList_append, Text.afterPrefix?_append,
      String.ofList_toList, pure]
  · rw [if_neg hs, if_neg (mt hread.1 hs)]
    rfl

namespace Action

/-- What the gate makes of a request that presents a secret. What it would do without any secret comes
first. A secret that cannot be read is taken for none, and one that can be read is compared. -/
theorem peerGate_of_presents_some {r : Request} {s : String} (hpresents : r.Presents (some s))
    {h : Host} {expected : String} (hsecret : h.secret = some expected) :
    peerGate h r = (peerGate { h with secret := none } r).bind fun _ =>
      if ¬IsReadable s then .error (Problem.missingSecret.answer false)
      else if s = expected then .ok ()
      else .error (Problem.invalidSecret.answer false) := by
  simp only [peerGate, hsecret, Request.bearerToken?_of_presents hpresents]
  by_cases hlong : r.declaredLength?.any (h.bodyLimit < ·) = true
  · rw [if_pos hlong, if_pos hlong]
    rfl
  · rw [if_neg hlong, if_neg hlong]
    by_cases hs : IsReadable s
    · rw [if_pos hs, if_neg (not_not_intro hs)]
      rfl
    · rw [if_neg hs, if_pos hs]
      rfl

/-- Without a secret a call passes the gate if its body is short enough. -/
theorem peerGate_request {h : Host} (hnone : h.secret = none) (secret : Option String)
    (trace : Option Trace.Context) {op : Operation}
    (hlength : (Peer.body op).utf8ByteSize ≤ h.bodyLimit) :
    peerGate h (Peer.request secret trace op) = .ok () := by
  have hshort : ¬(Peer.request secret trace op).declaredLength?.any (h.bodyLimit < ·) := by
    rw [Option.any_eq_true]
    rintro ⟨n, hn, hlt⟩
    rw [Peer.declaredLength?_request secret trace op hn, decide_eq_true_eq] at hlt
    omega
  rw [peerGate, if_neg hshort, hnone]

/-- A request that is not let in is refused with what the gate answers. -/
theorem ofRequest_rpc_of_error {h : Host} {r : Request} (hpath : r.path = Route.rpcPath)
    (hpost : r.method = "POST") {a : Answer} (ha : peerGate h r = .error a) :
    ofRequest h r = .error a := by
  rw [ofRequest_rpc hpath, if_neg (by rw [hpost]; decide), if_pos hpost, ha]

end Action

/-! ## From node to node -/

namespace Peer

/-- What the header with a secret is worth at the nodes. -/
structure Vouches (s : String) : Prop where
  /-- Calls can be made with the secret, and present it. -/
  sendable : isSendable s = true
  presented : ∀ trace op, (request (some s) trace op).Presents (some s)
  /-- A node with that secret lets in whoever presents it as if it asked for none, if the secret is
  readable. -/
  recognised : IsReadable s → ∀ h r, h.secret = some s → r.Presents (some s) →
    Action.peerGate h r = Action.peerGate { h with secret := none } r
  /-- If not, every node takes it for none, even one with that secret. -/
  unseen : ¬IsReadable s → ∀ h r expected, h.secret = some expected → r.Presents (some s) →
    Action.peerGate { h with secret := none } r = .ok () →
    Action.peerGate h r = .error (Problem.missingSecret.answer false)
  /-- A node with another secret never lets it in. -/
  foreign : ∀ h r expected, h.secret = some expected → expected ≠ s → r.Presents (some s) →
    Action.peerGate h r ≠ .ok ()
  /-- A call of a readable secret is heard, and any other one fails as if the peer were not there. -/
  heard : IsReadable s → ∀ h trace op, h.secret = some s → (body op).utf8ByteSize ≤ h.bodyLimit →
    Action.peerGate h (request (some s) trace op) = .ok ()
  lost : ∀ h trace op expected, h.secret = some expected → ¬IsReadable s ∨ expected ≠ s →
    (body op).utf8ByteSize ≤ h.bodyLimit →
    ∃ (a : Answer) (value : Json),
      Action.ofRequest h (request (some s) trace op) = .error a ∧ a.payload = .json value ∧
        ∀ id timeout, conclude id timeout (.answered a.status value.text) =
          .error (.unreachable (id ++ " answered HTTP 401 Unauthorized"))

/-- **A secret vouches for a node if it is readable.** Take any secret that may be sent in a header, that
is without control characters but tabs. Calls are made with it and present it. A node with the same
secret lets in whoever presents it just as if no secret were asked for, whatever the request is, if the
secret is readable; if it is not, the header is not read, and the request is
taken for one without a secret. A node with another secret always turns it away. A call that is turned
away counts as a peer that is not reached. -/
theorem vouches {s : String} (hs : IsFieldValue (authorization s).2) : Vouches s where
  sendable := by
    refine (isSendable_iff s).2 fun b hb => hs b ?_
    -- the header value is the scheme and then the secret, so all bytes of the secret are in it
    rw [authorization, String.toList_append, Text.Utf8.encode, List.flatMap_append]
    exact List.mem_append_right _ hb
  presented := presents_request (some s)
  recognised hreadable h r hsecret hpresents := by
    rw [Action.peerGate_of_presents_some hpresents hsecret, if_neg (not_not_intro hreadable),
      if_pos rfl]
    cases Action.peerGate { h with secret := none } r <;> rfl
  unseen hreadable h r expected hsecret hpresents hopen := by
    rw [Action.peerGate_of_presents_some hpresents hsecret, hopen, if_pos hreadable]
    rfl
  foreign h r expected hsecret hne hpresents hopen := by
    rw [Action.peerGate_of_presents_some hpresents hsecret, if_neg hne.symm] at hopen
    cases hgate : Action.peerGate { h with secret := none } r with
    | error a =>
      rw [hgate] at hopen
      cases hopen
    | ok _ =>
      rw [hgate, Except.bind] at hopen
      split at hopen
      · cases hopen
      · cases hopen
  heard hreadable h trace op hsecret hlength := by
    rw [Action.peerGate_of_presents_some (presents_request (some s) trace op) hsecret,
      if_neg (not_not_intro hreadable), if_pos rfl,
      Action.peerGate_request (h := { h with secret := none }) rfl _ _ hlength]
    rfl
  lost h trace op expected hsecret hwrong hlength := by
    have hgate := Action.peerGate_of_presents_some (presents_request (some s) trace op) hsecret
    rw [Action.peerGate_request (h := { h with secret := none }) rfl _ _ hlength] at hgate
    -- either the secret is another one, or nobody can read it
    by_cases hreadable : IsReadable s
    · have hne : s ≠ expected := (hwrong.resolve_left (not_not_intro hreadable)).symm
      rw [if_neg (not_not_intro hreadable), if_neg hne] at hgate
      obtain ⟨value, hpayload, hconclude⟩ := Problem.conclude_authentication "Invalid cluster secret"
      exact ⟨_, value, Action.ofRequest_rpc_of_error rfl rfl hgate, hpayload, hconclude⟩
    · rw [if_pos hreadable] at hgate
      obtain ⟨value, hpayload, hconclude⟩ := Problem.conclude_authentication "Missing cluster secret"
      exact ⟨_, value, Action.ofRequest_rpc_of_error rfl rfl hgate, hpayload, hconclude⟩

/-- A secret with a tab and blanks is recognised, and one with an accent is not. -/
theorem vouches_tabbed :
    IsFieldValue (authorization " s3\tcret ").2 ∧ IsReadable " s3\tcret " ∧ Vouches " s3\tcret " ∧
      IsFieldValue (authorization "clé").2 ∧ ¬IsReadable "clé" ∧ Vouches "clé" :=
  ⟨by decide, by decide, vouches (by decide), by decide, by decide, vouches (by decide)⟩

/-- A node turns away the calls of a node with the same secret, which may be sent in a header, and would
let them in without a secret. -/
theorem not_recognised_accent :
    let h := { Host.standard "a" "host:1" [] with secret := some "é" }
    let r := request (some "é") none .count
    IsFieldValue (authorization "é").2 ∧ isSendable "é" = true ∧
      r.firstValue? "authorization" = some (authorization "é").2 ∧
      Action.peerGate { h with secret := none } r = .ok () ∧
      Action.peerGate h r = .error (Problem.missingSecret.answer false) := by
  intro h r
  have hpresents : r.Presents (some "é") := presents_request (some "é") none .count
  have hopen : Action.peerGate { h with secret := none } r = .ok () :=
    Action.peerGate_request rfl _ _ (by decide)
  refine ⟨by decide, by decide, hpresents "é" rfl, hopen, ?_⟩
  rw [Action.peerGate_of_presents_some hpresents rfl, hopen]
  rfl

end Peer

end PushMesh
