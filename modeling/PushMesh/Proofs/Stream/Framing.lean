import PushMesh.Proofs.Api.Request
import PushMesh.Proofs.Number.Digits
import PushMesh.Proofs.Registry.Refusal
import PushMesh.Proofs.Stream.EventSource
import PushMesh.Stream.Poll

/-!
# Messages keep their form on the way

Whoever takes a message that is sent, be it a registry, a node that dispatches it, one that is called
for it or one that is asked for it, takes none whose name or id does not fit on its line
(`isWellFormed_of_accepted`). So whatever the name, the id and the data of a message are, they cannot
be mistaken for anything else in a stream, and nothing of them is left out
(`framed_of_accepted`).
-/

namespace PushMesh

/-! ## Messages that are accepted -/

/-- A message that is accepted in one of the ways in which messages are sent. -/
inductive Message.Accepted (m : Message) : Prop where
  /-- A registry sends it. -/
  | registry {r s : Registry} {a : Audience} {n : Nat} (hsend : r.send a m = .ok (s, n))
  /-- A registry sends it for a peer. -/
  | peer {r s : Registry} {a : Audience} {output : Output}
      (hrespond : r.respond (.send a m) = (s, .ok output))
  /-- A node dispatches it, and the outcome, whenever it is looked at, is not that its registry
  refused it. -/
  | dispatched {mesh : Mesh} {h : Host} {a : Audience} {limit : Option Nat}
      (hwait : ∀ e, ((mesh.dispatch h (.send a m)).1.wait (mesh.dispatch h (.send a m)).2 limit).2 ≠
        .error (.refused e))
  /-- A request to send it is not answered as a bad one. -/
  | requested {mesh : Mesh} {h : Host} {now : Instant} {r : Http.Request} {a : Audience}
      {timeout : Option UInt64} (hr : Action.ofRequest h r = .ok (.inquire (.send a m) timeout))
      (hanswer : (mesh.respond h now r).2.status ≠ 400)

namespace Message

variable {m : Message}

/-- A message that passes the check is well formed. -/
theorem isWellFormed_of_check (h : m.check = .ok ()) : m.isWellFormed = true := by
  unfold check at h
  split at h
  · assumption
  · cases h

/-- **Nothing is accepted that does not fit.** -/
theorem isWellFormed_of_accepted (h : m.Accepted) : m.isWellFormed = true := by
  apply isWellFormed_of_check
  -- a node that does not refuse the message has checked it
  have hlocal : ∀ {r : Registry} {a : Audience},
      (∀ e, (Inquiry.send a m).runLocally r ≠ .error e) → m.check = .ok () := by
    intro r a hnot
    cases hrun : (Inquiry.send a m).runLocally r with
    | error e => exact absurd hrun (hnot e)
    | ok result => exact (Operation.check_send_iff.1 (Inquiry.runLocally_eq_ok_iff.1 hrun).1).2
  cases h with
  | registry hsend => exact (Operation.check_send_iff.1 (Registry.send_eq_ok_iff.1 hsend).1).2
  | peer hrespond =>
    rename_i r s a output
    unfold Registry.respond at hrespond
    cases hexecute : r.execute (.send a m) with
    | error e =>
      rw [hexecute] at hrespond
      cases hrespond
    | ok result => exact (Operation.check_send_iff.1 (Registry.execute_eq_ok_iff.1 hexecute).1).2
  | dispatched hwait => exact hlocal fun e he => hwait e (Mesh.wait_of_refused he _)
  | @requested mesh h now r a timeout hr hanswer =>
    -- a refusal at home would have been answered as an error
    have hnot : ∀ e, (Inquiry.send a m).runLocally h.registry ≠ .error e := by
      intro e he
      apply hanswer
      rw [Mesh.status_respond, Mesh.fullAnswer_of_asks hr (.inquire _ _), Mesh.inquire_of_refused he]
      rfl
    exact hlocal hnot

end Message

/-! ## One message -/

open EventSource

/-- What the text of a message is to one who reads it. -/
structure Framed (m : Message) : Prop where
  /-- Neither name nor id is left out. -/
  whole : m.event.filter Message.isFieldText = m.event ∧ m.id.filter Message.isFieldText = m.id
  /-- There are the fields that there should be, and no others. -/
  fields : ∀ rest, parse (EventText.ofMessage m ++ rest) =
    m.eventFields.map (fun f => .field f.1 f.2) ++ .blank :: parse rest
  /-- They make one event. -/
  event : ∀ (c : Client) rest, c.IsIdle → c.receive (parse (EventText.ofMessage m ++ rest)) =
    (((c.after m).receive (parse rest)).1, m.told c.id :: ((c.after m).receive (parse rest)).2)

/-- A well-formed message with data and no carriage return in it is framed. -/
theorem framed_of_isWellFormed {m : Message} (hm : m.isWellFormed = true) (hdata : m.dataText ≠ "")
    (hreturn : '\r' ∉ m.dataText.toList) : Framed m where
  whole := by
    obtain ⟨hevent, hid⟩ := Bool.and_eq_true_iff.1 hm
    have hfilter : ∀ o : Option String, o.all Message.isFieldText = true →
        o.filter Message.isFieldText = o := by
      intro o ho
      cases o with
      | none => rfl
      | some s => exact if_pos ho
    exact ⟨hfilter _ hevent, hfilter _ hid⟩
  fields := parse_ofMessage hm hdata hreturn
  event _ rest hc := receive_ofMessage hc hm hdata hreturn rest

/-! ## Whole streams -/

/-- A quoted string has its carriage returns escaped. -/
theorem Json.not_mem_quote (s : String) : '\r' ∉ Json.Token.quote s := by
  have hdigits : ∀ n < 16, Nat.digitChar n ≠ '\r' := by decide
  have hdigit : ∀ n, '\r' ≠ Json.Token.hexDigit n :=
    fun n => (hdigits (n % 16) (Nat.mod_lt _ (by decide))).symm
  have hescape : ∀ c, '\r' ∉ Json.Token.escape c := by
    intro c
    unfold Json.Token.escape
    split_ifs <;> simp_all [eq_comm]
  unfold Json.Token.quote
  simp [hescape]

/-- The data of the event that a stream starts with. -/
def greeting (id : ConnectionId) (nodeId : String) : String :=
  (Json.object [("connection_id", .nat id.toNat), ("node_id", .string nodeId)]).text

/-- The greeting event is an event name, its data lines and the blank line. -/
theorem connected_eq (id : ConnectionId) (nodeId : String) : EventText.connected id nodeId =
    EventText.line "event" "connected" ++ EventText.dataLines (greeting id nodeId) ++ "\n" := rfl

/-- The greeting has no carriage return. -/
theorem not_mem_greeting (id : ConnectionId) (nodeId : String) :
    '\r' ∉ (greeting id nodeId).toList := by
  have hdigits : '\r' ∉ Json.Token.numberText (.int id.toNat) := by
    intro hmem
    have hnumber : Json.Token.numberText (.int id.toNat) = Decimal.digitText id.toNat := by
      rw [Json.Token.numberText, Json.Token.integerText, if_neg (by omega)]
      rfl
    rw [hnumber] at hmem
    exact absurd (Decimal.isDigit_of_mem_digitText hmem) (by decide)
  have htext : (greeting id nodeId).toList =
      '\x7b' :: (Json.Token.quote "connection_id" ++ ':' :: (Json.Token.numberText (.int id.toNat) ++
        ',' :: (Json.Token.quote "node_id" ++ ':' :: (Json.Token.quote nodeId ++ ['\x7d'])))) := by
    simp [greeting, Json.text, Json.tokens, Json.nat, Json.fieldTokens, Json.Token.text]
  rw [htext]
  simp [Json.not_mem_quote, hdigits]

/-- The greeting is not empty, so a reader does not skip it. -/
theorem greeting_ne_empty (id : ConnectionId) (nodeId : String) : greeting id nodeId ≠ "" := by
  intro h
  have hchars := congrArg String.toList h
  simp [greeting, Json.text, Json.tokens, Json.Token.text] at hchars

/-- A stream starts with an event of its own. -/
theorem receive_connected {c : Client} (hc : c.IsIdle) (id : ConnectionId) (nodeId rest : String) :
    c.receive (parse (EventText.connected id nodeId ++ rest)) =
      ((c.receive (parse rest)).1,
        ⟨"connected", greeting id nodeId, c.id⟩ :: (c.receive (parse rest)).2) := by
  let fields : List (String × String) := ("event", "connected") ::
    (Text.splitAll '\n' (greeting id nodeId).toList).map fun part => ("data", String.ofList part)
  have hlines : parse (EventText.connected id nodeId ++ rest) =
      fields.map (fun f => .field f.1 f.2) ++ .blank :: parse rest := by
    rw [connected_eq, String.append_assoc, String.append_assoc,
      parse_line (by decide) (by decide) (by decide) (by decide),
      parse_dataLines (greeting_ne_empty id nodeId) (not_mem_greeting id nodeId), parse_blank]
    simp [fields, Function.comp_def]
  have hfields : fields.foldl (fun c f => c.take f.1 f.2) c =
      ⟨greeting id nodeId ++ "\n", "connected", c.id, c.retry⟩ := by
    rw [List.foldl_cons, Client.foldl_take_data, flatMap_splitAll, String.ofList_append,
      String.ofList_toList]
    show (⟨c.data ++ _, "connected", c.id, c.retry⟩ : Client) = _
    rw [hc.1, String.empty_append]
  rw [hlines, receive_complete hfields, ← hc.eq]
  rfl

/-- A comment tells of nothing. -/
theorem receive_keepAlive {c : Client} (hc : c.IsIdle) (rest : String) :
    c.receive (parse (EventText.keepAlive ++ rest)) = c.receive (parse rest) := by
  have hidle : c.rest = c := by
    rw [hc.eq]
    rfl
  have hnone : c.event? = none := if_pos hc.1
  rw [parse_keepAlive, Client.receive, Client.receive, hidle, hnone]
  rfl

/-- The events that a client should be told of for the pieces of a stream, where `last` is the id that
was given last. -/
def toldOf (last : String) : List Piece → List ClientEvent
  | [] => []
  | .connected id nodeId :: pieces =>
    ⟨"connected", greeting id nodeId, last⟩ :: toldOf last pieces
  | .message m :: pieces => m.told last :: toldOf (m.id.getD last) pieces
  | .comment :: pieces => toldOf last pieces

/-- A client is told of the pieces of a stream, one after the other: by induction on them. -/
theorem receive_pieces {pieces : List Piece} (hpieces : ∀ m, .message m ∈ pieces → Framed m)
    {c : Client} (hc : c.IsIdle) :
    (c.receive (parse (String.join (pieces.map Piece.text)))).2 = toldOf c.id pieces := by
  induction pieces generalizing c with
  | nil => rfl
  | cons p pieces ih =>
    have hrest : ∀ m, .message m ∈ pieces → Framed m :=
      fun m hm => hpieces m (List.mem_cons_of_mem _ hm)
    rw [List.map_cons, String.join_cons]
    cases p with
    | connected id nodeId =>
      rw [Piece.text, receive_connected hc, ih hrest hc]
      rfl
    | message m =>
      have hafter : (c.after m).IsIdle := hc
      rw [Piece.text, (hpieces m List.mem_cons_self).event c _ hc, ih hrest hafter]
      rfl
    | comment =>
      rw [Piece.text, receive_keepAlive hc]
      exact ih hrest hc

/-! ## All ways lead to streams that can be read -/

/-- **Accepted messages keep their form.** A message that was accepted in any of the ways in which
messages are sent, with data that are not empty and have no carriage return, is written as its own
fields and no others, and nothing is left out. Whatever went before and whatever follows, one who
reads the stream is told of one event for it: with the name of the message, or `message` where it has
none; with its data; and with its id, where it has one. A stream of such messages, with its greeting and
with comments in between, is read as the events of its pieces. -/
theorem framed_of_accepted :
    (∀ m : Message, m.Accepted → m.dataText ≠ "" → '\r' ∉ m.dataText.toList → Framed m) ∧
      ∀ pieces : List Piece, (∀ m, .message m ∈ pieces →
        m.Accepted ∧ m.dataText ≠ "" ∧ '\r' ∉ m.dataText.toList) → ∀ c : Client, c.IsIdle →
          (c.receive (parse (String.join (pieces.map Piece.text)))).2 = toldOf c.id pieces := by
  have hframed : ∀ m : Message, m.Accepted → m.dataText ≠ "" → '\r' ∉ m.dataText.toList → Framed m :=
    fun m hm => framed_of_isWellFormed (Message.isWellFormed_of_accepted hm)
  refine ⟨hframed, fun pieces hpieces c hc => receive_pieces (fun m hm => ?_) hc⟩
  obtain ⟨haccepted, hdata, hreturn⟩ := hpieces m hm
  exact hframed m haccepted hdata hreturn

/-- A message whose name has a colon, whose data break, and whose id starts with blanks. -/
theorem framed_of_accepted_awkward :
    let m : Message := ⟨some "a: b", .string "x\n y\n", some "  7"⟩
    let pieces : List Piece := [.connected 1 "a", .comment, .message m, .message m]
    let c : Client := ⟨"", "", "", none⟩
    let told : ClientEvent := ⟨"a: b", "x\n y\n", "  7"⟩
    m.Accepted ∧ Framed m ∧ c.IsIdle ∧
      (c.receive (parse (String.join (pieces.map Piece.text)))).2 =
        [⟨"connected", greeting 1 "a", ""⟩, told, told] := by
  intro m pieces c told
  have hsend : (Registry.create "a" .standard 0).send .all m = .ok (.create "a" .standard 0, 0) := rfl
  have haccepted : m.Accepted := .registry hsend
  have hdata : m.dataText ≠ "" := by decide
  have hreturn : '\r' ∉ m.dataText.toList := by decide
  have hc : c.IsIdle := ⟨rfl, rfl⟩
  have hpieces : ∀ m', .message m' ∈ pieces →
      m'.Accepted ∧ m'.dataText ≠ "" ∧ '\r' ∉ m'.dataText.toList := by
    intro m' hm'
    have hsame : m' = m := by
      simpa [pieces] using hm'
    rw [hsame]
    exact ⟨haccepted, hdata, hreturn⟩
  exact ⟨haccepted, framed_of_accepted.1 m haccepted hdata hreturn, hc,
    framed_of_accepted.2 pieces hpieces c hc⟩

end PushMesh
