import PushMesh.Operation.Wire
import PushMesh.Proofs.Json.Reads
import Mathlib.Data.List.Nodup

/-!
# An operation survives its way over the wire

An operation of any kind is decoded from its text (`Operation.decode_toJson`), however its keys and
its message are spelled, if the numbers in the data of its message are integers of 64 bits and the
whole is not nested too deep.
-/

namespace PushMesh

open Json.Reader

namespace Message

/-- An optional text is left out where it is missing, and read where it is not. -/
theorem fills_text {σ : Type} {name : String} {put : Option String → σ → σ}
    {fields : List (Json.Reader.Field σ)} {written : List (String × Json)} {s s' : σ}
    (o : Option String) (hnone : put none s = s) (h : Fills fields written (put o s) s') :
    Fills (.defaulted name (option string) put :: fields)
      ((o.toList.map fun text => (name, .string text)) ++ written) s s' := by
  cases o with
  | none =>
    rw [hnone] at h
    exact .skip nofun h
  | some text =>
    have hread := reads_option reads_string (fun _ => Json.noConfusion) (some text)
    exact .cons (hread.map put) h

theorem nodup_fields : (fields.map (·.name)).Nodup := by decide

/-- A message is read back if the objects in its data are in order. -/
theorem reads_reader {m : Message} (h : m.data.Sorted) : Reads reader m.toJson m := by
  have hfills : Fills fields ((m.event.toList.map fun s => ("event", .string s)) ++
      ("data", m.data) :: ((m.id.toList.map fun s => ("id", .string s)) ++ [])) default m :=
    fills_text m.event rfl (.cons ((reads_value h).map _) (fills_text m.id rfl (.nil m)))
  have hread := hfills.reads_record nodup_fields
  rw [List.append_nil] at hread
  rw [toJson, List.append_assoc, List.singleton_append]
  exact hread

theorem integral_toJson {m : Message} (h : m.data.Integral) : m.toJson.Integral := by
  refine .object fun e he => ?_
  rcases List.mem_append.1 he with he | he
  · rcases List.mem_append.1 he with he | he
    · obtain ⟨s, -, rfl⟩ := List.mem_map.1 he
      exact .string s
    · obtain rfl := List.mem_singleton.1 he
      exact h
  · obtain ⟨s, -, rfl⟩ := List.mem_map.1 he
    exact .string s

end Message

namespace Operation

/-- The message that an operation sends. -/
def message? : Operation → Option Message
  | send _ m => some m
  | _ => none

/-! ## Arguments -/

/-- A single argument is read from its object. -/
theorem reads_argument {α : Type} [Inhabited α] (name : String) {r : Json.Reader α} {j : Json} {a : α}
    (h : Reads r j a) (f : α → Operation) :
    Reads (argument name r f) (.object [(name, j)]) (f a) :=
  ((Fills.single h name default).reads_objectRecord (List.nodup_singleton _)).map f

/-- An argument and a message are read from their object. -/
theorem reads_argumentAndMessage {α : Type} [Inhabited α] {name : String} (hname : name ≠ "message")
    {r : Json.Reader α} {j : Json} {a : α} (h : Reads r j a) (f : α → Audience) {m : Message}
    (hm : m.data.Sorted) :
    Reads (argumentAndMessage name r f) (.object [(name, j), ("message", m.toJson)])
      (send (f a) m) := by
  have hfills : Fills
      [ .required name r fun a p => (a, p.2),
        .required "message" Message.reader fun m p => (p.1, m) ]
      [(name, j), ("message", m.toJson)] (default, default) (a, m) :=
    .cons (h.map _) (.cons ((Message.reads_reader hm).map _) (.nil (a, m)))
  have hnames : [name, "message"].Nodup :=
    List.nodup_cons.2 ⟨fun hmem => hname (List.mem_singleton.1 hmem), List.nodup_singleton _⟩
  exact (hfills.reads_objectRecord hnames).map fun p => send (f p.1) p.2

/-- A list of ids is read from its value. -/
theorem reads_word_list (ids : List ConnectionId) :
    Reads (list word) (.list (.nat ·.toNat) ids) ids :=
  reads_list fun n _ => reads_word n

/-- A list of keys is read from its value. -/
theorem reads_string_list (keys : List String) : Reads (list string) (.list .string keys) keys :=
  reads_list fun s _ => reads_string s

/-! ## Operations -/

theorem nodup_cases : (cases.map (·.name)).Nodup := by decide

/-- The cases of every kind of key are cases of an operation. -/
theorem mem_cases_of_mem_keyCases {kind : KeyKind} {c : Case Operation} (h : c ∈ keyCases kind) :
    c ∈ cases := by
  refine List.mem_append_left _ (List.mem_flatMap.2 ⟨kind, ?_, h⟩)
  cases kind <;> decide

/-- There is a case for sending by one key of each kind. -/
theorem mem_cases_send_key (kind : KeyKind) :
    .of ("send_by_" ++ kind.name) (argumentAndMessage kind.name string (.key kind)) ∈ cases :=
  mem_cases_of_mem_keyCases (.tail _ (.tail _ (.head _)))

/-- There is a case for sending by several keys of each kind. -/
theorem mem_cases_send_keys (kind : KeyKind) :
    .of ("send_by_" ++ kind.pluralName)
      (argumentAndMessage kind.pluralName (list string) (.keys kind)) ∈ cases :=
  mem_cases_of_mem_keyCases (.tail _ (.tail _ (.tail _ (.head _))))

/-- There is a case for sending to one connection. -/
theorem mem_cases_send_connection :
    .of "send_by_connection_id" (argumentAndMessage "connection_id" word .connection) ∈ cases :=
  List.mem_append_right _ (.tail _ (.head _))

/-- There is a case for sending to everybody. -/
theorem mem_cases_send_all :
    .of "send_all" (argument "message" Message.reader (send .all)) ∈ cases :=
  List.mem_append_right _ (.tail _ (.tail _ (.head _)))

/-- The argument of a send by one key is not taken for the message. -/
theorem name_ne_message (kind : KeyKind) : kind.name ≠ "message" := by
  cases kind <;> decide

/-- The argument of a send by several keys is not taken for the message. -/
theorem pluralName_ne_message (kind : KeyKind) : kind.pluralName ≠ "message" := by
  cases kind <;> decide

/-- An operation with arguments is read by its case. -/
theorem reads_of {name : String} {r : Json.Reader Operation} {j : Json} {op : Operation}
    (h : Reads r j op) (hc : .of name r ∈ cases) :
    Reads reader (.object [("operation", .string name), ("args", j)]) op := by
  have hne : "args" ≠ "operation" := by decide
  exact reads_sum nodup_cases hc hne h

/-- An operation without arguments is read by its name. -/
theorem reads_plain {name : String} {op : Operation} (hc : .plain name op ∈ cases) :
    Reads reader (.object [("operation", .string name)]) op :=
  reads_sum_bare nodup_cases hc "operation" "args" rfl

/-- Sending is read from what it is written as, whoever the audience is. -/
theorem reads_send {audience : Audience} {m : Message} (hm : m.data.Sorted) :
    Reads reader (send audience m).toJson (send audience m) := by
  cases audience with
  | key kind key =>
    have hread := reads_argumentAndMessage (name_ne_message kind) (reads_string key) (.key kind) hm
    exact reads_of hread (mem_cases_send_key kind)
  | connection id =>
    have hname : "connection_id" ≠ "message" := by decide
    have hread := reads_argumentAndMessage hname (reads_word id) .connection hm
    exact reads_of hread mem_cases_send_connection
  | keys kind keys =>
    have hread := reads_argumentAndMessage (pluralName_ne_message kind) (reads_string_list keys)
      (.keys kind) hm
    exact reads_of hread (mem_cases_send_keys kind)
  | all =>
    have hread := reads_argument "message" (Message.reads_reader hm) (send .all)
    exact reads_of hread mem_cases_send_all

/-- A disconnect is read from what it is written as, whichever connections it closes. -/
theorem reads_disconnect (closing : Closing) :
    Reads reader (disconnect closing).toJson (disconnect closing) := by
  cases closing with
  | user key =>
    refine reads_of (reads_argument "user_id" (reads_string key) fun s => disconnect (.user s)) ?_
    exact List.mem_append_right _ (by simp [name])
  | token key =>
    refine reads_of (reads_argument "access_token" (reads_string key)
      fun s => disconnect (.token s)) ?_
    exact List.mem_append_right _ (by simp [name])
  | connection id =>
    refine reads_of (reads_argument "connection_id" (reads_word id)
      fun n => disconnect (.connection n)) ?_
    exact List.mem_append_right _ (by simp [name])
  | connections ids =>
    refine reads_of (reads_argument "connection_ids" (reads_word_list ids)
      fun l => disconnect (.connections l)) ?_
    exact List.mem_append_right _ (by simp [name])

/-- An operation is read back. -/
theorem reads_reader {op : Operation} (h : ∀ m ∈ op.message?, m.data.Sorted) :
    Reads reader op.toJson op := by
  cases op with
  | query kind key =>
    refine reads_of (reads_argument kind.name (reads_string key) (query kind)) ?_
    exact mem_cases_of_mem_keyCases (.head _)
  | queryAll => exact reads_plain (List.mem_append_right _ (by simp [name]))
  | listKeys kind => exact reads_plain (mem_cases_of_mem_keyCases (.tail _ (.head _)))
  | send audience m => exact reads_send (h m rfl)
  | disconnect closing => exact reads_disconnect closing
  | count => exact reads_plain (List.mem_append_right _ (by simp [name]))

/-! ## Texts -/

/-- All numbers of an operation are integers of 64 bits if those of its message are. -/
theorem integral_toJson {op : Operation} (h : ∀ m ∈ op.message?, m.data.Integral) :
    op.toJson.Integral := by
  cases op with
  | send audience m =>
    have hm := Message.integral_toJson (h m rfl)
    cases audience <;> simp [toJson, arguments?, hm]
  | disconnect closing => cases closing <;> simp [toJson, arguments?]
  | query | queryAll | listKeys | count => simp [toJson, arguments?]

/-- **An operation is decoded from its text**, if the data of its message hold no numbers but integers
of 64 bits and are in order, as all data are that were read (`Json.sorted_of_read?`), and if the whole
is not nested too deep. -/
theorem decode_toJson (op : Operation)
    (hdata : ∀ m ∈ op.message?, m.data.Integral ∧ m.data.Sorted)
    (hdepth : op.toJson.depth ≤ Json.greatestDepth) : decode reader op.toJson.text = .ok op :=
  have hread := reads_reader fun m hm => (hdata m hm).2
  hread.decode_text (integral_toJson fun m hm => (hdata m hm).1) hdepth

/-- A message to the connections of two tags, one of them empty and the other full of escapes, whose
data hold the least and the greatest number and nested containers. -/
def proclamation : Operation :=
  .send (.keys .tag ["", "\"\\/\n\x00\x7fé\u2028😀"])
    ⟨some "tick",
      .object
        [ ("", .null),
          ("a", .array [.number (.int (-2 ^ 63)), .number (.int (2 ^ 64 - 1)), .array []]),
          ("b", .object [("\x1f", .bool true)]) ],
      none⟩

/-- A message to everybody is decoded from its text. -/
theorem decode_toJson_proclamation :
    decode reader proclamation.toJson.text = .ok proclamation := by
  refine decode_toJson proclamation ?_ (by decide)
  intro m hm
  obtain rfl := Option.some.inj hm
  exact ⟨by simp, .object (by decide) (by simp)⟩

end Operation

end PushMesh
