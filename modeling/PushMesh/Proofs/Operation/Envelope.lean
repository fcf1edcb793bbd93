import PushMesh.Proofs.Json.Depth
import PushMesh.Proofs.Operation.Wire

/-!
# How deep a message stands in an operation

The data of a message stand in three containers when the message is sent to a peer: the message, the
arguments and the operation (`Operation.depth_toJson_send`). An operation whose data are within what is
left is decoded, and any other one is malformed (`Operation.decode_send`). The data of a message that was
read stand in one container less than the reader may open (`Message.yields_reader`).
-/

namespace PushMesh

open Json.Reader

namespace Message

variable {m : Message} {d : Nat}

theorem depth_toJson (m : Message) : m.toJson.depth = m.data.depth + 1 := by
  obtain ⟨event, data, id⟩ := m
  cases event <;> cases id <;> simp [toJson, Json.depth, Json.fieldsDepth]

/-- A message that is read has data in order, no deeper than what its own container leaves. -/
theorem yields_reader (d : Nat) :
    Yields reader (d + 1) fun m => m.data.Sorted ∧ m.data.depth ≤ d := by
  refine yields_record ?_ ⟨.null, Nat.zero_le d⟩
  intro f hf
  simp only [fields, List.mem_cons, List.not_mem_nil, or_false] at hf
  rcases hf with rfl | rfl | rfl
  · exact (yields_any _ d).map fun _ _ _ hm => hm
  · exact (yields_value d).map fun _ hdata _ _ => hdata
  · exact (yields_any _ d).map fun _ _ _ hm => hm

/-- An optional text is read or left out before a field that is malformed. -/
theorem stops_text {σ : Type} {name : String} {put : Option String → σ → σ}
    {fields : List (Json.Reader.Field σ)} {written : List (String × Json)} (o : Option String)
    (h : Stops d fields written) : Stops d (.defaulted name (option string) put :: fields)
      ((o.toList.map fun text => (name, .string text)) ++ written) := by
  cases o with
  | none => exact .skip nofun h
  | some text =>
    have hread := reads_option reads_string (fun _ => Json.noConfusion) (some text)
    exact .read (hread.map put) (Nat.zero_le d) h

/-- A message is malformed if its data are nested too deep. -/
theorem denies_reader (h : d < m.data.depth) : Denies reader m.toJson (d + 1) := by
  have hstops : Stops d fields ((m.event.toList.map fun s => ("event", .string s)) ++
      ("data", m.data) :: m.id.toList.map fun s => ("id", .string s)) :=
    stops_text m.event (.here ((denies_value h).map _))
  rw [toJson, List.append_assoc, List.singleton_append]
  exact hstops.denies_record nodup_fields default

end Message

namespace Operation

variable {m : Message} {d : Nat}

/-- The data of a message stand in three containers. -/
theorem depth_toJson_send (audience : Audience) (m : Message) :
    (send audience m).toJson.depth = m.data.depth + 3 := by
  have hm := m.depth_toJson
  cases audience with
  | key | connection | all => simp [toJson, arguments?, Json.depth, Json.fieldsDepth, Json.nat, hm]
  | keys kind keys =>
    have hkeys : (Json.list .string keys).depth ≤ m.data.depth + 1 :=
      Nat.le_trans (Json.depth_list_le fun _ _ => Nat.le_refl 0) (Nat.le_add_left 1 _)
    simpa [toJson, arguments?, Json.depth, Json.fieldsDepth, hm] using hkeys

/-- An operation is denied if its arguments are. -/
theorem denies_of {name : String} {r : Json.Reader Operation} {j : Json} (h : Denies r j d)
    (hc : .of name r ∈ cases) :
    Denies reader (.object [("operation", .string name), ("args", j)]) (d + 1) := by
  have hne : "args" ≠ "operation" := by decide
  exact denies_sum nodup_cases hc hne h

/-- A single argument that is denied has its object denied. -/
theorem denies_argument {α : Type} [Inhabited α] (name : String) {r : Json.Reader α} {j : Json}
    (h : Denies r j d) (f : α → Operation) :
    Denies (argument name r f) (.object [(name, j)]) (d + 1) := by
  have hstops : Stops d [.required name r fun a (_ : α) => a] [(name, j)] := .here (h.map _)
  exact (hstops.denies_objectRecord (List.nodup_singleton _) default).map f

/-- A message whose data is too deep has its object denied. -/
theorem denies_argumentAndMessage {α : Type} [Inhabited α] {name : String} (hname : name ≠ "message")
    {r : Json.Reader α} {j : Json} {a : α} (h : Reads r j a) (hj : j.depth ≤ d + 1)
    (f : α → Audience) (hm : d < m.data.depth) :
    Denies (argumentAndMessage name r f) (.object [(name, j), ("message", m.toJson)]) (d + 2) := by
  have hstops : Stops (d + 1)
      [ .required name r fun a (p : α × Message) => (a, p.2),
        .required "message" Message.reader fun m p => (p.1, m) ]
      [(name, j), ("message", m.toJson)] :=
    .read (h.map _) hj (.here ((Message.denies_reader hm).map _))
  have hnames : [name, "message"].Nodup :=
    List.nodup_cons.2 ⟨fun hmem => hname (List.mem_singleton.1 hmem), List.nodup_singleton _⟩
  exact (hstops.denies_objectRecord hnames (default, default)).map fun p => send (f p.1) p.2

/-- An operation is malformed if the data of its message are nested too deep. -/
theorem denies_send (audience : Audience) (hm : d < m.data.depth) :
    Denies reader (send audience m).toJson (d + 3) := by
  cases audience with
  | key kind key =>
    have hdeny := denies_argumentAndMessage (name_ne_message kind) (reads_string key)
      (Nat.zero_le _) (.key kind) hm
    exact denies_of hdeny (mem_cases_send_key kind)
  | connection id =>
    have hname : "connection_id" ≠ "message" := by decide
    have hdeny := denies_argumentAndMessage hname (reads_word id) (Nat.zero_le _) .connection hm
    exact denies_of hdeny mem_cases_send_connection
  | keys kind keys =>
    have hkeys : (Json.list .string keys).depth ≤ d + 1 :=
      Json.depth_list_le fun _ _ => Nat.zero_le d
    have hdeny := denies_argumentAndMessage (pluralName_ne_message kind) (reads_string_list keys)
      hkeys (.keys kind) hm
    exact denies_of hdeny (mem_cases_send_keys kind)
  | all =>
    have hdeny := denies_argument "message" (Message.denies_reader hm) (send .all)
    exact denies_of hdeny mem_cases_send_all

/-- **A message that is sent on is decoded just if it fits.** Its data must leave room for three more
containers. -/
theorem decode_send (audience : Audience) (hintegral : m.data.Integral) (hsorted : m.data.Sorted) :
    decode reader (send audience m).toJson.text =
      if m.data.depth + 3 ≤ Json.greatestDepth then .ok (send audience m) else .error .malformed := by
  have hj : (send audience m).toJson.Integral :=
    integral_toJson fun m' hm' => Option.some.inj hm' ▸ hintegral
  split
  · next hfits =>
    rw [← depth_toJson_send audience] at hfits
    exact (reads_send hsorted).decode_text hj hfits
  · next hdeep =>
    have hm : 124 < m.data.depth := by
      rw [Json.greatestDepth] at hdeep
      omega
    exact (denies_send audience hm : Denies _ _ Json.greatestDepth).decode_text hj

end Operation

end PushMesh
