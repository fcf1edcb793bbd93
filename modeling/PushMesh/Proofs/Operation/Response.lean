import PushMesh.Failure
import PushMesh.Operation.Wire
import PushMesh.Proofs.Json.Reads
import PushMesh.Proofs.Time.Rfc3339
import Mathlib.Data.List.Nodup

/-!
# An answer survives its way over the wire

A response of a peer is decoded from its text, and so are the failures that are recorded of calls
(`decode_answer`). Of the descriptors in a response only the years must be those that are written
without a sign.
-/

namespace PushMesh

open Json.Reader

/-! ## Descriptors -/

namespace Descriptor

/-- An instant is read from its text. -/
theorem reads_instantReader {t : Instant} (hlow : 0 ≤ t.year) (hhigh : t.year ≤ 9999) :
    Reads instantReader (.string t.text) t := by
  intro depth ts hdepth
  rw [instantReader, bind_run _ (reads_string t.text depth ts hdepth),
    Instant.parse?_text hlow hhigh]
  rfl

theorem nodup_fields : (fields.map (·.name)).Nodup := by decide

/-- A descriptor is read back. -/
theorem reads_reader {d : Descriptor} (hlow : 0 ≤ d.connectedAt.year)
    (hhigh : d.connectedAt.year ≤ 9999) : Reads reader d.toJson d := by
  have htext (o : Option String) : Reads (option string) (.option .string o) o :=
    reads_option reads_string (fun _ => Json.noConfusion) o
  have htags : Reads (list string) (.list .string d.tags) d.tags :=
    reads_list fun s _ => reads_string s
  have hfills : Fills fields _ default d :=
    .cons ((reads_word d.id).map _) <|
    .cons ((reads_string d.nodeId).map _) <|
    .cons ((htext d.userId).map _) <|
    .cons ((htext d.accessToken).map _) <|
    .cons (htags.map _) <|
    .cons ((reads_instantReader hlow hhigh).map _) <|
    .cons ((reads_bool d.alive).map _) <|
    .cons ((reads_word d.delivered).map _) <|
    .nil d
  exact hfills.reads_record nodup_fields

theorem integral_toJson (d : Descriptor) : d.toJson.Integral := by
  simp [toJson]

theorem depth_toJson_le (d : Descriptor) : d.toJson.depth ≤ 2 := by
  have htext (o : Option String) : (Json.option .string o).depth ≤ 1 :=
    Json.depth_option_le fun _ _ => Nat.zero_le 1
  have htags : (Json.list .string d.tags).depth ≤ 1 := Json.depth_list_le fun _ _ => Nat.le_refl 0
  refine Json.depth_object_le_iff.2 ⟨_, rfl, ?_⟩
  simp [Json.depth, Json.nat, htext, htags]

end Descriptor

/-! ## Responses -/

namespace Output

/-- An answer is read back. -/
theorem reads_reader {o : Output} (h : ∀ l, o = .connections l →
      ∀ d ∈ l, 0 ≤ d.connectedAt.year ∧ d.connectedAt.year ≤ 9999) :
    Reads reader o.toJson o := by
  have hne : "data" ≠ "kind" := by decide
  cases o with
  | count n =>
    exact reads_sum (by decide) (.head _) hne ((reads_word n).map count)
  | connections l =>
    have hlist : Reads (list Descriptor.reader) (.list Descriptor.toJson l) l :=
      reads_list fun d hd => Descriptor.reads_reader (h l rfl d hd).1 (h l rfl d hd).2
    exact reads_sum (by decide) (.tail _ (.head _)) hne (hlist.map connections)
  | keys l =>
    have hlist : Reads (list string) (.list .string l) l := reads_list fun s _ => reads_string s
    exact reads_sum (by decide) (.tail _ (.tail _ (.head _))) hne (hlist.map keys)

theorem integral_toJson (o : Output) : o.toJson.Integral := by
  cases o <;> simp [toJson, data, Descriptor.integral_toJson]

theorem depth_toJson_le (o : Output) : o.toJson.depth ≤ 4 := by
  have hdata : o.data.depth ≤ 3 := by
    cases o with
    | count n => exact Nat.zero_le 3
    | connections l => exact Json.depth_list_le fun d _ => d.depth_toJson_le
    | keys l => exact Json.depth_list_le fun _ _ => Nat.zero_le 2
  refine Json.depth_object_le_iff.2 ⟨_, rfl, ?_⟩
  simp [Json.depth, hdata]

end Output

namespace Response

/-- A response is read back. -/
theorem reads_reader {r : Response} (h : ∀ l, r = .ok (.connections l) →
      ∀ d ∈ l, 0 ≤ d.connectedAt.year ∧ d.connectedAt.year ≤ 9999) :
    Reads reader r.toJson r := by
  cases r with
  | ok value =>
    have hvalue : Reads Output.reader value.toJson value :=
      Output.reads_reader fun l hl => h l (congrArg ok hl)
    have hfields := (Fills.single hvalue "value" default).reads_record (List.nodup_singleton _)
    exact reads_flatSum (by decide) (.head _) (by simp) (hfields.map ok)
  | error text =>
    have hfields :=
      (Fills.single (reads_string text) "error" "").reads_record (List.nodup_singleton _)
    exact reads_flatSum (by decide) (.tail _ (.head _)) (by simp) (hfields.map error)

theorem integral_toJson (r : Response) : r.toJson.Integral := by
  cases r <;> simp [toJson, Output.integral_toJson]

theorem depth_toJson_le (r : Response) : r.toJson.depth ≤ 5 := by
  cases r with
  | ok value =>
    have hvalue := value.depth_toJson_le
    refine Json.depth_object_le_iff.2 ⟨_, rfl, ?_⟩
    simp [Json.depth, hvalue]
  | error text =>
    refine Json.depth_object_le_iff.2 ⟨_, rfl, ?_⟩
    simp [Json.depth]

end Response

/-! ## Failures -/

namespace PeerError

/-- A failure is read back. -/
theorem reads_reader (e : PeerError) : Reads reader e.toJson e := by
  cases e with
  | transport message timedOut =>
    have hfills : Fills
        [ .required "message" string fun s p => (s, p.2),
          .defaulted "timed_out" bool fun b p => (p.1, b) ]
        [("message", .string message), ("timed_out", .bool timedOut)] ("", false)
        (message, timedOut) :=
      .cons ((reads_string message).map _) (.cons ((reads_bool timedOut).map _) (.nil _))
    have hread : Reads transportReader _ (transport message timedOut) :=
      (hfills.reads_record (by decide)).map _
    exact reads_flatSum (by decide) (.head _) (by simp) hread
  | domain message =>
    have hfields :=
      (Fills.single (reads_string message) "message" "").reads_record (List.nodup_singleton _)
    exact reads_flatSum (by decide) (.tail _ (.head _)) (by simp) (hfields.map domain)

theorem integral_toJson (e : PeerError) : e.toJson.Integral := by
  cases e <;> simp [toJson]

theorem depth_toJson (e : PeerError) : e.toJson.depth = 1 := by
  cases e <;> rfl

end PeerError

namespace NodeFailure

theorem nodup_fields : (fields.map (·.name)).Nodup := by decide

/-- A recorded failure is read back. -/
theorem reads_reader (f : NodeFailure) : Reads reader f.toJson f := by
  have hfills : Fills fields _ default f :=
    .cons ((reads_string f.nodeId).map _) <|
    .cons ((reads_string f.address).map _) <|
    .cons (f.error.reads_reader.map _) <|
    .nil f
  exact hfills.reads_record nodup_fields

theorem integral_toJson (f : NodeFailure) : f.toJson.Integral := by
  simp [toJson, PeerError.integral_toJson]

theorem depth_toJson_le (f : NodeFailure) : f.toJson.depth ≤ 2 := by
  refine Json.depth_object_le_iff.2 ⟨_, rfl, ?_⟩
  simp [Json.depth, PeerError.depth_toJson]

end NodeFailure

/-! ## Texts -/

/-- **Responses and failures are decoded from their texts**: every failure of a call, every failure
recorded beside a result, and every response whose descriptors, if it lists any, are of the years 0 to
9999. -/
theorem decode_answer (r : Response) (e : PeerError) (f : NodeFailure)
    (h : ∀ l, r = .ok (.connections l) →
      ∀ d ∈ l, 0 ≤ d.connectedAt.year ∧ d.connectedAt.year ≤ 9999) :
    decode Response.reader r.toJson.text = .ok r ∧
      decode PeerError.reader e.toJson.text = .ok e ∧
      decode NodeFailure.reader f.toJson.text = .ok f := by
  refine ⟨?_, ?_, ?_⟩
  · have hdepth := r.depth_toJson_le
    exact (Response.reads_reader h).decode_text r.integral_toJson (hdepth.trans (by decide))
  · have hdepth := e.depth_toJson
    exact e.reads_reader.decode_text e.integral_toJson (hdepth.trans_le (by decide))
  · have hdepth := f.depth_toJson_le
    exact f.reads_reader.decode_text f.integral_toJson (hdepth.trans (by decide))

/-- A connection without a user since the last moment of the leap day of the year 0. -/
def veteran : Descriptor :=
  { id := 18446744073709551615, nodeId := "b", userId := none, accessToken := some "\"\x00\u2028",
    tags := ["", "ä"], connectedAt := ⟨0, 2, 29, 23, 59, 59, 999999999, by decide⟩, alive := true,
    delivered := 0 }

/-- A response, an error and a failure are each decoded from their text. -/
theorem decode_answer_veteran :
    decode Response.reader (Response.ok (.connections [veteran])).toJson.text =
        .ok (.ok (.connections [veteran])) ∧
      decode PeerError.reader (PeerError.timeout 1500).toJson.text = .ok (.timeout 1500) ∧
      decode NodeFailure.reader (⟨"b", "http://b", .domain ""⟩ : NodeFailure).toJson.text =
        .ok ⟨"b", "http://b", .domain ""⟩ := by
  refine decode_answer (.ok (.connections [veteran])) (.timeout 1500)
    ⟨"b", "http://b", .domain ""⟩ ?_
  intro l hl d hd
  obtain rfl : [veteran] = l := Output.connections.inj (Response.ok.inj hl)
  obtain rfl := List.mem_singleton.1 hd
  exact ⟨by decide, by decide⟩

end PushMesh
