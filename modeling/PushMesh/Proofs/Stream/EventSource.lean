import PushMesh.Stream.EventText
import PushMesh.Text.Blank
import Mathlib.Data.List.Basic

/-!
# Reading a stream of events

How a client reads what a stream writes: the text falls into lines, a line is a field or a comment or
ends an event, and the fields of an event add up to what the client is told. Nothing here depends on
how events are written.

A message is written so that its fields are read as they are (`parse_ofMessage`), as long as its data is
not empty and has no carriage return, and its name and id fit on their lines. So the client is told of
one event, with the content of the message (`receive_ofMessage`).
-/

namespace PushMesh

namespace EventSource

/-! ## Lines -/

/-- What a line says. -/
inductive Line where
  /-- The event is complete. -/
  | blank
  | comment
  | field (name value : String)
deriving DecidableEq

/-- The lines of a text that goes on after the beginning of a line. A line ends with a line feed, a
carriage return or both, and what has no end is no line. -/
def linesFrom (line : List Char) : List Char → List (List Char)
  | [] => []
  | '\n' :: cs => line :: linesFrom [] cs
  | '\r' :: '\n' :: cs => line :: linesFrom [] cs
  | '\r' :: cs => line :: linesFrom [] cs
  | c :: cs => linesFrom (line ++ [c]) cs

/-- What a line says: the name of a field ends at the first colon, and its value starts after it or
after a space that follows it. -/
def Line.read : List Char → Line
  | [] => blank
  | ':' :: _ => comment
  | cs =>
    match Text.splitOnce? ':' cs with
    | none => field (String.ofList cs) ""
    | some (name, ' ' :: value) => field (String.ofList name) (String.ofList value)
    | some (name, value) => field (String.ofList name) (String.ofList value)

/-- What the lines of a text say. -/
def parse (s : String) : List Line :=
  (linesFrom [] s.toList).map Line.read

/-! ## Events -/

/-- An event that a client is told of. -/
structure ClientEvent where
  type : String
  data : String
  id : String
deriving DecidableEq

/-- What a client has read of the next event, and what it remembers of those before. -/
structure Client where
  /-- The data so far, each line with its end. -/
  data : String
  /-- The name so far. -/
  name : String
  /-- The id that was given last. -/
  id : String
  /-- The milliseconds after which the client comes back, where that was given. -/
  retry : Option Nat
deriving DecidableEq

/-- A text without the line feed that it ends with. -/
def withoutFeed (s : String) : String :=
  if s.toList.getLast? = some '\n' then String.ofList s.toList.dropLast else s

namespace Client

/-- Takes in a field. Fields with other names do not count, and neither does an id with a NUL. -/
def take (c : Client) (name value : String) : Client :=
  match name with
  | "event" => { c with name := value }
  | "data" => { c with data := c.data ++ value ++ "\n" }
  | "id" => if '\x00' ∈ value.toList then c else { c with id := value }
  | "retry" => { c with retry := (Text.decimal? value.toList).or c.retry }
  | _ => c

/-- The event that is complete. There is none without data. -/
def event? (c : Client) : Option ClientEvent :=
  if c.data = "" then none
  else some ⟨if c.name = "" then "message" else c.name, withoutFeed c.data, c.id⟩

/-- The client before the next event. -/
def rest (c : Client) : Client :=
  { c with data := "", name := "" }

/-- Reads lines, and tells of the events. -/
def receive (c : Client) : List Line → Client × List ClientEvent
  | [] => (c, [])
  | .comment :: ls => c.receive ls
  | .field name value :: ls => (c.take name value).receive ls
  | .blank :: ls => ((c.rest.receive ls).1, c.event?.toList ++ (c.rest.receive ls).2)

/-- Whether a client has read nothing of the next event. -/
def IsIdle (c : Client) : Prop :=
  c.data = "" ∧ c.name = ""

end Client

/-- Between two events a reader holds only the last id and the retry time. -/
theorem Client.IsIdle.eq {c : Client} (hc : c.IsIdle) : c = ⟨"", "", c.id, c.retry⟩ := by
  obtain ⟨hdata, hname⟩ := hc
  cases c with
  | mk data name id retry =>
    rw [show data = "" from hdata, show name = "" from hname]

/-! ## What is written as lines is read as lines -/

variable {line cs rest : List Char}

/-- Whether characters stand on one line. -/
def OnOneLine (cs : List Char) : Prop :=
  ∀ c ∈ cs, c ≠ '\n' ∧ c ≠ '\r'

instance (cs : List Char) : Decidable (OnOneLine cs) :=
  List.decidableBAll (fun c => c ≠ '\n' ∧ c ≠ '\r') cs

/-- A character that ends no line joins the line being read. -/
theorem linesFrom_cons {c : Char} (hfeed : c ≠ '\n') (hreturn : c ≠ '\r') (line cs : List Char) :
    linesFrom line (c :: cs) = linesFrom (line ++ [c]) cs := by
  rw [linesFrom]
  · exact hfeed
  · intro _ h
    exact absurd h hreturn
  · exact hreturn

/-- Characters that end no line go on with it. -/
theorem linesFrom_append (hline : OnOneLine cs) (line rest : List Char) :
    linesFrom line (cs ++ rest) = linesFrom (line ++ cs) rest := by
  induction cs generalizing line with
  | nil => rw [List.nil_append, List.append_nil]
  | cons c cs ih =>
    obtain ⟨hc, hcs⟩ := List.forall_mem_cons.1 hline
    rw [List.cons_append, linesFrom_cons hc.1 hc.2, ih hcs, List.append_assoc, List.singleton_append]

/-- A line feed ends the line being read. -/
theorem linesFrom_feed (line rest : List Char) :
    linesFrom line ('\n' :: rest) = line :: linesFrom [] rest := by
  rw [linesFrom]

/-- An empty line. -/
theorem parse_blank (rest : String) : parse ("\n" ++ rest) = .blank :: parse rest := by
  rw [parse, String.toList_append]
  show (linesFrom [] ('\n' :: rest.toList)).map Line.read = _
  rw [linesFrom_feed]
  rfl

/-- The comment of an idle stream. -/
theorem parse_keepAlive (rest : String) :
    parse (EventText.keepAlive ++ rest) = .comment :: .blank :: parse rest := by
  have hsplit : EventText.keepAlive = ": heartbeat" ++ ("\n" ++ "\n") := rfl
  have hline : OnOneLine ": heartbeat".toList := by decide
  rw [hsplit, String.append_assoc, String.append_assoc, parse, String.toList_append,
    linesFrom_append hline, String.toList_append]
  show ((linesFrom _ ('\n' :: ("\n" ++ rest).toList)).map Line.read) = _
  rw [linesFrom_feed, List.map_cons]
  exact congrArg _ (parse_blank rest)

/-! ### Fields -/

/-- A text is split at the first separator. -/
theorem splitOnce?_append {sep : Char} {name : List Char} (hname : sep ∉ name) (value : List Char) :
    Text.splitOnce? sep (name ++ sep :: value) = some (name, value) := by
  induction name with
  | nil => rw [List.nil_append, Text.splitOnce?, if_pos rfl]
  | cons c name ih =>
    obtain ⟨hc, hname⟩ := List.ne_and_not_mem_of_not_mem_cons hname
    rw [List.cons_append, Text.splitOnce?, if_neg (Ne.symm hc), ih hname]
    rfl

/-- A value is read as it is: just the one space before it is none of it. -/
theorem read_field {name : List Char} (hempty : name ≠ []) (hname : ':' ∉ name) (value : List Char) :
    Line.read (name ++ ':' :: ' ' :: value) = .field (String.ofList name) (String.ofList value) := by
  have hsplit := splitOnce?_append hname (' ' :: value)
  cases name with
  | nil => exact absurd rfl hempty
  | cons c name =>
    have hc : c ≠ ':' := fun h => hname (h ▸ List.mem_cons_self)
    rw [List.cons_append] at hsplit ⊢
    unfold Line.read
    split
    · next h => cases h
    · next h => exact absurd (List.cons.inj h).1 hc
    · rw [hsplit]
      rfl

/-- A line of an event is a field. -/
theorem parse_line {name value : String} (hempty : name ≠ "") (hname : OnOneLine name.toList)
    (hcolon : ':' ∉ name.toList) (hvalue : OnOneLine value.toList) (rest : String) :
    parse (EventText.line name value ++ rest) = .field name value :: parse rest := by
  have hline : OnOneLine (name.toList ++ ':' :: ' ' :: value.toList) := by
    refine List.forall_mem_append.2 ⟨hname, ?_⟩
    exact List.forall_mem_cons.2 ⟨by decide, List.forall_mem_cons.2 ⟨by decide, hvalue⟩⟩
  have htext : (EventText.line name value ++ rest).toList =
      (name.toList ++ ':' :: ' ' :: value.toList) ++ '\n' :: rest.toList := by
    simp [EventText.line, String.toList_append]
  have hfirst : name.toList ≠ [] := fun h => hempty (String.toList_eq_nil_iff.1 h)
  rw [parse, htext, linesFrom_append hline, linesFrom_feed, List.map_cons, List.nil_append,
    read_field hfirst hcolon, String.ofList_toList, String.ofList_toList]
  rfl

/-! ### Data -/

/-- Splitting a text gives at least one part. -/
theorem exists_splitAll (sep : Char) (cs : List Char) :
    ∃ part parts, Text.splitAll sep cs = part :: parts := by
  cases cs with
  | nil => exact ⟨_, _, rfl⟩
  | cons c cs =>
    rw [Text.splitAll]
    split
    · exact ⟨_, _, rfl⟩
    · split <;> exact ⟨_, _, rfl⟩

/-- Parts with a separator between each two are what was split. -/
theorem flatMap_splitAll (sep : Char) (cs : List Char) :
    (Text.splitAll sep cs).flatMap (· ++ [sep]) = cs ++ [sep] := by
  induction cs with
  | nil => rfl
  | cons c cs ih =>
    obtain ⟨part, parts, hsplit⟩ := exists_splitAll sep cs
    rw [hsplit, List.flatMap_cons] at ih
    rw [Text.splitAll]
    split
    · next hc => rw [hsplit, List.flatMap_cons, List.flatMap_cons, ih, hc]; rfl
    · rw [hsplit]
      dsimp only
      rw [List.flatMap_cons, List.cons_append, List.cons_append, ih]
      rfl

/-- Where the data breaks, another line of data starts. -/
theorem linesFrom_dataChars (hcs : '\r' ∉ cs) {part : List Char} {parts : List (List Char)}
    (hsplit : Text.splitAll '\n' cs = part :: parts) (line rest : List Char) :
    linesFrom line (EventText.dataChars cs ++ '\n' :: rest) =
      (line ++ part) :: (parts.map ("data: ".toList ++ ·) ++ linesFrom [] rest) := by
  have hprefix : OnOneLine "data: ".toList := by decide
  induction cs generalizing line part parts with
  | nil =>
    obtain ⟨rfl, rfl⟩ := List.cons.inj hsplit
    rw [List.append_nil]
    exact linesFrom_feed line rest
  | cons c cs ih =>
    obtain ⟨hreturn, hcs⟩ := List.ne_and_not_mem_of_not_mem_cons hcs
    obtain ⟨first, others, hothers⟩ := exists_splitAll '\n' cs
    rw [Text.splitAll, hothers] at hsplit
    rw [EventText.dataChars, List.flatMap_cons, ← EventText.dataChars]
    -- a line feed in the data ends the line, and the next one gets the field name too
    by_cases hc : c = '\n'
    · rw [if_pos hc] at hsplit
      obtain ⟨rfl, rfl⟩ := List.cons.inj hsplit
      rw [if_pos (.inl hc), hc, List.cons_append, List.cons_append, linesFrom_feed, List.append_assoc,
        linesFrom_append hprefix, ih hcs hothers, List.append_nil]
      rfl
    · rw [if_neg hc] at hsplit
      obtain ⟨rfl, rfl⟩ := List.cons.inj hsplit
      rw [if_neg (not_or.2 ⟨hc, Ne.symm hreturn⟩), List.singleton_append, List.cons_append,
        linesFrom_cons hc (Ne.symm hreturn), ih hcs hothers, List.append_assoc,
        List.singleton_append]

/-- The lines of the data, as it is written. -/
theorem parse_dataLines {s : String} (hs : s ≠ "") (hreturn : '\r' ∉ s.toList) (rest : String) :
    parse (EventText.dataLines s ++ rest) =
      (Text.splitAll '\n' s.toList).map (fun part => .field "data" (String.ofList part)) ++
        parse rest := by
  have hprefix : OnOneLine "data: ".toList := by decide
  have hread : ∀ part : List Char,
      Line.read ("data: ".toList ++ part) = .field "data" (String.ofList part) :=
    fun part => @read_field "data".toList (by decide) (by decide) part
  have htext : (EventText.dataLines s ++ rest).toList =
      "data: ".toList ++ (EventText.dataChars s.toList ++ '\n' :: rest.toList) := by
    have hempty : s.toList.isEmpty = false := by
      simpa using hs
    simp [EventText.dataLines, hempty, String.toList_append]
  obtain ⟨part, parts, hsplit⟩ := exists_splitAll '\n' s.toList
  rw [parse, htext, linesFrom_append hprefix, linesFrom_dataChars hreturn hsplit, hsplit,
    List.map_cons, List.map_append, List.map_map, List.nil_append, hread]
  have hmap : parts.map (Line.read ∘ ("data: ".toList ++ ·)) =
      parts.map fun part => .field "data" (String.ofList part) :=
    List.map_congr_left fun part _ => hread part
  rw [hmap]
  rfl

/-! ### Messages -/

/-- A field's text fits on one line. -/
theorem onOneLine_of_isFieldText (h : Message.isFieldText s = true) : OnOneLine s.toList := by
  intro c hc
  have hall := List.all_eq_true.1 h c hc
  simp only [Bool.and_eq_true, decide_eq_true_eq] at hall
  exact ⟨hall.1.1, hall.1.2⟩

/-- The line of a field that is there if the field is. -/
theorem parse_optionalLine {name : String} {value : Option String} (hempty : name ≠ "")
    (hname : OnOneLine name.toList) (hcolon : ':' ∉ name.toList)
    (hvalue : value.all Message.isFieldText = true) (rest : String) :
    parse (EventText.optionalLine name value ++ rest) =
      value.toList.map (.field name) ++ parse rest := by
  cases value with
  | none => rfl
  | some value =>
    have hline : EventText.optionalLine name (some value) = EventText.line name value := by
      have hfits : Message.isFieldText value = true := hvalue
      rw [EventText.optionalLine, Option.filter_some, if_pos hfits]
    rw [hline, parse_line hempty hname hcolon (onOneLine_of_isFieldText hvalue)]
    rfl

end EventSource

namespace Message

/-- The fields that an event of a message should have: its data line by line, its name and its id. -/
def eventFields (m : Message) : List (String × String) :=
  (Text.splitAll '\n' m.dataText.toList).map (fun part => ("data", String.ofList part)) ++
    m.event.toList.map (("event", ·)) ++ m.id.toList.map (("id", ·))

/-- The event that a client should be told of for a message, where `last` is the id given last. -/
def told (m : Message) (last : String) : EventSource.ClientEvent where
  type := if m.event.getD "" = "" then "message" else m.event.getD ""
  data := m.dataText
  id := m.id.getD last

end Message

namespace EventSource

variable {m : Message}

/-- A message is written as its fields and nothing else, and no field is split, dropped or added. -/
theorem parse_ofMessage (hm : m.isWellFormed = true) (hdata : m.dataText ≠ "")
    (hreturn : '\r' ∉ m.dataText.toList) (rest : String) :
    parse (EventText.ofMessage m ++ rest) =
      m.eventFields.map (fun f => .field f.1 f.2) ++ .blank :: parse rest := by
  obtain ⟨hevent, hid⟩ := Bool.and_eq_true_iff.1 hm
  have hevents : OnOneLine "event".toList := by decide
  have hids : OnOneLine "id".toList := by decide
  rw [EventText.ofMessage, String.append_assoc, String.append_assoc, String.append_assoc,
    parse_dataLines hdata hreturn, parse_optionalLine (by decide) hevents (by decide) hevent,
    parse_optionalLine (by decide) hids (by decide) hid, parse_blank]
  simp [Message.eventFields, Function.comp_def]

/-! ## What the client is told -/

namespace Client

variable {c : Client}

/-- Fields tell of nothing yet. -/
theorem receive_fields (c : Client) (fields : List (String × String)) (ls : List Line) :
    c.receive (fields.map (fun f => .field f.1 f.2) ++ ls) =
      (fields.foldl (fun c f => c.take f.1 f.2) c).receive ls := by
  induction fields generalizing c with
  | nil => rfl
  | cons f fields ih => exact ih (c.take f.1 f.2)

/-- Lines of data add up. -/
theorem foldl_take_data (c : Client) (parts : List (List Char)) :
    (parts.map fun part => ("data", String.ofList part)).foldl (fun c f => c.take f.1 f.2) c =
      { c with data := c.data ++ String.ofList (parts.flatMap (· ++ ['\n'])) } := by
  induction parts generalizing c with
  | nil => simp
  | cons part parts ih =>
    rw [List.map_cons, List.foldl_cons, ih, List.flatMap_cons, String.ofList_append,
      String.ofList_append]
    simp only [take, String.append_assoc]

end Client

/-- The line feed that was added at the end is taken off again. -/
theorem withoutFeed_append (s : String) : withoutFeed (s ++ "\n") = s := by
  have hchars : (s ++ "\n").toList = s.toList ++ ['\n'] := String.toList_append
  rw [withoutFeed, hchars, List.getLast?_concat, if_pos rfl, List.dropLast_concat,
    String.ofList_toList]

/-- The client after an event with an id of its own. -/
def Client.after (c : Client) (m : Message) : Client :=
  { c with id := m.id.getD c.id }

/-- The fields of a message add up to its event. -/
theorem foldl_take_eventFields {c : Client} (hc : c.IsIdle) (hm : m.isWellFormed = true) :
    m.eventFields.foldl (fun c f => c.take f.1 f.2) c =
      ⟨m.dataText ++ "\n", m.event.getD "", m.id.getD c.id, c.retry⟩ := by
  obtain ⟨hcdata, hcname⟩ := hc
  obtain ⟨-, hid⟩ := Bool.and_eq_true_iff.1 hm
  -- each line of the data adds itself and a line feed
  have hjoined : String.ofList ((Text.splitAll '\n' m.dataText.toList).flatMap (· ++ ['\n'])) =
      m.dataText ++ "\n" := by
    rw [flatMap_splitAll, String.ofList_append, String.ofList_toList]
  -- the event name and the id are set once, if they are given
  have hname : ∀ c : Client, c.name = "" → (m.event.toList.map (("event", ·))).foldl
      (fun c f => c.take f.1 f.2) c = { c with name := m.event.getD "" } := by
    intro c hc
    cases m.event with
    | none => exact congrArg (fun name => { c with name }) hc
    | some name => rfl
  have hlast : ∀ c : Client, (m.id.toList.map (("id", ·))).foldl
      (fun c f => c.take f.1 f.2) c = { c with id := m.id.getD c.id } := by
    intro c
    cases hmid : m.id with
    | none => rfl
    | some id =>
      rw [hmid] at hid
      -- a reader ignores an id with a null character, and there is none in it
      have hnul : '\x00' ∉ id.toList := by
        intro hmem
        have hall := List.all_eq_true.1 hid _ hmem
        simp at hall
      show (if '\x00' ∈ id.toList then c else { c with id }) = _
      rw [if_neg hnul]
      rfl
  rw [Message.eventFields, List.foldl_append, List.foldl_append, Client.foldl_take_data, hjoined,
    hcdata, String.empty_append, hname ⟨m.dataText ++ "\n", c.name, c.id, c.retry⟩ hcname, hlast]

/-- With an empty line the client is told of what its fields added up to. -/
theorem receive_complete {c : Client} {fields : List (String × String)} {data name id : String}
    {retry : Option Nat}
    (hfields : fields.foldl (fun c f => c.take f.1 f.2) c = ⟨data ++ "\n", name, id, retry⟩)
    (ls : List Line) : c.receive (fields.map (fun f => .field f.1 f.2) ++ .blank :: ls) =
      (((⟨"", "", id, retry⟩ : Client).receive ls).1,
        ⟨if name = "" then "message" else name, data, id⟩ ::
          ((⟨"", "", id, retry⟩ : Client).receive ls).2) := by
  let full : Client := ⟨data ++ "\n", name, id, retry⟩
  have hevent : full.event? = some ⟨if name = "" then "message" else name, data, id⟩ := by
    have hsome : full.data ≠ "" := by
      intro h
      have hchars := congrArg String.toList h
      simp [full] at hchars
    rw [Client.event?, if_neg hsome, withoutFeed_append]
  rw [Client.receive_fields, hfields, Client.receive, hevent]
  rfl

/-- A client that is between two events reads a message as its event and as nothing else, and is
between two events again. -/
theorem receive_ofMessage {c : Client} (hc : c.IsIdle) (hm : m.isWellFormed = true)
    (hdata : m.dataText ≠ "") (hreturn : '\r' ∉ m.dataText.toList) (rest : String) :
    c.receive (parse (EventText.ofMessage m ++ rest)) =
      (((c.after m).receive (parse rest)).1, m.told c.id :: ((c.after m).receive (parse rest)).2) := by
  have hafter : c.after m = ⟨"", "", m.id.getD c.id, c.retry⟩ := by
    rw [Client.after, hc.eq]
  rw [parse_ofMessage hm hdata hreturn, receive_complete (foldl_take_eventFields hc hm), hafter]
  rfl

end EventSource

end PushMesh
