import PushMesh.Proofs.Api.Request
import PushMesh.Proofs.Mesh.Deeds
import PushMesh.Proofs.Registry.Admission
import PushMesh.Proofs.Registry.Effect
import PushMesh.Proofs.Text

/-!
# Under which keys a stream is found

A client that opens a stream gives the keys of its connection in the query of its request, and perhaps a
token in a header (`Identified`). What a registry lists under a key that is not blank is within reach of
all operations that name the key (`Registry.addressable`), and no operation that names a blank key is
run. The fields of the query are trimmed and left out where nothing remains, but a token in the header
is taken as it is, so the only key by which a client may be out of reach is such a token
(`Mesh.identified_respond`).
-/

namespace PushMesh

open Http (Answer Form Request)

/-! ## What a client says of itself -/

namespace Action

variable {s key : String}

/-- A value is used without the blanks around it. -/
theorem nonBlank_eq_some_iff : nonBlank s = some key ↔
    key = Text.trimmed s ∧ Text.isBlankText s = false := by
  rw [nonBlank, Option.filter_eq_some_iff, Option.some.injEq, ← Bool.not_eq_true,
    ← Text.trimmed_eq_empty_iff]
  constructor
  · rintro ⟨rfl, hkept⟩
    exact ⟨rfl, by simpa using hkept⟩
  · rintro ⟨rfl, hkept⟩
    exact ⟨rfl, by simpa using hkept⟩

/-- A text gives nothing iff it is blank. -/
theorem nonBlank_eq_none_iff : nonBlank s = none ↔ Text.isBlankText s = true := by
  simp [nonBlank, Option.filter_eq_none_iff, Text.trimmed_eq_empty_iff]

/-- What a value is used as is not blank. -/
theorem isBlankText_of_nonBlank (h : nonBlank s = some key) : Text.isBlankText key = false := by
  obtain ⟨rfl, hs⟩ := nonBlank_eq_some_iff.1 h
  rw [Text.isBlankText_trimmed, hs]

/-- Whether a field of a query gives a key. -/
def Gives (form : Form) (name key : String) : Prop :=
  ∃ value, form.value? name = some value ∧ key = Text.trimmed value ∧
    Text.isBlankText value = false

/-- A form gives the first value of a name, unless that is blank. -/
theorem gives_iff {form : Form} {name : String} :
    Gives form name key ↔ (form.value? name).bind nonBlank = some key := by
  simp only [Gives, Option.bind_eq_some_iff, nonBlank_eq_some_iff]

end Action

/-- The keys of a connection are those that a client gives: in the fields of the query, of which blank
ones do not count, or a token in a header, if the query gives none. -/
structure Identified (form : Form) (bearer : Option String) (c : Connection) : Prop where
  user : ∀ key, key ∈ c.keys .user ↔ Action.Gives form "user_id" key
  token : ∀ key, key ∈ c.keys .token ↔ Action.Gives form "access_token" key ∨
    (∀ value, form.value? "access_token" = some value → Text.isBlankText value = true) ∧
      bearer = some key ∧ key ≠ ""
  /-- A list of tags is split at its commas. -/
  tag : ∀ key, key ∈ c.keys .tag ↔ ∃ value, form.value? "tags" = some value ∧
    ∃ part ∈ Text.splitAll ',' value.toList, key = Text.trimmed (.ofList part) ∧
      Text.isBlankText (.ofList part) = false

/-- A new connection is identified by the form and the token that came with it. -/
theorem identified_create (form : Form) (bearer : Option String) (id : ConnectionId)
    (connectedAt : Instant) (capacity : Nat) :
    Identified form bearer
      (Connection.create id (Action.owner form bearer) connectedAt capacity) where
  user key := by
    rw [Connection.mem_keys_create, Owner.keys, Option.mem_toList, Action.gives_iff]
    rfl
  token key := by
    rw [Connection.mem_keys_create, Owner.keys, Option.mem_toList, Action.gives_iff]
    simp only [Action.owner, Option.filter_eq_some_iff, Option.or_eq_some_iff]
    constructor
    · rintro ⟨hgiven | ⟨hnone, hbearer⟩, hne⟩
      · exact .inl hgiven
      · refine .inr ⟨fun value hvalue => ?_, hbearer, by simpa using hne⟩
        rw [hvalue, Option.bind_some] at hnone
        exact Action.nonBlank_eq_none_iff.1 hnone
    · rintro (hgiven | ⟨hblank, hbearer, hne⟩)
      · refine ⟨.inl hgiven, ?_⟩
        obtain ⟨value, -, hkey⟩ := Option.bind_eq_some_iff.1 hgiven
        have hkept := Action.isBlankText_of_nonBlank hkey
        rw [Bool.not_eq_true', ← Bool.not_eq_true, String.isEmpty_iff]
        rintro rfl
        cases hkept
      · refine ⟨.inr ⟨?_, hbearer⟩, by simpa using hne⟩
        cases hvalue : form.value? "access_token" with
        | none => rfl
        | some value =>
          rw [Option.bind_some]
          exact Action.nonBlank_eq_none_iff.2 (hblank value hvalue)
  tag key := by
    rw [Connection.mem_keys_create, Owner.keys]
    cases hvalue : form.value? "tags" with
    | none => simp [Action.owner, hvalue]
    | some value =>
      simp only [Action.owner, hvalue, Option.map_some, Option.getD_some, Action.tagList,
        List.mem_filterMap, Action.nonBlank_eq_some_iff, Option.some.injEq, exists_eq_left']

/-- Of the keys that a client gives, only a token in a header may be blank. -/
theorem Identified.eq_of_blank {form : Form} {bearer : Option String} {c : Connection}
    (h : Identified form bearer c) {kind : KeyKind} {key : String} (hkey : key ∈ c.keys kind)
    (hblank : Text.isBlankText key = true) : kind = .token ∧ bearer = some key ∧
      ∀ value, form.value? "access_token" = some value → Text.isBlankText value = true := by
  have hgives : ∀ name, ¬Action.Gives form name key := by
    rintro name ⟨value, -, rfl, hvalue⟩
    rw [Text.isBlankText_trimmed, hvalue] at hblank
    cases hblank
  cases kind with
  | user => exact absurd ((h.user key).1 hkey) (hgives _)
  | token =>
    rcases (h.token key).1 hkey with hgiven | ⟨hnone, hbearer, -⟩
    · exact absurd hgiven (hgives _)
    · exact ⟨rfl, hbearer, hnone⟩
  | tag =>
    obtain ⟨value, -, part, -, rfl, hpart⟩ := (h.tag key).1 hkey
    rw [Text.isBlankText_trimmed, hpart] at hblank
    cases hblank

/-! ## What operations reach -/

/-- Operations that name a key. -/
inductive Operation.Names (kind : KeyKind) (key : String) : Operation → Prop where
  | query : Names kind key (.query kind key)
  | send (m : Message) : Names kind key (.send (.key kind key) m)
  | sendKeys {keys : List String} (hkey : key ∈ keys) (m : Message) :
    Names kind key (.send (.keys kind keys) m)
  | disconnectUser (hkind : kind = .user) : Names kind key (.disconnect (.user key))
  | disconnectToken (hkind : kind = .token) : Names kind key (.disconnect (.token key))

/-- A key that an operation names is one of those it was given. -/
theorem Operation.Names.mem_given {kind : KeyKind} {key : String} {op : Operation}
    (h : op.Names kind key) : key ∈ op.given := by
  cases h with
  | sendKeys hkey m => exact hkey
  | _ => exact List.mem_singleton_self key

namespace Registry

variable {r s : Registry} {c : Connection} {kind : KeyKind} {key : String} {op : Operation}

/-- Whether a connection is within reach of all operations that name a key. An operation is only refused
for another blank key in a list, or for its message. -/
structure Addressable (s : Registry) (c : Connection) (kind : KeyKind) (key : String) : Prop where
  queried : ∃ l, s.execute (.query kind key) = .ok (s, .connections l) ∧ c.profile s.nodeId ∈ l
  sent : ∀ a m, (Operation.send a m).Names kind key → ¬(Operation.send a m).Flawed →
    ∃ t output, s.execute (.send a m) = .ok (t, output) ∧
      t.handle? c.id = some { c with queue := c.queue ++ [m], delivered := c.delivered + 1 }
  closed : ∀ a, (Operation.disconnect a).Names kind key →
    ∃ t output, s.execute (.disconnect a) = .ok (t, output) ∧
      t.handle? c.id = some { c with isOpen := false, closeSignal := true } ∧ t.get? c.id = none

/-- An operation without a flaw is performed. -/
theorem execute_eq_perform (hop : ¬op.Flawed) : s.execute op = .ok (s.perform op) :=
  execute_eq_ok_iff.2 ⟨Operation.check_eq_ok_iff.2 hop, rfl⟩

/-- What is listed under a key that is not blank is within reach of the operations that name it. -/
theorem addressable (hs : s.Stored) (hc : c ∈ s.connections ((s.index kind).ids key))
    (haccepts : c.accepts = true) (hkey : Text.isBlankText key = false) : s.Addressable c kind key := by
  obtain ⟨id, hlisted, hget⟩ := List.mem_filterMap.1 hc
  obtain rfl : c.id = id := hs.keyed id c (get?_eq_some_iff.1 hget).2
  have hsound : ∀ op : Operation, op.given = [key] → (∀ a m, op ≠ .send a m) → ¬op.Flawed := by
    rintro op hgiven hsend (⟨k, hk, hblank⟩ | ⟨a, m, rfl, -⟩)
    · rw [hgiven, List.mem_singleton] at hk
      rw [hk, hkey] at hblank
      cases hblank
    · exact hsend a m rfl
  refine ⟨⟨_, execute_eq_perform (hsound _ rfl nofun), List.mem_map.2 ⟨c, hc, rfl⟩⟩, ?_, ?_⟩
  · intro a m hnames hflawed
    have haudience : c.id ∈ (s.audience a).toList := by
      cases hnames with
      | send => exact hlisted
      | sendKeys hin => exact Ascending.mem_def.1 (Index.mem_idsOfAny.2 ⟨key, hin, hlisted⟩)
    refine ⟨_, _, execute_eq_perform hflawed, ?_⟩
    change (s.deliver (s.audience a) m).1.handle? c.id = _
    rw [handle?_deliver hs, if_pos haudience, hget, ← Connection.trySend_of_accepts haccepts]
    rfl
  · intro a hnames
    have hclosing : c.id ∈ (s.closing a).toList := by
      cases hnames with
      | disconnectUser hkind | disconnectToken hkind =>
        subst hkind
        exact hlisted
    have hgiven : (Operation.disconnect a).given = [key] := by
      cases hnames <;> rfl
    refine ⟨_, _, execute_eq_perform (hsound _ hgiven nofun), ?_, ?_⟩
    · change (s.closeIds (s.closing a).toList).1.handle? c.id = _
      rw [handle?_closeIds hs, if_pos hclosing, hget]
      rfl
    · refine Option.eq_none_iff_forall_ne_some.2 fun d hd => ?_
      exact ((registered_closeIds hs _ c.id).1 (get?_eq_some_iff.1 hd).1).2 hclosing

/-- No operation that names a blank key is run, whatever is registered under the key. -/
theorem exists_execute_eq_error (hnames : op.Names kind key) (hblank : Text.isBlankText key = true) :
    ∃ e, r.execute op = .error e := by
  obtain ⟨e, he⟩ := Operation.check_eq_error_iff.2 (.inl ⟨key, hnames.mem_given, hblank⟩)
  exact ⟨e, execute_eq_error_iff.2 he⟩

end Registry

/-! ## Opening a stream -/

namespace Action

variable {h : Host} {r : Request}

/-- A request for a stream is read into the keys that it gives. -/
theorem ofRequest_events (hpath : r.path = "/sse") (hget : r.method = "GET") : ofRequest h r =
    (refusing (r.form ["user_id", "access_token", "tags"])).map fun form =>
      .openStream (owner form r.bearerToken?) := by
  have hroute : Route.ofPath? r.path = some .events := by
    rw [hpath]
    decide
  rw [ofRequest, hroute, hget]
  dsimp only
  rw [if_neg (by decide), if_pos (by decide)]
  change (do
    let form ← refusing (r.form ["user_id", "access_token", "tags"])
    return openStream (owner form r.bearerToken?)) = _
  cases refusing (r.form ["user_id", "access_token", "tags"]) <;> rfl

end Action

namespace Mesh

variable {m : Mesh} {h : Host} {now : Instant} {r : Request} {id : Nat}

/-- A stream is opened only on a connection that was registered. -/
theorem snd_openStream_eq_ok {owner : Owner} (hopen : (m.openStream h owner now).2 = .ok id) :
    ∃ c, (h.registry.register owner now (max h.channelCapacity 1)).2 = .ok c := by
  unfold openStream at hopen
  dsimp only at hopen
  split at hopen
  · cases hopen
  · exact ⟨_, ‹_›⟩

/-- A request that is answered with a stream was read and registered. -/
theorem respond_events (hpath : r.path = "/sse") (hget : r.method = "GET")
    (haccepted : (m.respond h now r).2.payload = .events id) :
    let owner := Action.owner (Form.ofQuery r.query) r.bearerToken?
    (m.openStream h owner now).2 = .ok id ∧ (m.respond h now r).1 = (m.openStream h owner now).1 := by
  intro owner
  have hnothead : ¬r.method = "HEAD" := by
    rw [hget]
    decide
  -- the query is read before anything is registered
  have hread := Action.ofRequest_events (h := h) hpath hget
  rw [Request.form] at hread
  split at hread
  · have hrequest : Action.ofRequest h r = .ok (.openStream owner) := hread
    rw [respond, hrequest] at haccepted ⊢
    simp only [act, if_neg hnothead] at haccepted ⊢
    cases hopen : m.openStream h owner now with
    | mk m' result =>
      rw [hopen] at haccepted
      cases result with
      | error e => cases haccepted
      | ok id' =>
        obtain rfl : id' = id := Http.Payload.events.inj haccepted
        exact ⟨rfl, rfl⟩
  · have hrequest : Action.ofRequest h r = .error (.rejected .query) := hread
    rw [respond, hrequest] at haccepted
    simp only [if_neg hnothead] at haccepted
    cases haccepted

/-- What has become of a registry when a stream was opened at it for a request. -/
structure Welcomed (r : Request) (before : Registry) (c : Connection) (s : Registry) : Prop where
  /-- The connection is registered and ready, and the others are as they were. -/
  registered : s.get? c.id = some c
  accepts : c.accepts = true
  others : ∀ id, id ≠ c.id → s.get? id = before.get? id
  identified : Identified (Form.ofQuery r.query) r.bearerToken? c
  addressable : ∀ kind, ∀ key ∈ c.keys kind, Text.isBlankText key = false →
    s.Addressable c kind key
  /-- A token in the header that is blank is the one key by which the connection is out of reach. -/
  stranded : ∀ kind, ∀ key ∈ c.keys kind, Text.isBlankText key = true →
    kind = .token ∧ r.bearerToken? = some key ∧ (∀ value,
      (Form.ofQuery r.query).value? "access_token" = some value → Text.isBlankText value = true) ∧
      ∀ op : Operation, op.Names kind key → ∃ e, s.execute op = .error e

/-- **A client is within reach under the keys that it gives.** Let a request for a stream be accepted by
a node of the mesh. Its connection is registered under the user, the token and the tags that the query
gives, without the blanks around them; a field that is missing or blank gives no key. Queries by such
keys describe the connection, messages for them are put in its queue, and disconnects by them close it.
The same goes for the token in the header, which counts if the query gives none, unless that token is
blank: then the connection has a key, and no operation that names it is run. -/
theorem identified_respond (hh : m.host? h.self.id = some h) (hr : h.registry.Reachable)
    (hpath : r.path = "/sse") (hget : r.method = "GET")
    (haccepted : (m.respond h now r).2.payload = .events id) :
    ∃ c s, (m.respond h now r).1.registryAt h.self.id = some s ∧ Welcomed r h.registry c s := by
  obtain ⟨hopen, hmesh⟩ := respond_events hpath hget haccepted
  let owner := Action.owner (Form.ofQuery r.query) r.bearerToken?
  obtain ⟨c, hregister⟩ := snd_openStream_eq_ok hopen
  have hadmits := hr.aligned.admits owner now (max h.channelCapacity 1)
  obtain ⟨rfl, hentered⟩ := hadmits.accepted c hregister
  have hstored := hr.aligned.toStored.register owner now (max h.channelCapacity 1)
  have hidentified := identified_create (Form.ofQuery r.query) r.bearerToken?
    (h.registry.lastId + 1) now (max h.channelCapacity 1)
  have haccepts : (Connection.create (h.registry.lastId + 1) owner now
      (max h.channelCapacity 1)).accepts = true :=
    Connection.accepts_iff.2 ⟨rfl, rfl, Nat.lt_of_lt_of_le Nat.zero_lt_one (Nat.le_max_right _ _)⟩
  refine ⟨_, (h.registry.register owner now (max h.channelCapacity 1)).1, ?_, hentered.byId, haccepts,
    hentered.others, hidentified, ?_, ?_⟩
  · rw [hmesh, registryAt_of_hosts (m.hosts_openStream h owner now), registryAt_setRegistry hh,
      if_pos rfl]
  · intro kind key hkey hkept
    have hlisted := hentered.byKey kind key (Connection.mem_keys_create.1 hkey)
    exact Registry.addressable hstored hlisted haccepts hkept
  · intro kind key hkey hblank
    obtain ⟨hkind, hbearer, hnone⟩ := hidentified.eq_of_blank hkey hblank
    exact ⟨hkind, hbearer, hnone, fun op hnames => Registry.exists_execute_eq_error hnames hblank⟩

/-- A node without peers. -/
def hermit : Host := .standard "a" "host:1" []

/-- A request with a user between blanks, tags of which one is blank, a blank token, and a token in its
header. -/
def introduction : Request :=
  .ofTarget "GET" "/sse?user_id=%20u%C3%A9+&tags=a,%20,b&access_token=+"
    [("Authorization", "Bearer t")] ""

/-- A stream for that request. -/
theorem identified_respond_introduction :
    (create [hermit] ∅).host? hermit.self.id = some hermit ∧ hermit.registry.Reachable ∧
      introduction.path = "/sse" ∧ introduction.method = "GET" ∧
      ((create [hermit] ∅).respond hermit default introduction).2.payload = .events 0 ∧
      ∃ c s, ((create [hermit] ∅).respond hermit default introduction).1.registryAt hermit.self.id =
          some s ∧
        Welcomed introduction hermit.registry c s := by
  have hreachable : hermit.registry.Reachable := ⟨"a", .standard, 0, [], Nat.zero_le _, rfl⟩
  have hpath : introduction.path = "/sse" := by decide
  have haccepted : ((create [hermit] ∅).respond hermit default introduction).2.payload = .events 0 := by
    rfl
  exact ⟨rfl, hreachable, hpath, rfl, haccepted, identified_respond rfl hreachable hpath rfl haccepted⟩

/-- A request with nothing but a blank token in its header. -/
def mumble : Request :=
  .ofTarget "GET" "/sse" [("Authorization", "Bearer  ")] ""

/-- The stream for it is opened, and its connection registered under the blank token. No operation that
names the token is run. -/
theorem not_addressable_mumble :
    ∃ c s, ((create [hermit] ∅).respond hermit default mumble).2.payload = .events 0 ∧
      ((create [hermit] ∅).respond hermit default mumble).1.registryAt hermit.self.id = some s ∧
      s.get? c.id = some c ∧ c.keys .token = [" "] ∧ s.keys .token = [" "] ∧
      s.query .token " " = .error (.blankKey .token) ∧ ¬s.Addressable c .token " " := by
  have hself : (hermit.registry.enter (.create 1 ⟨none, some " ", []⟩ default 32)).get? 1 =
      some (.create 1 ⟨none, some " ", []⟩ default 32) := by
    rw [Registry.get?_enter]
    exact if_pos rfl
  refine ⟨.create 1 ⟨none, some " ", []⟩ default 32, _, by rfl, by rfl, hself, rfl, by decide, rfl,
    fun hreached => ?_⟩
  obtain ⟨l, hquery, -⟩ := hreached.queried
  cases hquery

end Mesh

end PushMesh
