import PushMesh.Api.Problem
import PushMesh.Api.Route
import PushMesh.Inquiry
import PushMesh.Mesh.Basic

/-!
# What a request asks for

A request is read into an action, or refused with an answer. Path, query and body are looked at in
this order, and the first fault decides. Calls of peers pass a gate before: a declared length over
the limit is refused first, and then whoever does not present the secret, whatever the method is.
-/

namespace PushMesh

open Http (Answer Form Rejection Request)

/-- What a request asks a node to do. -/
inductive Action where
  | health
  | stats
  | metrics
  | nodes
  /-- Open a stream of events. -/
  | openStream (owner : Owner)
  /-- Ask the cluster, and wait so many milliseconds for the peers where that is given. -/
  | inquire (inquiry : Inquiry) (timeout : Option UInt64)
  /-- Tell whether a user has a connection. -/
  | online (userId : String) (timeout : Option UInt64)
  /-- Run an operation for a peer. -/
  | serve (operation : Operation)

namespace Action

/-- The greatest length of a body, whatever else is configured. -/
def bodyLimit : Nat := 2 * 1024 * 1024

/-- The answer that refuses what is not valid. -/
def invalid (message : String) : Answer := (Problem.validation message).answer false

/-- A part of the path as a text. -/
def pathText (part : String) : Except Rejection String :=
  match Http.Percent.text? part with
  | some s => .ok s
  | none => .error .path

/-- A part of the path as the id of a connection. -/
def pathId (part : String) : Except Rejection ConnectionId := do
  match Number.word? (← pathText part) with
  | some n => .ok n
  | none => .error .path

/-- How long the request wants to wait. -/
def timeout (r : Request) : Except Rejection (Option UInt64) := do
  match (← r.form ["timeout_ms"]).value? "timeout_ms" with
  | none => .ok none
  | some s =>
    match Number.word? s with
    | some n => .ok (some n)
    | none => .error .query

/-- The names of the fields that select connections. -/
def selectors : List KeyKind := [.user, .token, .tag]

/-- The connections that a query selects: by one key, or all. -/
def selection (form : Form) : Except Answer Inquiry :=
  match selectors.filterMap fun kind => (form.value? kind.name).map (kind, ·) with
  | [] => .ok .queryAll
  | [(kind, key)] => .ok (.query kind key)
  | _ => .error (invalid "Use only one of user_id, access_token or tag")

/-- A value without the blanks around it, if anything is left. -/
def nonBlank (s : String) : Option String :=
  (some (Text.trimmed s)).filter (!·.isEmpty)

/-- The tags that a value lists between commas. -/
def tagList (s : String) : List String :=
  (Text.splitAll ',' s.toList).filterMap fun part => nonBlank (String.ofList part)

/-- Whom a connection belongs to. A token in the query goes before one in the headers, which is
taken as it is. -/
def owner (form : Form) (bearer : Option String) : Owner :=
  let token := ((form.value? "access_token").bind nonBlank).or bearer
  { userId := (form.value? "user_id").bind nonBlank
    accessToken := token.filter (!·.isEmpty)
    tags := ((form.value? "tags").map tagList).getD [] }

/-! ## Bodies -/

/-- The body as typed data. -/
def body {α : Type} (r : Request) (reader : Json.Reader α) : Except Rejection α :=
  r.decodeBody bodyLimit reader

/-- Reads the ids of connections. -/
def idsReader : Json.Reader (List ConnectionId) :=
  .record [.required "connection_ids" (.list .word) fun ids _ => ids] []

/-- Reads keys together with a message. -/
def keysReader (kind : KeyKind) : Json.Reader (List String × Message) :=
  .record
    [ .required kind.pluralName (.list .string) fun keys (_, m) => (keys, m),
      .required "message" Message.reader fun m (keys, _) => (keys, m) ]
    ([], default)

/-- Refuses an empty list. -/
def nonEmpty {α : Type} (name : String) (l : List α) : Except Answer Unit :=
  if l.isEmpty then .error (invalid (name ++ " must not be empty")) else .ok ()

/-! ## The gate for calls of peers -/

/-- Lets a call of a peer pass: its declared length must be within the limit, and it must present
the secret if there is one. -/
def peerGate (h : Host) (r : Request) : Except Answer Unit :=
  if r.declaredLength?.any (h.bodyLimit < ·) then .error (.rejected .bodyLength)
  else
    match h.secret with
    | none => .ok ()
    | some secret =>
      match r.bearerToken? with
      | some token =>
        if token = secret then .ok ()
        else .error ((Problem.authentication "Invalid cluster secret").answer false)
      | none => .error ((Problem.authentication "Missing cluster secret").answer false)

/-- Lets a request for a route pass: only the route for calls of peers has a gate. -/
def gate (h : Host) (route : Route) (r : Request) : Except Answer Unit :=
  match route with
  | .rpc => peerGate h r
  | _ => .ok ()

/-- The operation that a peer calls for. The body may be no longer than declared. -/
def called (h : Host) (r : Request) : Except Rejection Operation :=
  let limit := min bodyLimit h.bodyLimit
  r.decodeBody ((r.declaredLength?.map (min limit)).getD limit) Operation.reader

/-! ## Reading requests -/

/-- The answer that refuses a request, for a part that cannot be read. -/
def refusing {α : Type} (e : Except Rejection α) : Except Answer α :=
  e.mapError .rejected

/-- The action that a request for a route asks for. -/
def ofRoute (h : Host) (r : Request) : Route → Except Answer Action
  | .health => return health
  | .stats => return stats
  | .metrics => return metrics
  | .nodes => return nodes
  | .events => do
    let form ← refusing (r.form ["user_id", "access_token", "tags"])
    return openStream (owner form r.bearerToken?)
  | .connections => do
    let form ← refusing (r.form (selectors.map (·.name)))
    let t ← refusing (timeout r)
    return inquire (← selection form) t
  | .connectionCount => do return inquire .connectionCount (← refusing (timeout r))
  | .keys kind => do return inquire (.listKeys kind) (← refusing (timeout r))
  | .keyCount kind => do return inquire (.countKeys kind) (← refusing (timeout r))
  | .online part => do
    let userId ← refusing (pathText part)
    return online userId (← refusing (timeout r))
  | .disconnectUser part => do
    let userId ← refusing (pathText part)
    return inquire (.disconnectByUserId userId) (← refusing (timeout r))
  | .disconnectToken part => do
    let token ← refusing (pathText part)
    return inquire (.disconnectByAccessToken token) (← refusing (timeout r))
  | .disconnectConnection part => do
    let id ← refusing (pathId part)
    return inquire (.disconnectByConnectionId id) (← refusing (timeout r))
  | .disconnectConnections => do
    let t ← refusing (timeout r)
    let ids ← refusing (body r idsReader)
    nonEmpty "connection_ids" ids
    return inquire (.disconnectByConnectionIds ids) t
  | .sendKeys kind => do
    let t ← refusing (timeout r)
    let (keys, message) ← refusing (body r (keysReader kind))
    nonEmpty kind.pluralName keys
    return inquire (.send (.keys kind keys) message) t
  | .sendKey kind part => do
    let key ← refusing (pathText part)
    let t ← refusing (timeout r)
    return inquire (.send (.key kind key) (← refusing (body r Message.reader))) t
  | .sendConnection part => do
    let id ← refusing (pathId part)
    let t ← refusing (timeout r)
    return inquire (.sendByConnectionId id (← refusing (body r Message.reader))) t
  | .sendAll => do
    let t ← refusing (timeout r)
    return inquire (.sendAll (← refusing (body r Message.reader))) t
  | .rpc => do return serve (← refusing (called h r))

/-- The answer to a method that the route of the path does not answer to. -/
def wrongMethod (h : Host) (route : Route) (r : Request) : Answer :=
  let answer :=
    match gate h route r with
    | .ok () => Answer.bare 405
    | .error answer => answer
  answer.allowing route.verb.allow

/-- The action that a request asks for, or the answer that refuses it. -/
def ofRequest (h : Host) (r : Request) : Except Answer Action :=
  match Route.ofPath? r.path with
  | none => .error (.bare (if r.method = "OPTIONS" then 200 else 404))
  | some route =>
    if r.method = "OPTIONS" then .error ((Answer.bare 200).allowing route.verb.allow)
    else if route.verb.accepts r.method then do
      gate h route r
      ofRoute h r route
    else .error (wrongMethod h route r)

end Action

end PushMesh
