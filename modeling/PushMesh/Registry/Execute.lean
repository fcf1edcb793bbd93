import PushMesh.Registry.Basic
import PushMesh.Text.Blank

/-!
# Running operations on a registry

An operation is checked before it is run: a key must not be blank, and a message must be well
formed. What fails the check is refused as a whole, whatever the registry holds. Keys are checked
before the message, and a list of keys from its start.
-/

namespace PushMesh

/-- Why a registry refuses an operation. -/
inductive Refusal where
  /-- A key is blank. -/
  | blankKey (kind : KeyKind)
  /-- The name or the id of a message does not fit on its line. -/
  | brokenMessage
  /-- The argument is refused for another reason. -/
  | other (reason : String)
deriving DecidableEq

namespace Refusal

/-- What is wrong with the argument. -/
def reason : Refusal → String
  | blankKey kind => kind.name ++ " must not be empty"
  | brokenMessage => "event name and id must not contain line breaks or NUL"
  | other reason => reason

/-- The wording of a refusal. -/
def text (e : Refusal) : String :=
  "Invalid argument: " ++ e.reason

end Refusal

/-- Refuses a blank key. -/
def KeyKind.check (kind : KeyKind) (key : String) : Except Refusal Unit :=
  if Text.isBlankText key then .error (.blankKey kind) else .ok ()

/-- Refuses a list with a blank key. -/
def KeyKind.checkAll (kind : KeyKind) (keys : List String) : Except Refusal Unit :=
  keys.forM kind.check

/-- Refuses a message that is not well formed. -/
def Message.check (m : Message) : Except Refusal Unit :=
  if m.isWellFormed then .ok () else .error .brokenMessage

/-- Refuses an audience with a blank key. -/
def Audience.check : Audience → Except Refusal Unit
  | key kind k => kind.check k
  | keys kind ks => kind.checkAll ks
  | connection _ => .ok ()
  | all => .ok ()

/-- Refuses a blank key. -/
def Closing.check : Closing → Except Refusal Unit
  | user key => KeyKind.user.check key
  | token key => KeyKind.token.check key
  | connection _ => .ok ()
  | connections _ => .ok ()

namespace Registry

/-- The connections of an audience. -/
def audience (r : Registry) : Audience → Ascending ConnectionId
  | .key kind key => (r.index kind).ids key
  | .keys kind keys => (r.index kind).idsOfAny keys
  | .connection id => r.registered.filter (· == id)
  | .all => r.registered

/-- The connections to be closed. -/
def closing (r : Registry) : Closing → Ascending ConnectionId
  | .user key => r.users.ids key
  | .token key => r.tokens.ids key
  | .connection id => Ascending.ofList [id]
  | .connections ids => Ascending.ofList ids

/-- Describes the connections with a key. -/
def query (r : Registry) (kind : KeyKind) (key : String) : Except Refusal (List Descriptor) := do
  kind.check key
  return r.describe ((r.index kind).ids key)

/-- Describes all connections. -/
def queryAll (r : Registry) : List Descriptor :=
  r.describe r.registered

/-- Sends a message to an audience, and counts the connections that accepted it. -/
def send (r : Registry) (audience : Audience) (m : Message) : Except Refusal (Registry × Nat) := do
  audience.check
  m.check
  return r.deliver (r.audience audience) m

/-- Closes connections, and counts them. -/
def disconnect (r : Registry) (closing : Closing) : Except Refusal (Registry × Nat) := do
  closing.check
  return r.closeIds (r.closing closing).toList

/-- Runs an operation. -/
def execute (r : Registry) : Operation → Except Refusal (Registry × Output)
  | .query kind key => do return (r, .connections (← r.query kind key))
  | .queryAll => return (r, .connections r.queryAll)
  | .listKeys kind => return (r, .keys (r.keys kind))
  | .send audience m => do
    let (r, n) ← r.send audience m
    return (r, .count (UInt64.ofNat n))
  | .disconnect closing => do
    let (r, n) ← r.disconnect closing
    return (r, .count (UInt64.ofNat n))
  | .count => return (r, .count (UInt64.ofNat r.count))

/-- Runs an operation for a peer: a refusal is part of the answer. -/
def respond (r : Registry) (op : Operation) : Registry × Response :=
  match r.execute op with
  | .ok (r, output) => (r, .ok output)
  | .error e => (r, .error e.text)

end Registry

end PushMesh
