import PushMesh.Registry.Execute
import PushMesh.Tally

/-!
# Operations on the whole cluster

An inquiry is an operation on the cluster together with the way in which the answers of the nodes
are folded into one. The node that makes it runs it on its own registry and sends the same operation
to its peers. Lists of keys and ids are sent in ascending order and without repetitions.

Whoever asks the cluster makes one of the inquiries that have a name of their own. Only a count of the
tags has none.
-/

namespace PushMesh

/-- An operation on the whole cluster. -/
inductive Inquiry where
  /-- Describe the connections with the key. -/
  | query (kind : KeyKind) (key : String)
  /-- Describe all connections. -/
  | queryAll
  /-- List the keys in use. -/
  | listKeys (kind : KeyKind)
  /-- Count the keys in use, each once however many nodes use it. -/
  | countKeys (kind : KeyKind)
  /-- Send a message. -/
  | send (audience : Audience) (message : Message)
  /-- Close connections. -/
  | disconnect (closing : Closing)
  /-- Count the connections. -/
  | count

/-- The audience with its keys in ascending order and without repetitions. -/
def Audience.normalized : Audience → Audience
  | keys kind ks => keys kind (Ascending.ofList ks).toList
  | a => a

/-- The connections to be closed with their ids in ascending order and without repetitions. -/
def Closing.normalized : Closing → Closing
  | connections ids => connections (Ascending.ofList ids).toList
  | c => c

namespace Inquiry

/-- What the peers are asked. -/
def operation : Inquiry → Operation
  | query kind key => .query kind key
  | queryAll => .queryAll
  | listKeys kind => .listKeys kind
  | countKeys kind => .listKeys kind
  | send audience m => .send audience.normalized m
  | disconnect closing => .disconnect closing.normalized
  | count => .count

/-- How the answers are folded. -/
def kind : Inquiry → Tally.Kind
  | query .. => .connections
  | queryAll => .connections
  | listKeys _ => .keys
  | countKeys _ => .distinct
  | send .. => .count
  | disconnect _ => .count
  | count => .count

/-- The node's own part of the result. -/
def runLocally (r : Registry) : Inquiry → Except Refusal (Registry × Tally)
  | query kind key => do return (r, .connections (ConnectionSet.ofList (← r.query kind key)))
  | queryAll => return (r, .connections (ConnectionSet.ofList r.queryAll))
  | listKeys kind => return (r, .keys (Ascending.ofList (r.keys kind)))
  | countKeys kind => return (r, .distinct (Ascending.ofList (r.keys kind)))
  | send audience m => do
    let (r, n) ← r.send audience.normalized m
    return (r, .count (UInt64.ofNat n))
  | disconnect closing => do
    let (r, n) ← r.disconnect closing.normalized
    return (r, .count (UInt64.ofNat n))
  | count => return (r, .count (UInt64.ofNat r.count))

/-! ## Queries -/

/-- Describes the connections of a user. -/
def queryByUserId (userId : String) : Inquiry := query .user userId

/-- Describes the connections with an access token. -/
def queryByAccessToken (accessToken : String) : Inquiry := query .token accessToken

/-- Describes the connections with a tag. -/
def queryByTag (tag : String) : Inquiry := query .tag tag

/-! ## Keys -/

/-- Lists the users with a connection. -/
def userIds : Inquiry := listKeys .user

/-- Lists the access tokens with a connection. -/
def accessTokens : Inquiry := listKeys .token

/-- Lists the tags with a connection. -/
def tags : Inquiry := listKeys .tag

/-- Counts the users with a connection anywhere, each once. -/
def userCount : Inquiry := countKeys .user

/-- Counts the access tokens with a connection anywhere, each once. -/
def accessTokenCount : Inquiry := countKeys .token

/-! ## Messages -/

/-- Sends a message to a user. -/
def sendByUserId (userId : String) (m : Message) : Inquiry := send (.key .user userId) m

/-- Sends a message to those with an access token. -/
def sendByAccessToken (accessToken : String) (m : Message) : Inquiry :=
  send (.key .token accessToken) m

/-- Sends a message to those with a tag. -/
def sendByTag (tag : String) (m : Message) : Inquiry := send (.key .tag tag) m

/-- Sends a message to one connection. -/
def sendByConnectionId (id : ConnectionId) (m : Message) : Inquiry := send (.connection id) m

/-- Sends a message to several users. -/
def sendByUserIds (userIds : List String) (m : Message) : Inquiry := send (.keys .user userIds) m

/-- Sends a message to those with one of several access tokens. -/
def sendByAccessTokens (accessTokens : List String) (m : Message) : Inquiry :=
  send (.keys .token accessTokens) m

/-- Sends a message to those with one of several tags. -/
def sendByTags (tags : List String) (m : Message) : Inquiry := send (.keys .tag tags) m

/-- Sends a message to everyone. -/
def sendAll (m : Message) : Inquiry := send .all m

/-! ## Closing -/

/-- Closes the connections of a user. -/
def disconnectByUserId (userId : String) : Inquiry := disconnect (.user userId)

/-- Closes the connections with an access token. -/
def disconnectByAccessToken (accessToken : String) : Inquiry := disconnect (.token accessToken)

/-- Closes one connection. -/
def disconnectByConnectionId (id : ConnectionId) : Inquiry := disconnect (.connection id)

/-- Closes several connections. Ids are unique, so every node closes only its own. -/
def disconnectByConnectionIds (ids : List ConnectionId) : Inquiry := disconnect (.connections ids)

/-! ## Counting -/

/-- Counts the connections. -/
def connectionCount : Inquiry := count

end Inquiry

end PushMesh
