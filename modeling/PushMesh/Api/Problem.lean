import PushMesh.Gather
import PushMesh.Http.Answer

/-!
# Problems reported to clients

A problem is reported with a status, a code and a message. In production the messages of problems
inside the service are kept back.
-/

namespace PushMesh

/-- Why a request cannot be served. -/
inductive Problem where
  /-- The configuration is wrong. -/
  | configuration (message : String)
  /-- The request does not prove who it comes from. -/
  | authentication (message : String)
  /-- The request asks for something that is not allowed. -/
  | validation (message : String)
  /-- There are too many connections. -/
  | limit (e : LimitError)
  /-- The cluster did not do what was asked. -/
  | cluster (e : DispatchError)
  | internal (message : String)
deriving DecidableEq

namespace Problem

/-- A refused operation. -/
def ofRefusal (e : Refusal) : Problem := validation e.text

/-- A dispatch that failed: what the registry refuses is a fault of the request. -/
def ofDispatchError : DispatchError → Problem
  | .refused e => ofRefusal e
  | e => cluster e

/-- The status that is reported. -/
def status : Problem → Nat
  | configuration _ => 500
  | authentication _ => 401
  | validation _ => 400
  | limit _ => 503
  | cluster (.timeout _) => 504
  | cluster _ => 503
  | internal _ => 500

/-- The code that is reported. -/
def code : Problem → String
  | configuration _ => "CONFIG_ERROR"
  | authentication _ => "UNAUTHORIZED"
  | validation _ => "VALIDATION_ERROR"
  | limit _ => "CONNECTION_LIMIT"
  | cluster _ => "CLUSTER_ERROR"
  | internal _ => "INTERNAL_ERROR"

/-- The wording of a problem. -/
def text : Problem → String
  | configuration message => "Configuration error: " ++ message
  | authentication message => "Authentication error: " ++ message
  | validation message => "Validation error: " ++ message
  | limit e => e.text
  | cluster e => "Cluster error: " ++ e.text
  | internal message => "Internal error: " ++ message

/-- The message that is reported. -/
def clientText (inProduction : Bool) : Problem → String
  | configuration message => if inProduction then "Configuration error" else message
  | authentication message => message
  | validation message => message
  | limit e => e.text
  | cluster e => e.text
  | internal message => if inProduction then "Internal server error" else message

/-- Whether a mode is that of production. -/
def isProduction (mode : Option String) : Bool :=
  mode == some "production" || mode == some "prod"

/-- The answer that reports a problem. -/
def answer (p : Problem) (inProduction : Bool) : Http.Answer :=
  .json p.status <|
    .object
      [ ("error", .object
          [("code", .string p.code), ("message", .string (p.clientText inProduction))]) ]

end Problem

end PushMesh
