import PushMesh.Config.Environment
import PushMesh.Config.Toml.Document
import PushMesh.Membership
import PushMesh.Mesh.Basic

/-!
# Settings

The settings of a node come from several sources, each laid over those before it: what is built in,
a file for all modes, a file for the mode in which the node runs, and the environment. A few
variables for traces have names of their own and stand above everything. The mode is a variable,
too, and a file of variables may set what the environment does not.
-/

namespace PushMesh

open Config (Fields Value)
open Config.Dotenv (Variables)

/-- Where a node listens. -/
structure ServerSettings where
  host : String
  port : Nat

/-- How a node serves its clients. -/
structure StreamSettings where
  /-- The seconds of silence after which a stream writes a comment. -/
  heartbeatInterval : Nat
  /-- The seconds between two sweeps. -/
  cleanupInterval : Nat
  channelCapacity : Nat
  maxConnections : Nat
  maxConnectionsPerUser : Nat

/-- How a node takes part in its cluster. -/
structure ClusterSettings where
  nodeId : String
  advertiseAddress : Option String
  discovery : Membership.Source
  peers : List String
  secret : Option String
  /-- The milliseconds after which a call to a peer is given up. -/
  requestTimeout : Nat
  retryOnTimeout : Bool
  partialOnTimeout : Bool
  /-- The greatest length of the body of a peer's call. -/
  bodyLimit : Nat

/-- How a node finds its peers in a shared store. -/
structure StoreSettings where
  url : String
  keyPrefix : String
  /-- The seconds between two heartbeats. -/
  heartbeatInterval : Nat
  /-- The seconds without a heartbeat after which a node is gone. -/
  nodeTtl : Nat

/-- How log lines are written. -/
inductive LogFormat where
  | pretty
  | json
deriving DecidableEq

/-- How traces are exported. -/
structure TraceSettings where
  enabled : Bool
  endpoint : String
  serviceName : String
  samplingRatio : Binary64

/-- The settings of a node. -/
structure Settings where
  server : ServerSettings
  stream : StreamSettings
  cluster : ClusterSettings
  store : StoreSettings
  log : LogFormat
  trace : TraceSettings

namespace Settings

/-! ## Names -/

/-- The name of a way to find peers. -/
def sourceName : Membership.Source → String
  | .fixed => "static"
  | .shared => "redis"

/-- The way to find peers of a name. -/
def source? : String → Option Membership.Source
  | "static" => some .fixed
  | "redis" => some .shared
  | _ => none

/-- The name of a log format. -/
def formatName : LogFormat → String
  | .pretty => "pretty"
  | .json => "json"

/-- The log format of a name. -/
def format? : String → Option LogFormat
  | "pretty" => some .pretty
  | "json" => some .json
  | _ => none

/-! ## Reading -/

/-- A setting: its name and how its value is put into the section it belongs to. -/
structure Field (σ : Type) where
  name : String
  read : Value → σ → Option σ

variable {α σ : Type}

/-- A setting of a type to which values are converted. -/
def Field.of (name : String) (convert : Value → Option α) (put : α → σ → σ) : Field σ :=
  ⟨name, fun v s => (convert v).map fun a => put a s⟩

/-- A setting that is one of several names. -/
def Field.choice (name : String) (names : List String) (ofName : String → Option α)
    (put : α → σ → σ) : Field σ :=
  .of name (fun v => (v.toName? names).bind ofName) put

/-- The settings that are given, read into what stands for those that are not. -/
def readFields (fields : List (Field σ)) (given : Field σ → Option Value) (s : σ) : Option σ :=
  fields.foldlM (fun s f =>
    match given f with
    | none => some s
    | some v => f.read v s) s

/-- Reads a section from a table, or from a list in the order of its settings. -/
def readSection (fields : List (Field σ)) (v : Value) (s : σ) : Option σ :=
  match v with
  | .table l => readFields fields (fun f => l.lookup f.name) s
  | .list l =>
    (fields.zip l).foldlM (fun s (f, v) => f.read v s) s
  | _ => none

/-- A section as a setting. -/
def Field.inSection {τ : Type} (name : String) (fields : List (Field τ)) (get : σ → τ)
    (put : τ → σ → σ) : Field σ :=
  ⟨name, fun v s => (readSection fields v (get s)).map fun t => put t s⟩

/-- The settings of where a node listens. -/
def serverFields : List (Field ServerSettings) :=
  [ .of "host" Value.toText? fun a s => { s with host := a },
    .of "port" Value.toShortWord? fun a s => { s with port := a } ]

/-- The settings of how a node serves its clients. -/
def streamFields : List (Field StreamSettings) :=
  [ .of "heartbeat_interval" Value.toWord? fun a s => { s with heartbeatInterval := a },
    .of "cleanup_interval" Value.toWord? fun a s => { s with cleanupInterval := a },
    .of "channel_capacity" Value.toWord? fun a s => { s with channelCapacity := a },
    .of "max_connections" Value.toWord? fun a s => { s with maxConnections := a },
    .of "max_connections_per_user" Value.toWord? fun a s =>
      { s with maxConnectionsPerUser := a } ]

/-- The settings of how a node takes part in its cluster. -/
def clusterFields : List (Field ClusterSettings) :=
  [ .of "node_id" Value.toText? fun a s => { s with nodeId := a },
    .of "advertise_address" Value.toText? fun a s => { s with advertiseAddress := some a },
    .choice "discovery" ["static", "redis"] source? fun a s => { s with discovery := a },
    .of "peers" Value.toTexts? fun a s => { s with peers := a },
    .of "secret" Value.toText? fun a s => { s with secret := some a },
    .of "request_timeout_ms" Value.toWord? fun a s => { s with requestTimeout := a },
    .of "retry_on_timeout" Value.toFlag? fun a s => { s with retryOnTimeout := a },
    .of "partial_on_timeout" Value.toFlag? fun a s => { s with partialOnTimeout := a },
    .of "max_rpc_body_bytes" Value.toWord? fun a s => { s with bodyLimit := a } ]

/-- The settings of how a node finds its peers in a shared store. -/
def storeFields : List (Field StoreSettings) :=
  [ .of "url" Value.toText? fun a s => { s with url := a },
    .of "key_prefix" Value.toText? fun a s => { s with keyPrefix := a },
    .of "heartbeat_interval" Value.toWord? fun a s => { s with heartbeatInterval := a },
    .of "node_ttl" Value.toWord? fun a s => { s with nodeTtl := a } ]

/-- The settings of how log lines are written. -/
def logFields : List (Field LogFormat) :=
  [.choice "format" ["pretty", "json"] format? fun a _ => a]

/-- The settings of how traces are exported. -/
def traceFields : List (Field TraceSettings) :=
  [ .of "enabled" Value.toFlag? fun a s => { s with enabled := a },
    .of "endpoint" Value.toText? fun a s => { s with endpoint := a },
    .of "service_name" Value.toText? fun a s => { s with serviceName := a },
    .of "sampling_ratio" Value.toDecimal? fun a s => { s with samplingRatio := a } ]

/-- All settings. -/
def sections : List (Field Settings) :=
  [ .inSection "server" serverFields server fun a s => { s with server := a },
    .inSection "sse" streamFields stream fun a s => { s with stream := a },
    .inSection "cluster" clusterFields cluster fun a s => { s with cluster := a },
    .inSection "redis" storeFields store fun a s => { s with store := a },
    .inSection "log" logFields log fun a s => { s with log := a },
    .inSection "otel" traceFields trace fun a s => { s with trace := a } ]

/-- The settings where nothing is configured. A node without an id gets a generated one. -/
def standard (generatedId : String) : Settings where
  server := { host := "0.0.0.0", port := 8081 }
  stream :=
    { heartbeatInterval := 30, cleanupInterval := 60, channelCapacity := 64,
      maxConnections := Limits.standard.connections,
      maxConnectionsPerUser := Limits.standard.perUser }
  cluster :=
    { nodeId := generatedId, advertiseAddress := none, discovery := .fixed, peers := [],
      secret := none, requestTimeout := 3000, retryOnTimeout := false, partialOnTimeout := true,
      bodyLimit := 1024 * 1024 }
  store :=
    { url := "redis://localhost:6379", keyPrefix := "sse:cluster", heartbeatInterval := 5,
      nodeTtl := 15 }
  log := .pretty
  trace :=
    { enabled := false, endpoint := "http://localhost:4317", serviceName := "sse-cluster",
      samplingRatio := .ofNat 1 }

/-! ## Sources -/

/-- The values that are built in. -/
def builtIn : Fields :=
  [ ("server", .table [("host", .text "0.0.0.0"), ("port", .integer 8081)]),
    ("cluster",
      .table [("discovery", .text "static"), ("request_timeout_ms", .integer 3000)]) ]

/-- The files of a node, by their paths. -/
abbrev Files := List (String × String)

/-- The configuration with a file laid over it, if there is one of that name. -/
def overFile (files : Files) (name : String) (l : Fields) : Option Fields :=
  match files.lookup ("config/" ++ name ++ ".toml") with
  | none => some l
  | some text => (Config.Toml.parse? text).map (Value.overlayFields l)

/-- The variables that stand above everything, with the settings that they give. -/
def overrides : List (String × String) :=
  [ ("OTEL_ENABLED", "enabled"),
    ("OTEL_ENDPOINT", "endpoint"),
    ("OTEL_SERVICE_NAME", "service_name"),
    ("OTEL_SAMPLING_RATIO", "sampling_ratio") ]

/-- The configuration with those variables laid over it, as texts. -/
def override (environment : Variables) (l : Fields) : Fields :=
  overrides.foldl (fun l (name, setting) =>
    match environment.lookup name with
    | none => l
    | some s => Value.overlayFields l [("otel", .table [(setting, .text s)])]) l

/-- The variables of an environment together with those of a file of variables. -/
def withFile (environment : Variables) (files : Files) : Variables :=
  match files.lookup ".env" with
  | none => environment
  | some text => Config.Dotenv.load environment text

/-- The mode in which a node runs. -/
def mode (environment : Variables) : String :=
  (environment.lookup "RUN_MODE").getD "development"

/-- The configuration of all sources, or none where a file is not well-formed. -/
def configuration (environment : Variables) (files : Files) : Option Fields := do
  let l ← overFile files "default" builtIn
  let l ← overFile files (mode environment) l
  return override environment (Config.Environment.overlay l [["cluster", "peers"]] environment)

/-- The settings of all sources, or none where a file is not well-formed or a value cannot be
converted. -/
def load (environment : Variables) (files : Files) (generatedId : String) : Option Settings := do
  let l ← configuration (withFile environment files) files
  readSection sections (.table l) (standard generatedId)

/-! ## Derived settings -/

/-- Host and port on which a node listens. -/
def listenAddress (s : Settings) : String :=
  s.server.host ++ ":" ++ toString s.server.port

/-- The address at which peers reach the node. -/
def advertisedAddress (s : Settings) : String :=
  s.cluster.advertiseAddress.getD s.listenAddress

/-- How the node dispatches operations. -/
def dispatch (s : Settings) : DispatchConfig :=
  { requestTimeout := s.cluster.requestTimeout
    retryOnTimeout := s.cluster.retryOnTimeout
    partialOnTimeout := s.cluster.partialOnTimeout }

/-- The node as its peers see it. -/
def node (s : Settings) : Node :=
  ⟨s.cluster.nodeId, s.advertisedAddress, true⟩

/-- The most connections that the node holds. -/
def limits (s : Settings) : Limits :=
  { connections := s.stream.maxConnections, perUser := s.stream.maxConnectionsPerUser }

/-- The node with these settings when it has no connections yet, whose ids start after `salt`. -/
def host (s : Settings) (members : List Node) (salt : ConnectionId) : Host :=
  { self := s.node
    registry := .create s.cluster.nodeId s.limits salt
    members
    config := s.dispatch
    secret := s.cluster.secret
    bodyLimit := s.cluster.bodyLimit
    channelCapacity := s.stream.channelCapacity
    heartbeatInterval := s.stream.heartbeatInterval }

/-! ## Writing -/

/-- A number as a value; one that is not finite has no written form. -/
def ratioJson (x : Binary64) : Json :=
  if x.isFinite then .number (.float x) else .null

/-- The written form of all settings. -/
def fields (s : Settings) : List (String × Json) :=
  [ ("server", .object [("host", .string s.server.host), ("port", .nat s.server.port)]),
    ("sse", .object
      [ ("heartbeat_interval", .nat s.stream.heartbeatInterval),
        ("cleanup_interval", .nat s.stream.cleanupInterval),
        ("channel_capacity", .nat s.stream.channelCapacity),
        ("max_connections", .nat s.stream.maxConnections),
        ("max_connections_per_user", .nat s.stream.maxConnectionsPerUser) ]),
    ("cluster", .object
      [ ("node_id", .string s.cluster.nodeId),
        ("advertise_address", .option .string s.cluster.advertiseAddress),
        ("discovery", .string (sourceName s.cluster.discovery)),
        ("peers", .list .string s.cluster.peers),
        ("secret", .option .string s.cluster.secret),
        ("request_timeout_ms", .nat s.cluster.requestTimeout),
        ("retry_on_timeout", .bool s.cluster.retryOnTimeout),
        ("partial_on_timeout", .bool s.cluster.partialOnTimeout),
        ("max_rpc_body_bytes", .nat s.cluster.bodyLimit) ]),
    ("redis", .object
      [ ("url", .string s.store.url),
        ("key_prefix", .string s.store.keyPrefix),
        ("heartbeat_interval", .nat s.store.heartbeatInterval),
        ("node_ttl", .nat s.store.nodeTtl) ]),
    ("log", .object [("format", .string (formatName s.log))]),
    ("otel", .object
      [ ("enabled", .bool s.trace.enabled),
        ("endpoint", .string s.trace.endpoint),
        ("service_name", .string s.trace.serviceName),
        ("sampling_ratio", ratioJson s.trace.samplingRatio) ]) ]

end Settings

end PushMesh
