import AraNotification.Ack
import AraNotification.Queue
import AraNotification.Tenant

/-! # Settings and their validation

The fields of `Settings` that validation or the modelled service reads, with the checks of
`validate_with_production_flag` in their order and with their messages.  A configuration is
accepted when the list of errors is empty.  The sampling ratio is a float with its printed
form; a value that is not a number has no rational value. -/

namespace AraNotification

/-- A float with its printed form. -/
structure F64 where
  value : Option ℚ
  display : String
deriving DecidableEq, Repr

structure ServerConfig where
  port : ℕ
  corsOrigins : List String
deriving DecidableEq, Repr

structure WebSocketConfig where
  heartbeatInterval : ℕ
  connectionTimeout : ℕ
  cleanupInterval : ℕ
  maxConnections : ℕ
  maxConnectionsPerUser : ℕ
  maxSubscriptionsPerConnection : ℕ
deriving DecidableEq, Repr

structure QueueSettings where
  enabled : Bool
  maxSizePerUser : ℕ
  messageTtlSeconds : ℕ
  cleanupIntervalSeconds : ℕ
  backend : String
deriving DecidableEq, Repr

structure AckSettings where
  enabled : Bool
  timeoutSeconds : ℕ
  cleanupIntervalSeconds : ℕ
  backend : String
deriving DecidableEq, Repr

structure OtelConfig where
  enabled : Bool
  samplingRatio : F64
deriving DecidableEq, Repr

structure ClusterConfig where
  enabled : Bool
  sessionTtlSeconds : ℕ
deriving DecidableEq, Repr

structure Settings where
  server : ServerConfig
  jwtSecret : String
  redisUrl : String
  api : ApiSettings
  websocket : WebSocketConfig
  queue : QueueSettings
  ratelimitBackend : String
  ack : AckSettings
  otel : OtelConfig
  tenant : TenantConfig
  databasePoolSize : ℕ
  cluster : ClusterConfig
deriving DecidableEq, Repr

def validBackends : List String := ["memory", "redis", "postgres"]
def validRatelimitBackends : List String := ["local", "redis"]
def minApiKeyLength : ℕ := 16

namespace Settings
variable (U : UnicodeTables) (s : Settings)

/-- One check: the message when the condition is met. -/
def check (failed : Bool) (message : String) : List String := if failed then [message] else []

/-- The API key check of production mode. -/
def apiKeyErrors : List String :=
  match s.api.key with
  | some key =>
      check (decide ((trim U key).utf8ByteSize < minApiKeyLength))
        ("API_KEY must be at least " ++ toString minApiKeyLength ++
          " characters in production mode (current: " ++ toString (trim U key).utf8ByteSize ++
          " characters)")
  | none => ["API_KEY is required in production mode and must be at least " ++
      toString minApiKeyLength ++ " characters"]

/-- The check of a backend name. -/
def backendErrors (field value : String) (valid : List String) (shown : String) : List String :=
  check (!valid.contains value)
    ("Invalid " ++ field ++ ": '" ++ value ++ "'. Must be one of: " ++ shown)

/-- `str::starts_with`. -/
def startsWith (s pre : String) : Bool := pre.toList.isPrefixOf s.toList

/-- The errors of `validate_with_production_flag`, in order. -/
def errors : List String :=
  check (decide (s.jwtSecret.utf8ByteSize < 32))
    ("JWT_SECRET must be at least 32 characters (current: " ++ toString s.jwtSecret.utf8ByteSize ++
      " characters)") ++
  (if s.api.isProduction then s.apiKeyErrors U else []) ++
  check (!startsWith s.redisUrl "redis://" && !startsWith s.redisUrl "rediss://")
    ("Invalid Redis URL format: '" ++ s.redisUrl ++
      "'. Must start with 'redis://' or 'rediss://'") ++
  check (decide (s.server.port = 0)) "Server port must be between 1 and 65535" ++
  check (decide (s.websocket.heartbeatInterval = 0))
    "websocket.heartbeat_interval must be greater than 0" ++
  check (decide (s.websocket.connectionTimeout = 0))
    "websocket.connection_timeout must be greater than 0" ++
  check (s.ack.enabled && decide (s.ack.timeoutSeconds = 0))
    "ack.timeout_seconds must be greater than 0 when ACK is enabled" ++
  check (s.queue.enabled && decide (s.queue.messageTtlSeconds = 0))
    "queue.message_ttl_seconds must be greater than 0 when queue is enabled" ++
  backendErrors "queue.backend" s.queue.backend validBackends
    "[\"memory\", \"redis\", \"postgres\"]" ++
  backendErrors "ack.backend" s.ack.backend validBackends "[\"memory\", \"redis\", \"postgres\"]" ++
  backendErrors "ratelimit.backend" s.ratelimitBackend validRatelimitBackends
    "[\"local\", \"redis\"]" ++
  check (s.otel.enabled && !(s.otel.samplingRatio.value.any (fun r => decide (0 ≤ r ∧ r ≤ 1))))
    ("otel.sampling_ratio must be between 0.0 and 1.0 (current: " ++ s.otel.samplingRatio.display ++
      ")") ++
  check (decide (s.databasePoolSize = 0)) "database.pool_size must be greater than 0" ++
  check (decide (s.websocket.heartbeatInterval > 0) && decide (s.websocket.connectionTimeout > 0) &&
      decide (s.websocket.connectionTimeout ≤ s.websocket.heartbeatInterval))
    ("websocket.connection_timeout (" ++ toString s.websocket.connectionTimeout ++
      ") must be greater than heartbeat_interval (" ++ toString s.websocket.heartbeatInterval ++
      ")") ++
  check (s.cluster.enabled && decide (s.websocket.heartbeatInterval > 0) &&
      decide (s.cluster.sessionTtlSeconds > 0) &&
      decide (s.cluster.sessionTtlSeconds ≤ s.websocket.heartbeatInterval))
    ("cluster.session_ttl_seconds (" ++ toString s.cluster.sessionTtlSeconds ++
      ") must be greater than websocket.heartbeat_interval (" ++
      toString s.websocket.heartbeatInterval ++ ")") ++
  check (s.api.isProduction && s.server.corsOrigins.isEmpty)
    "CORS_ORIGINS must be configured in production mode (empty origins allows any origin)"

/-- `validate`: the configuration is accepted, or all errors are reported at once. -/
def validate : Except String Unit :=
  if (s.errors U).isEmpty then .ok ()
  else .error ("Configuration validation failed:\n  - " ++ "\n  - ".intercalate (s.errors U))

/-- `Settings` validates. -/
def Accepted : Prop := s.errors U = []

/-- The queue configuration made from the settings. -/
def queueConfig : QueueConfig where
  enabled := s.queue.enabled
  maxQueueSizePerUser := s.queue.maxSizePerUser
  messageTtlSeconds := s.queue.messageTtlSeconds
  cleanupIntervalSeconds := s.queue.cleanupIntervalSeconds

/-- The configuration of ACK tracking made from the settings. -/
def ackConfig : AckConfig where
  enabled := s.ack.enabled
  timeoutSeconds := s.ack.timeoutSeconds
  cleanupIntervalSeconds := s.ack.cleanupIntervalSeconds

/-- The connection limits made from the settings. -/
def connectionLimits : ConnectionLimits where
  maxConnections := s.websocket.maxConnections
  maxConnectionsPerUser := s.websocket.maxConnectionsPerUser
  maxSubscriptionsPerConnection := s.websocket.maxSubscriptionsPerConnection

/-- The default values of every field, with a secret set and the queue switched on. -/
def withQueue : Settings where
  server := ⟨8081, []⟩
  jwtSecret := "0123456789abcdef0123456789abcdef"
  redisUrl := "redis://localhost:6379"
  api := ⟨none, false⟩
  websocket := ⟨30, 120, 60, 10000, 5, 50⟩
  queue := ⟨true, 100, 3600, 300, "memory"⟩
  ratelimitBackend := "local"
  ack := ⟨false, 30, 60, "memory"⟩
  otel := ⟨false, ⟨some 1, "1"⟩⟩
  tenant := ⟨false⟩
  databasePoolSize := 10
  cluster := ⟨false, 60⟩

theorem accepted_withQueue : withQueue.Accepted .ascii := by
  unfold Accepted
  decide

end Settings

end AraNotification
