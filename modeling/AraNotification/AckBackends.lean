import AraNotification.Ack

/-! # The persistent trackers of acknowledgements

Two more backends keep the pending acknowledgements outside the process.
`PostgresAckBackend` keeps one row for each notification in `pending_acks`, whose primary key
is the notification, and one row of counters for each tenant.  `RedisAckBackend` keeps a hash
with a time to live for each notification, a sorted set of deadlines, and a hash of counters.

The calls are run to their end, with every command of the store successful; the clock of the
service (`now`) and the one of the database (`dbNow`) are arguments.  What is pending is
written as JSON by the Redis backend and read back as it was, so the model stores the record;
a score of the sorted set is a number of seconds, which a float holds exactly.  All three
backends answer the same calls (`AckCall`, `AckReply`). -/

namespace AraNotification

/-! ### Deadlines -/

/-- The first and the last second of `DateTime<Utc>`. -/
def DateTime.minTimestamp : ℤ := -8334601228800
def DateTime.maxTimestamp : ℤ := 8210266876799

/-- `Utc::now() + Duration::seconds(timeout as i64)`; `none` is the panic on overflow. -/
def expiresAt (now : DateTime) (timeoutSeconds : ℕ) : Option DateTime :=
  (Duration.seconds (asI64 timeoutSeconds)).bind (fun timeout =>
    if DateTime.minTimestamp ≤ DateTime.timestamp (now + timeout) ∧
        DateTime.timestamp (now + timeout) ≤ DateTime.maxTimestamp then some (now + timeout)
    else none)

/-! ### PostgreSQL -/

/-- A row of `pending_acks`. -/
structure PendingAckRow where
  tenantId : String
  userId : String
  connectionId : Uuid
  sentAt : DateTime
  expiresAt : DateTime
deriving DecidableEq, Repr

/-- The two tables, by primary key. -/
structure AckTables where
  pendingAcks : DashMap Uuid PendingAckRow
  ackStats : DashMap String AckStats

/-- PostgreSQL-based ACK tracking backend. -/
structure PostgresAckBackend where
  config : AckConfig
  db : AckTables
  tenantId : String

namespace AckTables
variable (db : AckTables)

/-- `upsert_ack_stats`. -/
def upsertAckStats (tenantId : String) (tracked acked expired latencyMs : ℕ) : AckTables :=
  let old := (db.ackStats.lookup tenantId).getD ⟨0, 0, 0, 0⟩
  { db with
    ackStats := db.ackStats.insert tenantId
      ⟨old.totalTracked + tracked, old.totalAcked + acked, old.totalExpired + expired,
        old.totalLatencyMs + latencyMs⟩ }

/-- `INSERT … ON CONFLICT (notification_id) DO NOTHING`. -/
def insertPending (notificationId : Uuid) (row : PendingAckRow) : AckTables :=
  match db.pendingAcks.lookup notificationId with
  | some _ => db
  | none => { db with pendingAcks := db.pendingAcks.insert notificationId row }

/-- `DELETE … WHERE notification_id AND user_id AND tenant_id RETURNING sent_at`. -/
def deletePending (notificationId : Uuid) (userId tenantId : String) : Option DateTime × AckTables :=
  match db.pendingAcks.lookup notificationId with
  | some row =>
      if row.userId = userId ∧ row.tenantId = tenantId then
        (some row.sentAt, { db with pendingAcks := db.pendingAcks.erase notificationId })
      else (none, db)
  | none => (none, db)

/-- The rows that a clean-up of the tenant deletes. -/
def expired (tenantId : String) (dbNow : DateTime) (row : PendingAckRow) : Bool :=
  decide (row.tenantId = tenantId) && decide (row.expiresAt ≤ dbNow)

/-- `DELETE … WHERE tenant_id AND expires_at <= NOW()`; the number of rows. -/
def deleteExpired (tenantId : String) (dbNow : DateTime) : ℕ × AckTables :=
  (db.pendingAcks.values.countP (expired tenantId dbNow),
    { db with pendingAcks := DashMap.retain db.pendingAcks (fun row => !expired tenantId dbNow row) })

/-- `SELECT COUNT(*) … WHERE tenant_id`. -/
def countPending (tenantId : String) : ℕ :=
  db.pendingAcks.values.countP (fun row => decide (row.tenantId = tenantId))

end AckTables

/-- The counters that `stats()` reports. -/
structure AckBackendStats where
  totalTracked : ℕ
  totalAcked : ℕ
  totalExpired : ℕ
  pendingCount : ℕ
deriving DecidableEq, Repr

namespace PostgresAckBackend

/-- The backend of a tenant over empty tables. -/
def new (config : AckConfig) (tenantId : String) : PostgresAckBackend := ⟨config, ⟨∅, ∅⟩, tenantId⟩

variable (b : PostgresAckBackend)

/-- Track a notification; `none` is the panic when the deadline is out of range. -/
def track (notificationId : Uuid) (userId : String) (connectionId : Uuid) (now dbNow : DateTime) :
    Option PostgresAckBackend :=
  if b.config.enabled then
    (AraNotification.expiresAt now b.config.timeoutSeconds).map (fun expiry =>
      let db := b.db.insertPending notificationId ⟨b.tenantId, userId, connectionId, dbNow, expiry⟩
      { b with db := db.upsertAckStats b.tenantId 1 0 0 0 })
  else some b

/-- Acknowledge a notification of the tenant. -/
def acknowledge (notificationId : Uuid) (userId : String) (now : DateTime) : Bool × PostgresAckBackend :=
  if b.config.enabled then
    match b.db.deletePending notificationId userId b.tenantId with
    | (some sentAt, db) =>
        let latencyMs := (max (Int.tdiv (now - sentAt) 1000000) 0).toNat
        (true, { b with db := db.upsertAckStats b.tenantId 0 1 0 latencyMs })
    | (none, db) => (false, { b with db := db })
  else (false, b)

/-- Remove the tenant's expired pending ACKs; the number of rows removed. -/
def cleanupExpired (dbNow : DateTime) : ℕ × PostgresAckBackend :=
  if b.config.enabled then
    let (count, db) := b.db.deleteExpired b.tenantId dbNow
    (count, { b with db := if count > 0 then db.upsertAckStats b.tenantId 0 0 count 0 else db })
  else (0, b)

def pendingCount : ℕ := b.db.countPending b.tenantId

/-- The counters of the tenant, zero when it has no row. -/
def stats : AckBackendStats :=
  let row := (b.db.ackStats.lookup b.tenantId).getD ⟨0, 0, 0, 0⟩
  ⟨row.totalTracked, row.totalAcked, row.totalExpired, b.pendingCount⟩

end PostgresAckBackend

namespace MemoryAckBackend

def pendingCount (b : MemoryAckBackend) : ℕ := b.pending.len

def backendStats (b : MemoryAckBackend) : AckBackendStats :=
  ⟨b.stats.totalTracked, b.stats.totalAcked, b.stats.totalExpired, b.pendingCount⟩

end MemoryAckBackend

/-! ### Redis -/

/-- The hash of a pending ACK, with the time at which its time to live runs out, if it has one. -/
structure PendingHash where
  data : PendingAckInfo
  deadline : Option DateTime
deriving DecidableEq, Repr

def PendingHash.alive (h : PendingHash) (now : DateTime) : Bool := h.deadline.all (fun d => decide (now < d))

/-- The keys of a prefix and a tenant: the pending hashes, the sorted set of deadlines and the
hash of counters.  A hash whose time to live has run out stays, but no command sees it. -/
structure AckStore where
  pending : DashMap Uuid PendingHash
  timeout : DashMap Uuid ℤ
  stats : AckStats

namespace AckStore
variable (s : AckStore)

/-- `HGET … data`. -/
def hget (notificationId : Uuid) (now : DateTime) : Option PendingAckInfo :=
  ((s.pending.lookup notificationId).filter (·.alive now)).map (·.data)

/-- `HSET … data`; a key that is there keeps its time to live. -/
def hset (notificationId : Uuid) (data : PendingAckInfo) (now : DateTime) : AckStore :=
  { s with
    pending := s.pending.insert notificationId
      ⟨data, ((s.pending.lookup notificationId).filter (·.alive now)).bind (·.deadline)⟩ }

/-- `EXPIRE`; without effect when the key is not there. -/
def expire (notificationId : Uuid) (seconds : ℤ) (now : DateTime) : AckStore :=
  { s with
    pending := s.pending.modify notificationId (fun h =>
      if h.alive now then { h with deadline := some (now + seconds * nanosPerSecond) } else h) }

/-- `ZADD`. -/
def zadd (notificationId : Uuid) (score : ℤ) : AckStore := { s with timeout := s.timeout.insert notificationId score }

/-- `DEL` of a pending hash; it succeeds also when there is none. -/
def del (notificationId : Uuid) : AckStore := { s with pending := s.pending.erase notificationId }

/-- `ZREM`. -/
def zrem (notificationId : Uuid) : AckStore := { s with timeout := s.timeout.erase notificationId }

/-- `ZRANGEBYSCORE`: the members with a score from zero to `now`. -/
def zrangebyscore (now : DateTime) : List Uuid :=
  (s.timeout.entries.filter (fun e => decide (0 ≤ e.2 ∧ e.2 ≤ now.timestamp))).map (·.1)

/-- `ZCARD`. -/
def zcard : ℕ := s.timeout.len

/-- `HINCRBY` of one or more counters. -/
def hincrby (tracked acked expired latencyMs : ℕ) : AckStore :=
  { s with
    stats := ⟨s.stats.totalTracked + tracked, s.stats.totalAcked + acked, s.stats.totalExpired + expired,
      s.stats.totalLatencyMs + latencyMs⟩ }

end AckStore

/-- Redis-based ACK tracking backend. -/
structure RedisAckBackend where
  config : AckConfig
  store : AckStore

namespace RedisAckBackend

def new (config : AckConfig) : RedisAckBackend := ⟨config, ∅, ∅, ⟨0, 0, 0, 0⟩⟩

variable (b : RedisAckBackend)

/-- The score of a notification in the sorted set of deadlines. -/
def expiryTimestamp (now : DateTime) : ℤ := now.timestamp + asI64 b.config.timeoutSeconds

/-- The time to live of a pending hash: the timeout and an extra minute. -/
def ttl : ℤ := asI64 b.config.timeoutSeconds + 60

/-- Track a notification. -/
def track (notificationId : Uuid) (userId : String) (connectionId : Uuid) (now : DateTime) : RedisAckBackend :=
  if b.config.enabled then
    let s₁ := b.store.hset notificationId ⟨notificationId, userId, connectionId, now⟩ now
    let s₂ := s₁.expire notificationId b.ttl now
    let s₃ := s₂.zadd notificationId (b.expiryTimestamp now)
    { b with store := s₃.hincrby 1 0 0 0 }
  else b

/-- Acknowledge a notification. -/
def acknowledge (notificationId : Uuid) (userId : String) (now : DateTime) : Bool × RedisAckBackend :=
  if b.config.enabled then
    match b.store.hget notificationId now with
    | none => (false, b)
    | some p =>
        if p.userId ≠ userId then (false, b)
        else
          let s := (b.store.del notificationId).zrem notificationId
          (true, { b with store := s.hincrby 0 1 0 (p.latencyMs now) })
  else (false, b)

/-- Remove expired pending ACKs; the number of members found. -/
def cleanupExpired (now : DateTime) : ℕ × RedisAckBackend :=
  if b.config.enabled then
    let expiredIds := b.store.zrangebyscore now
    let s := expiredIds.foldl (fun s id => (s.del id).zrem id) b.store
    (expiredIds.length, { b with store := s.hincrby 0 0 expiredIds.length 0 })
  else (0, b)

def pendingCount : ℕ := b.store.zcard

end RedisAckBackend

/-! ### Calls -/

/-- A call on a tracker. -/
inductive AckCall where
  | track (notificationId : Uuid) (userId : String) (connectionId : Uuid)
  | acknowledge (notificationId : Uuid) (userId : String)
  | cleanupExpired
  | pendingCount
deriving DecidableEq, Repr

/-- What a call returns. -/
inductive AckReply where
  | tracked
  | acknowledged (valid : Bool)
  | expired (count : ℕ)
  | pending (count : ℕ)
  | panicked
deriving DecidableEq, Repr

/-- A call with the readings of the two clocks. -/
structure AckInput where
  call : AckCall
  now : DateTime
  dbNow : DateTime
deriving DecidableEq, Repr

/-- Execution of one call by the in-memory backend. -/
def MemoryAckBackend.answer (b : MemoryAckBackend) (i : AckInput) : AckReply × MemoryAckBackend :=
  match i.call with
  | .track n u c => (.tracked, b.track n u c i.now)
  | .acknowledge n u => ((.acknowledged (b.acknowledge n u i.now).1), (b.acknowledge n u i.now).2)
  | .cleanupExpired => (.expired (b.cleanupExpired i.now).1, (b.cleanupExpired i.now).2)
  | .pendingCount => (.pending b.pendingCount, b)

/-- Execution of one call by the PostgreSQL backend; a panic comes before the first statement. -/
def PostgresAckBackend.answer (b : PostgresAckBackend) (i : AckInput) : AckReply × PostgresAckBackend :=
  match i.call with
  | .track n u c =>
      match b.track n u c i.now i.dbNow with
      | some b' => (.tracked, b')
      | none => (.panicked, b)
  | .acknowledge n u => (.acknowledged (b.acknowledge n u i.now).1, (b.acknowledge n u i.now).2)
  | .cleanupExpired => (.expired (b.cleanupExpired i.dbNow).1, (b.cleanupExpired i.dbNow).2)
  | .pendingCount => (.pending b.pendingCount, b)

/-- Execution of one call by the Redis backend. -/
def RedisAckBackend.answer (b : RedisAckBackend) (i : AckInput) : AckReply × RedisAckBackend :=
  match i.call with
  | .track n u c => (.tracked, b.track n u c i.now)
  | .acknowledge n u => (.acknowledged (b.acknowledge n u i.now).1, (b.acknowledge n u i.now).2)
  | .cleanupExpired => (.expired (b.cleanupExpired i.now).1, (b.cleanupExpired i.now).2)
  | .pendingCount => (.pending b.pendingCount, b)

end AraNotification
