import AraNotification.RedisPool
import AraNotification.Settings

/-! # The health flag of the connection pool

The pool tells the outside how Redis is doing in two places: the circuit breaker, and the
`RedisHealth` that `GET /health` shows.  A rejected request sets the flag to
`circuitOpen`, and only the making of a connection sets it to `healthy`.  A circuit that is
opened and closed again over one cached connection therefore leaves the flag behind: the
outage is over and is still reported.

`agrees_of_admissible`: in a run in which no request is rejected while a connection is cached,
the flag says `healthy` after every operation that succeeds and leaves the breaker closed. -/

namespace AraNotification

namespace RedisHealth

/-- Check if Redis is healthy. -/
def isHealthy (h : RedisHealth) : Bool := decide (h.status = .healthy)

end RedisHealth

/-- `RedisHealthStatus::as_str`. -/
def RedisHealthStatus.asStr : RedisHealthStatus → String
  | .healthy => "healthy"
  | .reconnecting => "reconnecting"
  | .circuitOpen => "circuit_open"
  | .disabled => "disabled"

structure RedisHealthResponse where
  status : String
  connected : Bool
deriving DecidableEq, Repr

/-- What `GET /health` says about Redis and about the service. -/
structure HealthResponse where
  status : String
  redis : RedisHealthResponse
deriving DecidableEq, Repr

/-- A configured backend lives in Redis. -/
def redisRequired (settings : Settings) : Bool :=
  (settings.queue.enabled && decide (settings.queue.backend = "redis")) ||
    (settings.ack.enabled && decide (settings.ack.backend = "redis")) ||
    settings.cluster.enabled

/-- The handler of `GET /health`. -/
def health (settings : Settings) (redisHealth : RedisHealth) : HealthResponse :=
  let redisStatus := if redisRequired settings then redisHealth.status else .disabled
  let isRedisHealthy := decide (redisStatus = .healthy)
  { status := if !redisRequired settings || isRedisHealthy then "healthy" else "degraded"
    redis := ⟨redisStatus.asStr, isRedisHealthy⟩ }

namespace RedisPool

/-- Check if the pool is healthy (circuit breaker closed and connected). -/
def isHealthy (pool : RedisPool) (now : ℤ) : Bool × RedisPool :=
  if pool.health.isHealthy then
    match pool.circuitBreaker.getState now with
    | (state, breaker) => (decide (state = .closed), { pool with circuitBreaker := breaker })
  else (false, pool)

/-- Get the circuit breaker state. -/
def circuitState (pool : RedisPool) (now : ℤ) : CircuitState × RedisPool :=
  match pool.circuitBreaker.getState now with
  | (state, breaker) => (state, { pool with circuitBreaker := breaker })

/-! ### Calls -/

/-- The calls of the pool: its operations, a bare `get_connection`, and the two that only look. -/
inductive PoolCall where
  | getConnection (a : Attempt)
  | request (r : Request)
  | isHealthy (now : ℤ)
  | circuitState (now : ℤ)

inductive PoolReply where
  | connection (r : Except Failure ℕ)
  | outcome (o : Outcome)
  | healthy (ok : Bool)
  | state (s : CircuitState)

/-- Execution of one call. -/
def call (pool : RedisPool) : PoolCall → PoolReply × RedisPool
  | .getConnection a => ((.connection (pool.getConnection a).1), (pool.getConnection a).2)
  | .request r => ((.outcome (step pool r).1), (step pool r).2)
  | .isHealthy now => ((.healthy (pool.isHealthy now).1), (pool.isHealthy now).2)
  | .circuitState now => ((.state (pool.circuitState now).1), (pool.circuitState now).2)

/-- What the crate answers to a call that asks for a connection. -/
def PoolCall.attempt : PoolCall → Option Attempt
  | .getConnection a => some a
  | .request r => some r.attempt
  | _ => none

/-- An operation has succeeded; a look at the state is none. -/
def PoolReply.succeeded : PoolReply → Bool
  | .connection (.ok _) => true
  | .outcome ⟨_, .ok _⟩ => true
  | _ => false

/-- An outage that is over is not reported any more. -/
structure Recovered (pool : RedisPool) : Prop where
  status : pool.health.status = .healthy
  isHealthy : ∀ now, (pool.isHealthy now).1 = true
  health : ∀ settings, (AraNotification.health settings pool.health).status = "healthy" ∧
    (AraNotification.health settings pool.health).redis.connected = redisRequired settings

/-- After a success that leaves the breaker closed no outage is reported. -/
def Agrees (e : Runs.Entry RedisPool PoolCall PoolReply) : Prop :=
  e.output.succeeded = true → e.after.circuitBreaker.state = .closed → e.after.Recovered

/-- The breaker rejects the request although a connection is cached. -/
def Conceals (pool : RedisPool) (c : PoolCall) : Prop :=
  pool.connection.isSome = true ∧
    c.attempt.any (fun a => !(pool.circuitBreaker.allowRequest a.now).1) = true

instance (pool : RedisPool) (c : PoolCall) : Decidable (pool.Conceals c) := inferInstanceAs (Decidable (_ ∧ _))

/-- A cached connection is reported. -/
def Reported (pool : RedisPool) : Prop := pool.connection.isSome = true → pool.health.status = .healthy

/-! ### What a call does to the flag -/

section calls
variable {pool : RedisPool} {a : Attempt}

/-- A request that is let through ends with a reported connection or without one. -/
theorem Reported.getConnection (h : pool.Reported) (hc : ¬ pool.Conceals (.getConnection a)) :
    (pool.getConnection a).2.Reported := by
  unfold RedisPool.getConnection
  rcases hb : pool.circuitBreaker.allowRequest a.now with ⟨ok, breaker⟩
  cases ok with
  | false =>
      intro hsome
      exact absurd ⟨hsome, by simp [PoolCall.attempt, hb]⟩ hc
  | true =>
      cases hconn : pool.connection with
      | some conn => exact fun _ => h (by rw [hconn]; rfl)
      | none =>
          simp only [connect]
          cases a.connecting with
          | ok _ => exact fun _ => rfl
          | error e => exact fun hsome => by simp [recordFailure] at hsome

theorem query_keeps (pool : RedisPool) (a : Attempt) (cmd : Cmd) :
    (pool.query a cmd).2.health = (pool.getConnection a).2.health ∧
      (pool.query a cmd).2.connection = (pool.getConnection a).2.connection := by
  unfold query
  rcases pool.getConnection a with ⟨_ | conn, pool'⟩
  · exact ⟨rfl, rfl⟩
  · cases a.outcome <;> exact ⟨rfl, rfl⟩

theorem execute_keeps (pool : RedisPool) (a : Attempt) (cmd : Cmd) :
    (pool.execute a cmd).2.health = (pool.getConnection a).2.health ∧
      ((pool.execute a cmd).2.connection = none ∨
        (pool.execute a cmd).2.connection = (pool.getConnection a).2.connection) := by
  unfold execute
  rcases pool.getConnection a with ⟨_ | conn, pool'⟩
  · exact ⟨rfl, .inr rfl⟩
  · cases a.outcome with
    | ok value => exact ⟨rfl, .inr rfl⟩
    | error e =>
        by_cases hbreak : e.breaksConnection
        · simp [hbreak, recordFailure]
        · simp [hbreak, recordFailure]

theorem ping_keeps (pool : RedisPool) (a : Attempt) : (pool.ping a).2 = (pool.getConnection a).2 := by
  unfold ping
  rcases pool.getConnection a with ⟨_ | conn, pool'⟩ <;> rfl

/-- The flag is left to `getConnection`, and the connection too unless it is cleared. -/
theorem step_keeps (pool : RedisPool) (r : Request) :
    (step pool r).2.health = (pool.getConnection r.attempt).2.health ∧
      ((step pool r).2.connection = none ∨
        (step pool r).2.connection = (pool.getConnection r.attempt).2.connection) := by
  obtain ⟨op, a⟩ := r
  cases op with
  | execute cmd => exact execute_keeps pool a cmd
  | ping => exact ⟨congrArg health (ping_keeps pool a), .inr (congrArg connection (ping_keeps pool a))⟩
  | xaddMaxlen | xrangeAll | del | keyExists | hsetMultiple | hget | hgetall | hdel | hincrby
  | zadd | zrem | zrangebyscore | zcard | xlen | expire =>
      exact ⟨(query_keeps pool a _).1, .inr (query_keeps pool a _).2⟩

theorem isHealthy_keeps (pool : RedisPool) (now : ℤ) :
    (pool.isHealthy now).2.health = pool.health ∧ (pool.isHealthy now).2.connection = pool.connection := by
  unfold isHealthy
  split_ifs <;> exact ⟨rfl, rfl⟩

/-- A call that conceals nothing keeps the connection reported. -/
theorem Reported.call {c : PoolCall} (h : pool.Reported) (hc : ¬ pool.Conceals c) :
    (pool.call c).2.Reported := by
  cases c with
  | getConnection a => exact h.getConnection hc
  | request r =>
      have hget : (pool.getConnection r.attempt).2.Reported := h.getConnection hc
      obtain ⟨hhealth, hconn⟩ := step_keeps pool r
      intro hsome
      change (step pool r).2.connection.isSome = true at hsome
      change (step pool r).2.health.status = .healthy
      rw [hhealth]
      rcases hconn with hconn | hconn
      · simp [hconn] at hsome
      · exact hget (hconn ▸ hsome)
  | isHealthy now =>
      obtain ⟨hhealth, hconn⟩ := isHealthy_keeps pool now
      simp only [RedisPool.call, Reported, hhealth, hconn]
      exact h
  | circuitState now => exact h

/-- An operation that succeeds leaves a cached connection. -/
theorem connected_of_succeeded {c : PoolCall} (h : (pool.call c).1.succeeded = true) :
    (pool.call c).2.connection.isSome = true := by
  cases c with
  | getConnection a =>
      obtain ⟨e, pool', hg, -⟩ | ⟨conn, pool', hg, -, hconn, -⟩ := getConnection_cases pool a
      · simp [call, hg, PoolReply.succeeded] at h
      · simp [call, hg, hconn]
  | request r =>
      obtain ⟨e, hout, -⟩ | ⟨conn, cmd, hout, -, hconn, -⟩ := step_cases pool r
      · simp [call, hout, PoolReply.succeeded] at h
      · cases hres : r.attempt.outcome with
        | ok value => simp [call, hconn, Attempt.breaksConnection, hres]
        | error e => simp [call, hout, hres, Except.mapError, PoolReply.succeeded] at h
  | isHealthy now => cases h
  | circuitState now => cases h

/-- A healthy pool with a closed breaker says so everywhere. -/
theorem recovered_of_status (hstatus : pool.health.status = .healthy)
    (hclosed : pool.circuitBreaker.state = .closed) : pool.Recovered where
  status := hstatus
  isHealthy now := by
    simp [RedisPool.isHealthy, RedisHealth.isHealthy, hstatus, CircuitBreaker.getState,
      CircuitBreaker.checkStateTransition, hclosed]
  health settings := by
    cases hreq : redisRequired settings <;> simp [AraNotification.health, hreq, hstatus]

end calls

/-! ### Runs -/

/-- **Where no request is rejected over a cached connection, no outage is reported that is over.** -/
theorem agrees_of_admissible (circuitBreaker : CircuitBreaker) (health : RedisHealth) (calls : List PoolCall)
    (hok : Runs.Admissible call (fun pool c => ¬ pool.Conceals c) (new circuitBreaker health) calls) :
    ∀ e ∈ Runs.trace call (new circuitBreaker health) calls, Agrees e := by
  have hstart : (new circuitBreaker health).Reported := fun hsome => nomatch hsome
  generalize new circuitBreaker health = pool at hok hstart
  induction calls generalizing pool with
  | nil => exact fun e he => absurd he List.not_mem_nil
  | cons c calls ih =>
      have hnext := hstart.call hok.1
      intro e he
      rcases List.mem_cons.mp he with rfl | he
      · exact fun hs hclosed => recovered_of_status (hnext (connected_of_succeeded hs)) hclosed
      · exact ih _ hok.2 hnext e he

/-- A read of the queue at a given time that is answered. -/
def answered (now : ℤ) : PoolCall :=
  .request ⟨.xlen "ara:queue:default:alice", now, .ok (), now, .ok (.int 0), now⟩

/-- A read of the queue at a given time that the server answers with an error. -/
def refused (now : ℤ) : PoolCall :=
  .request ⟨.xlen "ara:queue:default:alice", now, .ok (), now, .error ⟨false, false⟩, now⟩

/-- The answer after an outage is reported. -/
theorem agrees_of_admissible_outage :
    Agrees (Runs.entry call (Runs.final call (new (.withConfig .default 0) .new) [answered 0, refused 1])
      (answered 2)) := by
  have hall := agrees_of_admissible (.withConfig .default 0) .new [answered 0, refused 1, answered 2] (by decide)
  exact hall _ (List.mem_cons_of_mem _ (List.mem_cons_of_mem _ List.mem_cons_self))

/-- Five errors open the circuit, a request is rejected, and two answers close it again. -/
theorem outage_still_reported :
    ¬ ∀ (circuitBreaker : CircuitBreaker) (health : RedisHealth) (calls : List PoolCall),
        ∀ e ∈ Runs.trace call (new circuitBreaker health) calls, Agrees e := by
  intro hall
  have hlast := hall (.withConfig .default 0) .new
    ([answered 0, refused 1, refused 1, refused 1, refused 1, refused 1, answered 2] ++
      [answered 30001, answered 30002])
    (Runs.entry call (Runs.final call (new (.withConfig .default 0) .new)
      [answered 0, refused 1, refused 1, refused 1, refused 1, refused 1, answered 2, answered 30001])
      (answered 30002)) ?_
  · exact absurd (hlast (by decide) (by decide)).status (by decide)
  · rw [← List.concat_append, Runs.trace_snoc]
    exact List.mem_append_right _ (List.mem_singleton_self _)

end RedisPool

end AraNotification
