import AraNotification.CircuitBreaker

/-! # The Redis connection pool

`RedisPool` caches one multiplexed connection and hands it to every operation, behind the
circuit breaker.  The definitions follow `infrastructure/redis/pool.rs`.  A connection is
known by a number that no other connection has, and what the `redis` crate answers, to an
attempt to connect and to a command, is part of the input of an operation (`Attempt`).

`execute` forgets the cached connection when its command fails with a connection error.  The
methods of `RedisPoolExt` all have one shape, `query`, which only reports to the breaker and
keeps the connection, and `ping` does not even report.  A pool therefore recovers from broken
connections exactly when they show in `execute` (`recovers_iff`). -/

namespace AraNotification

/-! ### Health -/

/-- Redis connection health status. -/
inductive RedisHealthStatus where
  | healthy
  | reconnecting
  | circuitOpen
  | disabled
deriving DecidableEq, Repr

/-- Redis health tracker. -/
structure RedisHealth where
  status : RedisHealthStatus
  lastConnected : ℤ
  reconnectionAttempts : ℕ
  totalReconnections : ℕ
deriving DecidableEq, Repr

namespace RedisHealth

def new : RedisHealth := ⟨.reconnecting, 0, 0, 0⟩

/-- Mark Redis as connected. -/
def setConnected (h : RedisHealth) (now : ℤ) : RedisHealth where
  status := .healthy
  lastConnected := now
  reconnectionAttempts := 0
  totalReconnections := if h.status ≠ .healthy then (h.totalReconnections + 1) % 2 ^ 32
    else h.totalReconnections

/-- Mark Redis as reconnecting. -/
def setReconnecting (h : RedisHealth) : RedisHealth :=
  { h with
    status := .reconnecting
    reconnectionAttempts := (h.reconnectionAttempts + 1) % 2 ^ 32 }

/-- Mark circuit as open. -/
def setCircuitOpen (h : RedisHealth) : RedisHealth := { h with status := .circuitOpen }

end RedisHealth

/-! ### Commands and answers -/

/-- A command with its arguments. -/
structure Cmd where
  name : String
  args : List String
deriving DecidableEq, Repr

/-- A value that Redis returns. -/
inductive RedisValue where
  | nil
  | int (n : ℤ)
  | bulk (s : String)
  | array (xs : List RedisValue)
deriving Repr

/-- An error of the `redis` crate, with what the pool asks it. -/
structure RedisError where
  isConnectionDropped : Bool
  isIoError : Bool
deriving DecidableEq, Repr

/-- The connection is broken. -/
def RedisError.breaksConnection (e : RedisError) : Bool := e.isConnectionDropped || e.isIoError

/-- What the crate answers to an operation, with the clock readings at its start and at the answers to
the attempt to connect and to the command. -/
structure Attempt where
  now : ℤ
  connecting : Except RedisError Unit
  connectedAt : ℤ
  outcome : Except RedisError RedisValue
  answeredAt : ℤ

/-- The command fails with a connection error. -/
def Attempt.breaksConnection (a : Attempt) : Bool :=
  match a.outcome with
  | .error e => e.breaksConnection
  | .ok _ => false

/-- Redis connection pool for data operations; `fresh` is the number of the next connection. -/
structure RedisPool where
  connection : Option ℕ
  fresh : ℕ
  circuitBreaker : CircuitBreaker
  health : RedisHealth

namespace RedisPool

/-- Error type for Redis pool operations. -/
inductive Failure where
  | redis (e : RedisError)
  | circuitOpen
deriving DecidableEq, Repr

/-- What an operation has done: the connection and the command that was issued on it, and the
result. -/
structure Outcome where
  issued : Option (ℕ × Cmd)
  result : Except Failure RedisValue

/-- The operation has returned a connection error. -/
def Outcome.broken (o : Outcome) : Bool :=
  match o.result with
  | .error (.redis e) => e.breaksConnection
  | _ => false

/-- Create a new Redis pool. -/
def new (circuitBreaker : CircuitBreaker) (health : RedisHealth) : RedisPool := ⟨none, 0, circuitBreaker, health⟩

variable (pool : RedisPool) (a : Attempt)

def recordSuccess (now : ℤ) : RedisPool :=
  { pool with circuitBreaker := pool.circuitBreaker.recordSuccess now }

def recordFailure (now : ℤ) : RedisPool :=
  { pool with circuitBreaker := pool.circuitBreaker.recordFailure now }

/-- Establish a new connection. -/
def connect : Except Failure ℕ × RedisPool :=
  match pool.connection with
  | some conn => (.ok conn, pool)
  | none =>
      let trying := { pool with health := pool.health.setReconnecting }
      match a.connecting with
      | .ok () =>
          (.ok pool.fresh,
            { trying.recordSuccess a.connectedAt with
              connection := some pool.fresh
              fresh := pool.fresh + 1
              health := trying.health.setConnected a.connectedAt })
      | .error e => (.error (.redis e), trying.recordFailure a.connectedAt)

/-- Get a connection from the pool. -/
def getConnection : Except Failure ℕ × RedisPool :=
  match pool.circuitBreaker.allowRequest a.now with
  | (false, breaker) =>
      (.error .circuitOpen,
        { pool with circuitBreaker := breaker, health := pool.health.setCircuitOpen })
  | (true, breaker) =>
      match pool.connection with
      | some conn => (.ok conn, { pool with circuitBreaker := breaker })
      | none => connect { pool with circuitBreaker := breaker } a

/-- Execute a Redis command with circuit breaker protection. -/
def execute (cmd : Cmd) : Outcome × RedisPool :=
  match pool.getConnection a with
  | (.error e, pool') => (⟨none, .error e⟩, pool')
  | (.ok conn, pool') =>
      match a.outcome with
      | .ok value => (⟨some (conn, cmd), .ok value⟩, pool'.recordSuccess a.answeredAt)
      | .error e =>
          let cleared := if e.breaksConnection then { pool' with connection := none } else pool'
          (⟨some (conn, cmd), .error (.redis e)⟩, cleared.recordFailure a.answeredAt)

/-- Ping Redis to check connectivity. -/
def ping : Outcome × RedisPool :=
  match pool.getConnection a with
  | (.error e, pool') => (⟨none, .error e⟩, pool')
  | (.ok conn, pool') => (⟨some (conn, ⟨"PING", []⟩), a.outcome.mapError .redis⟩, pool')

/-- The shape of the methods of `RedisPoolExt`. -/
def query (cmd : Cmd) : Outcome × RedisPool :=
  match pool.getConnection a with
  | (.error e, pool') => (⟨none, .error e⟩, pool')
  | (.ok conn, pool') =>
      match a.outcome with
      | .ok value => (⟨some (conn, cmd), .ok value⟩, pool'.recordSuccess a.answeredAt)
      | .error e => (⟨some (conn, cmd), .error (.redis e)⟩, pool'.recordFailure a.answeredAt)

/-- Fields and values as arguments. -/
def fieldArgs (fields : List (String × String)) : List String := fields.flatMap (fun f => [f.1, f.2])

/-- Add entry to a stream with MAXLEN trimming. -/
def xaddMaxlen (key : String) (maxlen : ℕ) (fields : List (String × String)) : Outcome × RedisPool :=
  pool.query a ⟨"XADD", [key, "MAXLEN", "~", toString maxlen, "*"] ++ fieldArgs fields⟩

/-- Read all entries from a stream. -/
def xrangeAll (key : String) : Outcome × RedisPool := pool.query a ⟨"XRANGE", [key, "-", "+"]⟩

/-- Delete a stream key. -/
def del (key : String) : Outcome × RedisPool := pool.query a ⟨"DEL", [key]⟩

/-- Check if a key exists. -/
def keyExists (key : String) : Outcome × RedisPool := pool.query a ⟨"EXISTS", [key]⟩

/-- Set multiple hash fields. -/
def hsetMultiple (key : String) (fields : List (String × String)) : Outcome × RedisPool :=
  pool.query a ⟨"HMSET", key :: fieldArgs fields⟩

/-- Get a hash field. -/
def hget (key field : String) : Outcome × RedisPool := pool.query a ⟨"HGET", [key, field]⟩

/-- Get all hash fields and values. -/
def hgetall (key : String) : Outcome × RedisPool := pool.query a ⟨"HGETALL", [key]⟩

/-- Delete a hash key. -/
def hdel (key : String) : Outcome × RedisPool := pool.del a key

/-- Increment a hash field by value. -/
def hincrby (key field : String) (increment : ℤ) : Outcome × RedisPool :=
  pool.query a ⟨"HINCRBY", [key, field, toString increment]⟩

/-- Add to sorted set; a score is given by its text. -/
def zadd (key score member : String) : Outcome × RedisPool := pool.query a ⟨"ZADD", [key, score, member]⟩

/-- Remove from sorted set. -/
def zrem (key member : String) : Outcome × RedisPool := pool.query a ⟨"ZREM", [key, member]⟩

/-- Get members with scores in a range. -/
def zrangebyscore (key min max : String) : Outcome × RedisPool :=
  pool.query a ⟨"ZRANGEBYSCORE", [key, min, max]⟩

/-- Get cardinality of a sorted set. -/
def zcard (key : String) : Outcome × RedisPool := pool.query a ⟨"ZCARD", [key]⟩

/-- Get the length of a Redis stream. -/
def xlen (key : String) : Outcome × RedisPool := pool.query a ⟨"XLEN", [key]⟩

/-- Set key expiration. -/
def expire (key : String) (seconds : ℤ) : Outcome × RedisPool :=
  pool.query a ⟨"EXPIRE", [key, toString seconds]⟩

/-! ### Operations -/

/-- The operations of the pool. -/
inductive Operation where
  | execute (cmd : Cmd)
  | ping
  | xaddMaxlen (key : String) (maxlen : ℕ) (fields : List (String × String))
  | xrangeAll (key : String)
  | del (key : String)
  | keyExists (key : String)
  | hsetMultiple (key : String) (fields : List (String × String))
  | hget (key field : String)
  | hgetall (key : String)
  | hdel (key : String)
  | hincrby (key field : String) (increment : ℤ)
  | zadd (key score member : String)
  | zrem (key member : String)
  | zrangebyscore (key min max : String)
  | zcard (key : String)
  | xlen (key : String)
  | expire (key : String) (seconds : ℤ)
deriving DecidableEq, Repr

/-- The operation is an `execute`. -/
def Operation.isExecute : Operation → Bool
  | .execute _ => true
  | _ => false

/-- An operation and what the crate answers to it. -/
structure Request where
  op : Operation
  attempt : Attempt

/-- Execution of one operation. -/
def step (pool : RedisPool) (r : Request) : Outcome × RedisPool :=
  match r.op with
  | .execute cmd => pool.execute r.attempt cmd
  | .ping => pool.ping r.attempt
  | .xaddMaxlen key maxlen fields => pool.xaddMaxlen r.attempt key maxlen fields
  | .xrangeAll key => pool.xrangeAll r.attempt key
  | .del key => pool.del r.attempt key
  | .keyExists key => pool.keyExists r.attempt key
  | .hsetMultiple key fields => pool.hsetMultiple r.attempt key fields
  | .hget key field => pool.hget r.attempt key field
  | .hgetall key => pool.hgetall r.attempt key
  | .hdel key => pool.hdel r.attempt key
  | .hincrby key field increment => pool.hincrby r.attempt key field increment
  | .zadd key score member => pool.zadd r.attempt key score member
  | .zrem key member => pool.zrem r.attempt key member
  | .zrangebyscore key min max => pool.zrangebyscore r.attempt key min max
  | .zcard key => pool.zcard r.attempt key
  | .xlen key => pool.xlen r.attempt key
  | .expire key seconds => pool.expire r.attempt key seconds

/-- The command of an operation is issued. -/
def issues (pool : RedisPool) (a : Attempt) : Bool :=
  (pool.circuitBreaker.allowRequest a.now).1 &&
    (pool.connection.isSome || match a.connecting with
      | .ok () => true
      | .error _ => false)

/-- The command of an operation other than `execute` is issued and fails with a connection error. -/
def Exposed (pool : RedisPool) (r : Request) : Prop :=
  r.op.isExecute = false ∧ pool.issues r.attempt = true ∧ r.attempt.breaksConnection = true

instance (pool : RedisPool) (r : Request) : Decidable (pool.Exposed r) := inferInstanceAs (Decidable (_ ∧ _))

/-- The connection of the command that was issued. -/
def Outcome.connection (o : Outcome) : Option ℕ := o.issued.map (·.1)

/-- After a connection error the cached connection is cleared, and no later operation is issued on
it. -/
def Recovers (history : List (Runs.Entry RedisPool Request Outcome)) : Prop :=
  ∀ earlier e later, history = earlier ++ e :: later → e.output.broken = true →
    e.after.connection = none ∧
      ∀ conn, e.output.connection = some conn → ∀ e' ∈ later, e'.output.connection ≠ some conn

/-- A connection that has failed with a connection error fails so again, whatever the command. -/
def Dead (history : List (Runs.Entry RedisPool Request Outcome)) : Prop :=
  ∀ earlier e later, history = earlier ++ e :: later → e.output.broken = true →
    ∀ conn, e.output.connection = some conn →
      ∀ e' ∈ later, e'.output.connection = some conn → e'.output.broken = true

/-! ### What an operation does -/

section operations
variable {pool : RedisPool} {a : Attempt}

/-- A connection is the cached one or a new one, which is then cached. -/
theorem getConnection_cases (pool : RedisPool) (a : Attempt) :
    (∃ e pool', pool.getConnection a = (.error e, pool') ∧ pool.issues a = false ∧
      pool'.connection = pool.connection ∧ pool'.fresh = pool.fresh ∧
      (∀ e', e = .redis e' → pool.connection = none)) ∨
    (∃ conn pool', pool.getConnection a = (.ok conn, pool') ∧ pool.issues a = true ∧
      pool'.connection = some conn ∧
      ((pool.connection = some conn ∧ pool'.fresh = pool.fresh) ∨
        (pool.connection = none ∧ conn = pool.fresh ∧ pool'.fresh = pool.fresh + 1))) := by
  unfold getConnection issues
  rcases hb : pool.circuitBreaker.allowRequest a.now with ⟨ok, breaker⟩
  cases ok with
  | false => exact .inl ⟨_, _, rfl, rfl, rfl, rfl, fun e' he => nomatch he⟩
  | true =>
      cases hc : pool.connection with
      | some conn => exact .inr ⟨conn, _, rfl, rfl, rfl, .inl ⟨rfl, rfl⟩⟩
      | none =>
          simp only [connect]
          cases hconn : a.connecting with
          | error e => exact .inl ⟨_, _, rfl, rfl, rfl, rfl, fun _ _ => trivial⟩
          | ok _ => exact .inr ⟨_, _, rfl, rfl, rfl, .inr ⟨trivial, rfl, rfl⟩⟩

theorem query_of_ok {conn : ℕ} {pool' : RedisPool} (hg : pool.getConnection a = (.ok conn, pool'))
    (cmd : Cmd) :
    (pool.query a cmd).1 = ⟨some (conn, cmd), a.outcome.mapError .redis⟩ ∧
      (pool.query a cmd).2.fresh = pool'.fresh ∧ (pool.query a cmd).2.connection = pool'.connection := by
  rw [query, hg]
  cases a.outcome <;> exact ⟨rfl, rfl, rfl⟩

theorem execute_of_ok {conn : ℕ} {pool' : RedisPool} (hg : pool.getConnection a = (.ok conn, pool'))
    (cmd : Cmd) :
    (pool.execute a cmd).1 = ⟨some (conn, cmd), a.outcome.mapError .redis⟩ ∧
      (pool.execute a cmd).2.fresh = pool'.fresh ∧
      (pool.execute a cmd).2.connection = if a.breaksConnection then none else pool'.connection := by
  rw [execute, hg, Attempt.breaksConnection]
  cases a.outcome with
  | ok value => exact ⟨rfl, rfl, rfl⟩
  | error e =>
      refine ⟨rfl, ?_, ?_⟩ <;> simp only [recordFailure] <;> split_ifs <;> rfl

/-- An operation ends without a connection, or issues its command and keeps the connection, but for
an `execute` that clears it. -/
theorem step_cases (pool : RedisPool) (r : Request) :
    (∃ e, (step pool r).1 = ⟨none, .error e⟩ ∧ pool.issues r.attempt = false ∧
      (step pool r).2.connection = pool.connection ∧ (step pool r).2.fresh = pool.fresh ∧
      (∀ e', e = .redis e' → pool.connection = none)) ∨
    (∃ conn cmd, (step pool r).1 = ⟨some (conn, cmd), r.attempt.outcome.mapError .redis⟩ ∧
      pool.issues r.attempt = true ∧
      (step pool r).2.connection = (if r.op.isExecute && r.attempt.breaksConnection then none
        else some conn) ∧
      ((pool.connection = some conn ∧ (step pool r).2.fresh = pool.fresh) ∨
        (pool.connection = none ∧ conn = pool.fresh ∧ (step pool r).2.fresh = pool.fresh + 1))) := by
  obtain ⟨op, a⟩ := r
  obtain ⟨e, pool', hg, hissues, hc, hf, he⟩ | ⟨conn, pool', hg, hissues, hc, hold⟩ := getConnection_cases pool a
  · left
    have hstep : step pool ⟨op, a⟩ = (⟨none, .error e⟩, pool') := by
      cases op <;> simp only [step, execute, ping, query, xaddMaxlen, xrangeAll, del, keyExists,
        hsetMultiple, hget, hgetall, hdel, hincrby, zadd, zrem, zrangebyscore, zcard, xlen, expire, hg]
    rw [hstep]
    exact ⟨e, rfl, hissues, hc, hf, he⟩
  · right
    have hstep : ∃ cmd, (step pool ⟨op, a⟩).1 = ⟨some (conn, cmd), a.outcome.mapError .redis⟩ ∧
        (step pool ⟨op, a⟩).2.fresh = pool'.fresh ∧ (step pool ⟨op, a⟩).2.connection =
          if op.isExecute && a.breaksConnection then none else pool'.connection := by
      cases op with
      | execute cmd => exact ⟨cmd, execute_of_ok hg cmd⟩
      | ping =>
          refine ⟨⟨"PING", []⟩, ?_⟩
          simp [step, ping, hg, Operation.isExecute]
      | xaddMaxlen | xrangeAll | del | keyExists | hsetMultiple | hget | hgetall | hdel | hincrby
      | zadd | zrem | zrangebyscore | zcard | xlen | expire => exact ⟨_, query_of_ok hg _⟩
    obtain ⟨cmd, hout, hfresh, hconn⟩ := hstep
    rw [hc] at hconn
    rw [← hfresh] at hold
    exact ⟨conn, cmd, hout, hissues, hconn, hold⟩

theorem broken_mapError (a : Attempt) (issued : Option (ℕ × Cmd)) :
    Outcome.broken ⟨issued, a.outcome.mapError .redis⟩ = a.breaksConnection := by
  unfold Outcome.broken Attempt.breaksConnection
  cases a.outcome <;> rfl

/-- The number of the cached connection has been given out. -/
def Numbered (pool : RedisPool) : Prop := ∀ conn, pool.connection = some conn → conn < pool.fresh

/-- A connection that is not cached and will not be made again. -/
def Gone (conn : ℕ) (pool : RedisPool) : Prop := pool.connection ≠ some conn ∧ conn < pool.fresh

theorem Numbered.step (h : pool.Numbered) (r : Request) :
    (RedisPool.step pool r).2.Numbered ∧
      ∀ conn, (RedisPool.step pool r).1.connection = some conn → conn < (RedisPool.step pool r).2.fresh := by
  obtain ⟨e, hout, -, hconn, hfresh, -⟩ | ⟨conn, cmd, hout, -, hconn, hold⟩ := step_cases pool r
  · rw [hout, Numbered, hconn, hfresh]
    exact ⟨h, fun conn hm => nomatch hm⟩
  · have hlt : conn < (RedisPool.step pool r).2.fresh := by
      obtain ⟨hcached, hfresh⟩ | ⟨-, rfl, hfresh⟩ := hold
      · rw [hfresh]
        exact h conn hcached
      · omega
    rw [hout, Numbered, hconn]
    refine ⟨fun c hm => ?_, fun c hm => ?_⟩
    · split_ifs at hm
      rwa [← Option.some.inj hm]
    · rwa [← Option.some.inj hm]

/-- A connection that is gone stays so. -/
theorem Gone.step {conn : ℕ} (h : Gone conn pool) (r : Request) :
    Gone conn (RedisPool.step pool r).2 ∧ (RedisPool.step pool r).1.connection ≠ some conn := by
  obtain ⟨hne, hlt⟩ := h
  obtain ⟨e, hout, -, hconn, hfresh, -⟩ | ⟨c, cmd, hout, -, hconn, hold⟩ := step_cases pool r
  · rw [hout, Gone, hconn, hfresh]
    exact ⟨⟨hne, hlt⟩, fun hm => nomatch hm⟩
  · have hother : c ≠ conn ∧ conn < (RedisPool.step pool r).2.fresh := by
      obtain ⟨hcached, hfresh⟩ | ⟨-, rfl, hfresh⟩ := hold
      · refine ⟨?_, hfresh ▸ hlt⟩
        rintro rfl
        exact hne hcached
      · omega
    have hsome : some c ≠ some conn := fun hm => hother.1 (Option.some.inj hm)
    rw [hout, Gone, hconn]
    refine ⟨⟨?_, hother.2⟩, hsome⟩
    split_ifs
    · exact fun hm => nomatch hm
    · exact hsome

/-- The connection is cleared after a connection error, unless the operation was exposed to it. -/
theorem cleared_iff (pool : RedisPool) (r : Request) :
    ((step pool r).1.broken = true → (step pool r).2.connection = none) ↔ ¬ pool.Exposed r := by
  obtain ⟨e, hout, hissues, hconn, -, hredis⟩ | ⟨conn, cmd, hout, hissues, hconn, -⟩ := step_cases pool r
  · rw [hout, hconn, Exposed, hissues]
    refine iff_of_true (fun hb => ?_) (by simp)
    cases e with
    | redis e' => exact hredis e' rfl
    | circuitOpen => cases hb
  · rw [hout, hconn, broken_mapError, Exposed, hissues]
    cases r.op.isExecute <;> cases r.attempt.breaksConnection <;> simp

end operations

/-! ### Runs -/

section runs
variable {pool : RedisPool}

theorem not_issued_of_gone {conn : ℕ} (requests : List Request) (h : Gone conn pool) :
    ∀ e ∈ Runs.trace step pool requests, e.output.connection ≠ some conn := by
  induction requests generalizing pool with
  | nil => exact fun e he => absurd he List.not_mem_nil
  | cons r requests ih =>
      intro e he
      rcases List.mem_cons.mp he with rfl | he
      · exact (h.step r).2
      · exact ih (h.step r).1 e he

theorem recovers_cons {e : Runs.Entry RedisPool Request Outcome}
    {history : List (Runs.Entry RedisPool Request Outcome)} :
    Recovers (e :: history) ↔ (e.output.broken = true → e.after.connection = none ∧
      ∀ conn, e.output.connection = some conn → ∀ e' ∈ history, e'.output.connection ≠ some conn) ∧
      Recovers history := by
  constructor
  · intro h
    refine ⟨h [] e history rfl, fun earlier e' later heq => ?_⟩
    exact h (e :: earlier) e' later (by rw [heq]; rfl)
  · rintro ⟨hhead, htail⟩ earlier e' later heq
    cases earlier with
    | nil =>
        cases heq
        exact hhead
    | cons e₁ earlier =>
        cases heq
        exact htail earlier e' later rfl

theorem recovers_trace_iff (h : pool.Numbered) (requests : List Request) :
    Recovers (Runs.trace step pool requests) ↔
      Runs.Admissible step (fun pool r => ¬ pool.Exposed r) pool requests := by
  induction requests generalizing pool with
  | nil => exact iff_of_true (fun earlier e later heq => by simp [Runs.trace] at heq) trivial
  | cons r requests ih =>
      obtain ⟨hnext, hissued⟩ := h.step r
      rw [Runs.trace, recovers_cons, Runs.Admissible, ih hnext, ← cleared_iff]
      refine and_congr_left (fun _ => ⟨fun hhead hb => (hhead hb).1, fun hclear hb => ⟨hclear hb, ?_⟩⟩)
      -- The connection is not cached any more, and new connections have new numbers.
      intro conn hconn
      refine not_issued_of_gone requests ⟨?_, hissued conn hconn⟩
      rw [hclear hb]
      exact Option.not_mem_none conn

/-- **A pool recovers from its broken connections exactly when they show in `execute`.** -/
theorem recovers_iff (circuitBreaker : CircuitBreaker) (health : RedisHealth) (requests : List Request) :
    Recovers (Runs.trace step (new circuitBreaker health) requests) ↔
      Runs.Admissible step (fun pool r => ¬ pool.Exposed r) (new circuitBreaker health) requests :=
  recovers_trace_iff (by simp [Numbered, new]) requests

/-- A drain of the queue when the server has gone away. -/
def unanswered : Request := ⟨.xrangeAll "ara:queue:default:alice", 0, .ok (), 0, .error ⟨true, false⟩, 0⟩

/-- Two reads of a stream on the same broken connection. -/
theorem issued_on_broken_connection :
    ¬ ∀ (circuitBreaker : CircuitBreaker) (health : RedisHealth) (requests : List Request),
        Dead (Runs.trace step (new circuitBreaker health) requests) →
        Recovers (Runs.trace step (new circuitBreaker health) requests) := by
  intro hall
  have hbroken : ∀ e ∈ Runs.trace step (new (.withConfig .default 0) .new) [unanswered, unanswered],
      e.output.broken = true := by
    decide
  have hdead : Dead (Runs.trace step (new (.withConfig .default 0) .new) [unanswered, unanswered]) := by
    intro earlier e later heq _ conn _ e' he' _
    refine hbroken e' ?_
    rw [heq]
    exact List.mem_append_right _ (List.mem_cons_of_mem _ he')
  have hcleared := (hall _ _ _ hdead [] _ _ rfl rfl).1
  exact absurd hcleared (by decide)

end runs

end RedisPool

end AraNotification
