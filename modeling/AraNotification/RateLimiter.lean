import AraNotification.IpAddr
import AraNotification.Lib.Runs
import AraNotification.Tenant

/-! # The rate limiter of one server

A token bucket holds whole tokens; `try_consume` adds what has come in since the last time a token
was taken and takes one, and a request that finds none changes nothing
(`domain/ratelimit/token_bucket.rs`).  The limiter keeps a bucket for each address that opens
connections and one for each key that sends requests, made full when first seen
(`domain/ratelimit/limiter.rs`).  The middleware of the protected routes takes the key from the
`X-API-Key` header, and the text of the client's address when there is none, and runs before
authentication (`server/middleware.rs`, `server/app.rs`).

The clock is read in milliseconds, several times in one check (`Readings`).  Unsigned
arithmetic wraps around.  A check reads and writes the bucket of its own key only
(`checkKey_congr`, `lookup_checkKey`). -/

namespace AraNotification

/-! ### Token buckets -/

/-- Token bucket; times are Unix milliseconds. -/
structure TokenBucket where
  tokens : ℕ
  lastRefill : ℤ
  capacity : ℕ
  refillRate : ℕ
deriving DecidableEq, Repr

namespace TokenBucket
variable (b : TokenBucket)

/-- Create a new token bucket; `now` is the clock reading. -/
def new (capacity refillRate : ℕ) (now : ℤ) : TokenBucket := ⟨capacity, now, capacity, refillRate⟩

/-- Tokens to add for the time since the last refill. -/
def tokensToAdd (now : ℤ) : ℕ := (now - b.lastRefill).toNat * b.refillRate % 2 ^ 64 / 1000 % 2 ^ 32

/-- The number of tokens at `now`; also `available`. -/
def refilled (now : ℤ) : ℕ := min ((b.tokens + b.tokensToAdd now) % 2 ^ 32) b.capacity

/-- Try to consume `n` tokens. -/
def tryConsumeN (now : ℤ) (n : ℕ) : Bool × TokenBucket :=
  if b.refilled now < n then (false, b)
  else (true, { b with tokens := b.refilled now - n, lastRefill := now })

/-- Try to consume one token. -/
def tryConsume (now : ℤ) : Bool × TokenBucket := b.tryConsumeN now 1

/-- Seconds until the bucket has at least one token. -/
def retryAfter (now : ℤ) : ℕ := if b.refilled now > 0 then 0 else max (1000 / max b.refillRate 1 / 1000) 1

/-- Last activity time. -/
def lastActivity : ℤ := b.lastRefill

/-- The tokens are those that were there and what has come in, up to wrapping around. -/
theorem refilled_le (now : ℤ) :
    b.refilled now ≤ b.capacity ∧
      1000 * b.refilled now ≤ 1000 * b.tokens + (now - b.lastRefill).toNat * b.refillRate := by
  have hadd : 1000 * b.tokensToAdd now ≤ (now - b.lastRefill).toNat * b.refillRate :=
    calc 1000 * b.tokensToAdd now
        ≤ 1000 * ((now - b.lastRefill).toNat * b.refillRate % 2 ^ 64 / 1000) :=
          Nat.mul_le_mul_left 1000 (Nat.mod_le _ _)
      _ ≤ (now - b.lastRefill).toNat * b.refillRate % 2 ^ 64 := Nat.mul_div_le _ _
      _ ≤ (now - b.lastRefill).toNat * b.refillRate := Nat.mod_le _ _
  have hsum : (b.tokens + b.tokensToAdd now) % 2 ^ 32 ≤ b.tokens + b.tokensToAdd now := Nat.mod_le _ _
  unfold refilled
  omega

/-- Tokens are taken out of what the bucket holds and has come in, or nothing changes. -/
theorem tryConsumeN_cases (now : ℤ) (n : ℕ) :
    b.tryConsumeN now n = (false, b) ∨
      ∃ tokens, b.tryConsumeN now n = (true, { b with tokens := tokens, lastRefill := now }) ∧
        tokens + n ≤ b.capacity ∧
        1000 * (tokens + n) ≤ 1000 * b.tokens + (now - b.lastRefill).toNat * b.refillRate := by
  obtain ⟨hcap, hin⟩ := b.refilled_le now
  unfold tryConsumeN
  split_ifs with h
  · exact .inl rfl
  · have hsum : b.refilled now - n + n = b.refilled now := by omega
    exact .inr ⟨b.refilled now - n, rfl, by rwa [hsum], by rwa [hsum]⟩

theorem tryConsume_cases (now : ℤ) :
    b.tryConsume now = (false, b) ∨
      ∃ tokens, b.tryConsume now = (true, { b with tokens := tokens, lastRefill := now }) ∧
        tokens + 1 ≤ b.capacity ∧
        1000 * (tokens + 1) ≤ 1000 * b.tokens + (now - b.lastRefill).toNat * b.refillRate :=
  b.tryConsumeN_cases now 1

end TokenBucket

/-! ### The limiter -/

/-- The configuration of the limiter. -/
structure RateLimitConfig where
  enabled : Bool
  httpRequestsPerSecond : ℕ
  httpBurstSize : ℕ
  wsConnectionsPerMinute : ℕ
  bucketTtlSeconds : ℕ
deriving DecidableEq, Repr

/-- Result of a rate limit check. -/
inductive RateLimitResult where
  | allowed (remaining limit : ℕ) (resetAt : ℤ)
  | denied (retryAfter limit : ℕ) (resetAt : ℤ)
deriving DecidableEq, Repr

def RateLimitResult.isAllowed : RateLimitResult → Bool
  | allowed .. => true
  | denied .. => false

/-- When the limit is said to be reset. -/
def RateLimitResult.resetAt : RateLimitResult → ℤ
  | allowed _ _ resetAt => resetAt
  | denied _ _ resetAt => resetAt

/-- The clock readings of one check: for a new bucket, for the token and for the result. -/
structure Readings where
  created : ℤ
  consumed : ℤ
  reported : ℤ
deriving DecidableEq, Repr

/-- Rate limiter with a bucket for each address and each key. -/
structure RateLimiter where
  ipBuckets : DashMap IpAddr TokenBucket
  keyBuckets : DashMap String TokenBucket
  config : RateLimitConfig

namespace RateLimiter

/-- Create a rate limiter. -/
def new (config : RateLimitConfig) : RateLimiter := ⟨∅, ∅, config⟩

variable (l : RateLimiter) (r : Readings)

/-- The result when rate limiting is disabled. -/
def unlimited : RateLimitResult := .allowed (2 ^ 32 - 1) 0 0

/-- The bucket of an address, or a new one. -/
def ipBucket (ip : IpAddr) : TokenBucket :=
  (l.ipBuckets.lookup ip).getD
    (.new l.config.wsConnectionsPerMinute (max ((l.config.wsConnectionsPerMinute + 59) / 60) 1) r.created)

/-- Check the limit of an address that opens a connection. -/
def checkIp (ip : IpAddr) : RateLimitResult × RateLimiter :=
  if l.config.enabled then
    let bucket := l.ipBucket r ip
    let (consumed, bucket') := bucket.tryConsume r.consumed
    (if consumed then .allowed (bucket'.refilled r.reported) l.config.wsConnectionsPerMinute
        (bucket.lastActivity + 60000)
      else .denied 60 l.config.wsConnectionsPerMinute (bucket.lastActivity + 60000),
      { l with ipBuckets := l.ipBuckets.insert ip bucket' })
  else (unlimited, l)

/-- The bucket of a key, or a new one. -/
def keyBucket (key : String) : TokenBucket :=
  (l.keyBuckets.lookup key).getD (.new l.config.httpBurstSize l.config.httpRequestsPerSecond r.created)

/-- Check the limit of a key that sends a request. -/
def checkKey (key : String) : RateLimitResult × RateLimiter :=
  if l.config.enabled then
    let bucket := l.keyBucket r key
    let (consumed, bucket') := bucket.tryConsume r.consumed
    (if consumed then .allowed (bucket'.refilled r.reported) l.config.httpRequestsPerSecond
        (bucket.lastActivity + 1000)
      else .denied (bucket'.retryAfter r.reported) l.config.httpRequestsPerSecond
        (bucket.lastActivity + 1000),
      { l with keyBuckets := l.keyBuckets.insert key bucket' })
  else (unlimited, l)

/-- The key of a request: the given one, or the text of the address. -/
def httpKey (key : Option String) (ip : IpAddr) : String := key.getD ip.toString

/-- Check the limit of a request. -/
def checkHttp (key : Option String) (ip : IpAddr) : RateLimitResult × RateLimiter :=
  l.checkKey r (httpKey key ip)

/-- The age from which a bucket is stale, in milliseconds. -/
def ttlMs : ℤ := asI64 (l.config.bucketTtlSeconds * 1000 % 2 ^ 64)

/-- A bucket that `cleanup_stale` keeps. -/
def keeps (now : ℤ) (b : TokenBucket) : Bool := decide (now - b.lastActivity < l.ttlMs)

/-- Clean up stale buckets; the number of removed ones is returned. -/
def cleanupStale (now : ℤ) : ℕ × RateLimiter :=
  (l.ipBuckets.values.countP (fun b => !l.keeps now b) + l.keyBuckets.values.countP (fun b => !l.keeps now b),
    { l with ipBuckets := l.ipBuckets.retain (l.keeps now), keyBuckets := l.keyBuckets.retain (l.keeps now) })

/-! ### What a check reads and writes -/

section checks
variable {l : RateLimiter} {r : Readings} {key : String}

theorem config_checkKey : (l.checkKey r key).2.config = l.config := by
  unfold checkKey
  split_ifs <;> rfl

theorem checkKey_of_disabled (h : l.config.enabled = false) : l.checkKey r key = (unlimited, l) := by
  simp [checkKey, h]

/-- A check replaces the bucket of its key by the one after the attempt to take a token. -/
theorem lookup_checkKey (h : l.config.enabled = true) (key' : String) :
    (l.checkKey r key).2.keyBuckets.lookup key' =
      if key' = key then some ((l.keyBucket r key).tryConsume r.consumed).2 else l.keyBuckets.lookup key' := by
  simp only [checkKey, h, if_true]
  exact DashMap.lookup_insert _ _ _ _

/-- A request passes when a token could be taken. -/
theorem isAllowed_checkKey (h : l.config.enabled = true) :
    (l.checkKey r key).1.isAllowed = ((l.keyBucket r key).tryConsume r.consumed).1 := by
  simp only [checkKey, h, if_true]
  cases ((l.keyBucket r key).tryConsume r.consumed).1 <;> rfl

/-- The reset time tells when a token was last taken from the bucket. -/
theorem resetAt_checkKey (h : l.config.enabled = true) :
    (l.checkKey r key).1.resetAt = (l.keyBucket r key).lastActivity + 1000 := by
  simp only [checkKey, h, if_true]
  split_ifs <;> rfl

/-- The result depends on the configuration and on the bucket of the key only. -/
theorem checkKey_congr {l' : RateLimiter} (hc : l.config = l'.config)
    (hb : l.keyBuckets.lookup key = l'.keyBuckets.lookup key) :
    (l.checkKey r key).1 = (l'.checkKey r key).1 := by
  have hbucket : l.keyBucket r key = l'.keyBucket r key := by
    rw [keyBucket, keyBucket, hb, hc]
  simp only [checkKey, hbucket, hc]
  split_ifs <;> rfl

theorem config_checkIp {ip : IpAddr} : (l.checkIp r ip).2.config = l.config := by
  unfold checkIp
  split_ifs <;> rfl

theorem checkIp_of_disabled {ip : IpAddr} (h : l.config.enabled = false) : l.checkIp r ip = (unlimited, l) := by
  simp [checkIp, h]

theorem lookup_checkIp {ip : IpAddr} (h : l.config.enabled = true) (ip' : IpAddr) :
    (l.checkIp r ip).2.ipBuckets.lookup ip' =
      if ip' = ip then some ((l.ipBucket r ip).tryConsume r.consumed).2 else l.ipBuckets.lookup ip' := by
  simp only [checkIp, h, if_true]
  exact DashMap.lookup_insert _ _ _ _

theorem isAllowed_checkIp {ip : IpAddr} (h : l.config.enabled = true) :
    (l.checkIp r ip).1.isAllowed = ((l.ipBucket r ip).tryConsume r.consumed).1 := by
  simp only [checkIp, h, if_true]
  cases ((l.ipBucket r ip).tryConsume r.consumed).1 <;> rfl

/-- The buckets of keys have the configured capacity and rate. -/
def Sized (l : RateLimiter) : Prop :=
  ∀ key b, l.keyBuckets.lookup key = some b →
    b.capacity = l.config.httpBurstSize ∧ b.refillRate = l.config.httpRequestsPerSecond

theorem sized_new (config : RateLimitConfig) : (new config).Sized := by
  intro key b h
  exact absurd h (by simp [new])

theorem Sized.keyBucket (h : l.Sized) (key : String) :
    (l.keyBucket r key).capacity = l.config.httpBurstSize ∧
      (l.keyBucket r key).refillRate = l.config.httpRequestsPerSecond := by
  unfold RateLimiter.keyBucket
  cases hb : l.keyBuckets.lookup key with
  | none => exact ⟨rfl, rfl⟩
  | some b => exact h key b hb

theorem Sized.checkKey (h : l.Sized) : (l.checkKey r key).2.Sized := by
  intro key' b hb
  rw [config_checkKey]
  cases he : l.config.enabled with
  | false =>
      rw [checkKey_of_disabled he] at hb
      exact h key' b hb
  | true =>
      rw [lookup_checkKey he] at hb
      split_ifs at hb
      · obtain rfl := Option.some.inj hb
        rcases (l.keyBucket r key).tryConsume_cases r.consumed with hsame | ⟨tokens, htaken, -⟩
        · rw [hsame]
          exact h.keyBucket key
        · rw [htaken]
          exact h.keyBucket key
      · exact h key' b hb

end checks

end RateLimiter

/-! ### The middleware -/

/-- A request to a protected route. -/
structure HttpRequest where
  headers : RequestHeaders
  ip : IpAddr
  readings : Readings
deriving DecidableEq, Repr

/-- The limit headers of a response. -/
structure RateLimitHeaders where
  limit : ℕ
  remaining : ℕ
  resetAt : ℤ
deriving DecidableEq, Repr

/-- `rate_limit_response`: the response with status 429. -/
structure RateLimitResponse where
  code : String
  message : String
  retryAfter : ℕ
  headers : RateLimitHeaders
deriving DecidableEq, Repr

def rateLimitResponse (retryAfter limit : ℕ) (resetAt : ℤ) : RateLimitResponse where
  code := "RATE_LIMITED"
  message := "Too many requests, please retry after " ++ toString retryAfter ++ " seconds"
  retryAfter := retryAfter
  headers := ⟨limit, 0, resetAt⟩

/-- What the rate limit middleware does with a request: it runs the next layer and adds limit
headers to its response, or it answers itself. -/
inductive LimitOutcome where
  | next (headers : Option RateLimitHeaders)
  | limited (response : RateLimitResponse)
deriving DecidableEq, Repr

def LimitOutcome.passed : LimitOutcome → Bool
  | next _ => true
  | limited _ => false

/-- Rate limiting of requests. -/
def rateLimitMiddleware (l : RateLimiter) (req : HttpRequest) : LimitOutcome × RateLimiter :=
  if l.config.enabled then
    match l.checkHttp req.readings req.headers.apiKey req.ip with
    | (.allowed remaining limit resetAt, l') => (.next (some ⟨limit, remaining, resetAt⟩), l')
    | (.denied retryAfter limit resetAt, l') => (.limited (rateLimitResponse retryAfter limit resetAt), l')
  else (.next none, l)

/-- The rate limit key of a request. -/
def HttpRequest.key (req : HttpRequest) : String := RateLimiter.httpKey req.headers.apiKey req.ip

/-- The layers of the protected routes: the limiter is the outer one, and what it lets through is
authenticated. -/
def protectedLayers (U : UnicodeTables) (settings : ApiSettings) (config : TenantConfig) (l : RateLimiter)
    (req : HttpRequest) : (LimitOutcome × Option (Except AuthFailure (Option TenantContext))) × RateLimiter :=
  match rateLimitMiddleware l req with
  | (.next headers, l') => ((.next headers, some (apiKeyAuth U settings config req.headers)), l')
  | (.limited response, l') => ((.limited response, none), l')

end AraNotification
