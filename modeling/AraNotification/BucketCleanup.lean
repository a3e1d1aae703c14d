import AraNotification.BucketLimits

/-! # Cleaning up buckets changes no check

`cleanup_stale` removes the buckets from which no token has been taken for a while, and the next check
of the key makes a new one, which is full.  The removed bucket would have been filled up by then when
what comes in during the TTL is at least the capacity.

`Faded` relates the bucket of a key in a run with clean-ups to the one in the run without: they are the
same, or one has been removed and the other has been idle for the TTL; with a capacity of zero nothing
about them matters.  Every check takes a token from both or from none, after which they are the same
again, so that every check has the same result up to the reset time (`cleanups_invisible`). -/

namespace AraNotification

/-! ### One bucket -/

section buckets
variable {capacity rate ttlSeconds : ℕ} {now τ : ℤ} {o o' : Option TokenBucket}

/-- The bucket has the given capacity and rate. -/
def TokenBucket.Has (capacity rate : ℕ) (b : TokenBucket) : Prop := b.capacity = capacity ∧ b.refillRate = rate

theorem TokenBucket.Has.tryConsume {b : TokenBucket} (h : b.Has capacity rate) :
    (b.tryConsume now).2.Has capacity rate := by
  rcases b.tryConsume_cases now with hfail | ⟨tokens, htaken, -⟩
  · rwa [hfail]
  · rwa [htaken]

/-- The bucket of a key with clean-ups and without them, at some time. -/
inductive Faded (capacity rate ttlSeconds : ℕ) (τ : ℤ) : Option TokenBucket → Option TokenBucket → Prop
  | same (o : Option TokenBucket) (hsized : ∀ b ∈ o, b.Has capacity rate) : Faded capacity rate ttlSeconds τ o o
  | removed (b : TokenBucket) (hsized : b.Has capacity rate) (hidle : b.lastRefill + ttlSeconds * 1000 ≤ τ) :
      Faded capacity rate ttlSeconds τ none (some b)
  | closed (o o' : Option TokenBucket) (hzero : capacity = 0) (hsized : ∀ b ∈ o, b.Has capacity rate)
      (hsized' : ∀ b ∈ o', b.Has capacity rate) : Faded capacity rate ttlSeconds τ o o'

theorem Faded.later (h : Faded capacity rate ttlSeconds τ o o') (hτ : τ ≤ now) :
    Faded capacity rate ttlSeconds now o o' := by
  cases h with
  | same o hsized => exact .same o hsized
  | removed b hsized hidle => exact .removed b hsized (hidle.trans hτ)
  | closed o o' hzero hsized hsized' => exact .closed o o' hzero hsized hsized'

/-- A bucket is removed when it has been idle for the TTL. -/
theorem Faded.cleanup (h : Faded capacity rate ttlSeconds τ o o') (hτ : τ ≤ now) {keeps : TokenBucket → Bool}
    (hkeeps : ∀ b, keeps b = false → b.lastRefill + ttlSeconds * 1000 ≤ now) :
    Faded capacity rate ttlSeconds now (o.filter keeps) o' := by
  cases h with
  | same o hsized =>
      cases o with
      | none => exact .same none hsized
      | some b =>
          cases hb : keeps b with
          | true =>
              rw [Option.filter_some, if_pos hb]
              exact .same (some b) hsized
          | false =>
              rw [Option.filter_some, hb, if_neg Bool.false_ne_true]
              exact .removed b (hsized b rfl) (hkeeps b hb)
  | removed b hsized hidle => exact .removed b hsized (hidle.trans hτ)
  | closed o o' hzero hsized hsized' =>
      refine .closed _ o' hzero (fun b hb => hsized b ?_) hsized'
      rw [Option.mem_def, Option.filter_eq_some_iff] at hb
      exact hb.1

theorem getD_has {r : ℤ} (h : ∀ b ∈ o, b.Has capacity rate) : (o.getD (.new capacity rate r)).Has capacity rate := by
  cases o with
  | none => exact ⟨rfl, rfl⟩
  | some b => exact h b rfl

/-- A bucket that has been idle for the TTL is full. -/
theorem refilled_of_idle {b : TokenBucket} (hsized : b.Has capacity rate) (hcover : capacity ≤ rate * ttlSeconds)
    (hidle : b.lastRefill + ttlSeconds * 1000 ≤ now) (hwrap : b.NoWrap now) : b.refilled now = capacity := by
  have helapsed : ttlSeconds * 1000 ≤ b.elapsedMs now := by
    unfold TokenBucket.elapsedMs
    omega
  have hearned : rate * ttlSeconds ≤ b.earned now := by
    rw [TokenBucket.earned, hsized.2, Nat.le_div_iff_mul_le (by decide), Nat.mul_assoc, Nat.mul_comm]
    exact Nat.mul_le_mul_right rate helapsed
  rw [TokenBucket.refilled_of_noWrap hwrap, TokenBucket.exactTokens, hsized.1]
  omega

theorem refilled_of_closed {b : TokenBucket} (hsized : b.Has 0 rate) (now : ℤ) : b.refilled now = 0 := by
  have hle := (b.refilled_le now).1
  rw [hsized.1] at hle
  omega

theorem refilled_new (hmax : capacity < 2 ^ 32) : (TokenBucket.new capacity rate now).refilled now = capacity := by
  have hwrap : (TokenBucket.new capacity rate now).NoWrap now := TokenBucket.noWrap_of_fresh rfl hmax
  exact (TokenBucket.refilled_of_noWrap hwrap).trans (TokenBucket.exactTokens_of_fresh rfl le_rfl)

/-- A check finds as many tokens with clean-ups as without. -/
theorem Faded.refilled_eq (h : Faded capacity rate ttlSeconds τ o o') (hτ : τ ≤ now) (hmax : capacity < 2 ^ 32)
    (hcover : capacity ≤ rate * ttlSeconds) (hwrap : (o'.getD (.new capacity rate now)).NoWrap now) :
    (o.getD (.new capacity rate now)).refilled now = (o'.getD (.new capacity rate now)).refilled now := by
  cases h with
  | same o hsized => rfl
  | removed b hsized hidle =>
      exact (refilled_new hmax).trans (refilled_of_idle hsized hcover (hidle.trans hτ) hwrap).symm
  | closed o o' hzero hsized hsized' =>
      subst hzero
      exact (refilled_of_closed (getD_has hsized) now).trans (refilled_of_closed (getD_has hsized') now).symm

theorem Faded.has (h : Faded capacity rate ttlSeconds τ o o') :
    (∀ b ∈ o, b.Has capacity rate) ∧ ∀ b ∈ o', b.Has capacity rate := by
  cases h with
  | same o hsized => exact ⟨hsized, hsized⟩
  | removed b hsized hidle => exact ⟨nofun, fun b' hb' => by cases hb'; exact hsized⟩
  | closed o o' hzero hsized hsized' => exact ⟨hsized, hsized'⟩

/-- After a check the buckets are the same, or closed. -/
theorem Faded.tryConsume (h : Faded capacity rate ttlSeconds τ o o') (hτ : τ ≤ now) (hmax : capacity < 2 ^ 32)
    (hcover : capacity ≤ rate * ttlSeconds) (hwrap : (o'.getD (.new capacity rate now)).NoWrap now) :
    ((o.getD (.new capacity rate now)).tryConsume now).1 = ((o'.getD (.new capacity rate now)).tryConsume now).1 ∧
      Faded capacity rate ttlSeconds now (some ((o.getD (.new capacity rate now)).tryConsume now).2)
        (some ((o'.getD (.new capacity rate now)).tryConsume now).2) := by
  have hrefilled := h.refilled_eq hτ hmax hcover hwrap
  have hsized : (o.getD (.new capacity rate now)).Has capacity rate := getD_has h.has.1
  have hsized' : (o'.getD (.new capacity rate now)).Has capacity rate := getD_has h.has.2
  by_cases hnone : (o'.getD (.new capacity rate now)).refilled now < 1
  · have hfail : (o.getD (.new capacity rate now)).tryConsume now = (false, o.getD (.new capacity rate now)) :=
      if_pos (hrefilled.trans_lt hnone)
    have hfail' : (o'.getD (.new capacity rate now)).tryConsume now = (false, o'.getD (.new capacity rate now)) :=
      if_pos hnone
    rw [hfail, hfail']
    refine ⟨rfl, ?_⟩
    cases h with
    | same o hall =>
        refine .same _ (fun b hb => ?_)
        cases hb
        exact hsized
    | removed b hb hidle =>
        -- The removed bucket would be full, so the capacity is zero.
        have hfull := refilled_of_idle hb hcover (hidle.trans hτ) hwrap
        refine .closed _ _ (by rw [Option.getD_some] at hnone; omega) (fun b' hb' => ?_) (fun b' hb' => ?_)
        · cases hb'
          exact hsized
        · cases hb'
          exact hsized'
    | closed o o' hzero hall hall' =>
        refine .closed _ _ hzero (fun b' hb' => ?_) (fun b' hb' => ?_)
        · cases hb'
          exact hsized
        · cases hb'
          exact hsized'
  · have htaken : (o.getD (.new capacity rate now)).tryConsume now =
        (true, ⟨(o'.getD (.new capacity rate now)).refilled now - 1, now, capacity, rate⟩) := by
      rw [TokenBucket.tryConsume, TokenBucket.tryConsumeN, hrefilled, if_neg hnone, hsized.1, hsized.2]
    have htaken' : (o'.getD (.new capacity rate now)).tryConsume now =
        (true, ⟨(o'.getD (.new capacity rate now)).refilled now - 1, now, capacity, rate⟩) := by
      rw [TokenBucket.tryConsume, TokenBucket.tryConsumeN, if_neg hnone, hsized'.1, hsized'.2]
    rw [htaken, htaken']
    refine ⟨rfl, .same _ (fun b hb => ?_)⟩
    cases hb
    exact ⟨rfl, rfl⟩

/-- What a check reports after it does not depend on the clean-ups. -/
theorem Faded.reported {b b' : TokenBucket} (h : Faded capacity rate ttlSeconds now (some b) (some b')) :
    b.refilled now = b'.refilled now ∧ b.retryAfter now = b'.retryAfter now := by
  have hrefilled : b.refilled now = b'.refilled now := by
    cases h with
    | same _ hsized => rfl
    | closed _ _ hzero hsized hsized' =>
        subst hzero
        rw [refilled_of_closed (hsized b rfl), refilled_of_closed (hsized' b' rfl)]
  refine ⟨hrefilled, ?_⟩
  unfold TokenBucket.retryAfter
  rw [hrefilled, (h.has.1 b rfl).2, (h.has.2 b' rfl).2]

end buckets

/-! ### The limiter -/

/-- The results agree in all but the reset time. -/
def RateLimitResult.Same : RateLimitResult → RateLimitResult → Prop
  | allowed remaining limit _, allowed remaining' limit' _ => remaining = remaining' ∧ limit = limit'
  | denied retryAfter limit _, denied retryAfter' limit' _ => retryAfter = retryAfter' ∧ limit = limit'
  | _, _ => False

namespace BucketCleanup

/-- A call of the limiter, with the clock reading that it draws. -/
inductive Call where
  | checkIp (now : ℤ) (ip : IpAddr)
  | checkKey (now : ℤ) (key : String)
  | cleanupStale (now : ℤ)
deriving DecidableEq, Repr

def Call.now : Call → ℤ
  | checkIp now _ | checkKey now _ | cleanupStale now => now

def Call.isCheck : Call → Bool
  | checkIp .. | checkKey .. => true
  | cleanupStale _ => false

def step (l : RateLimiter) : Call → Option RateLimitResult × RateLimiter
  | .checkIp now ip => (some (l.checkIp ⟨now, now, now⟩ ip).1, (l.checkIp ⟨now, now, now⟩ ip).2)
  | .checkKey now key => (some (l.checkKey ⟨now, now, now⟩ key).1, (l.checkKey ⟨now, now, now⟩ key).2)
  | .cleanupStale now => (none, (l.cleanupStale now).2)

/-- No value of a check wraps around. -/
def NoWrap (l : RateLimiter) : Call → Prop
  | .checkIp now ip => (l.ipBucket ⟨now, now, now⟩ ip).NoWrap now
  | .checkKey now key => (l.keyBucket ⟨now, now, now⟩ key).NoWrap now
  | .cleanupStale _ => True

instance (l : RateLimiter) (call : Call) : Decidable (NoWrap l call) := by
  cases call <;> unfold NoWrap <;> infer_instance

/-- The tokens per second of an address. -/
def ipRate (config : RateLimitConfig) : ℕ := max ((config.wsConnectionsPerMinute + 59) / 60) 1

/-- What comes in during the TTL fills a bucket, of either kind. -/
structure Covered (config : RateLimitConfig) : Prop where
  ip : config.wsConnectionsPerMinute ≤ ipRate config * config.bucketTtlSeconds
  key : config.httpBurstSize ≤ config.httpRequestsPerSecond * config.bucketTtlSeconds

/-- The configured numbers fit into their types, and so does the TTL in milliseconds. -/
structure InRange (config : RateLimitConfig) : Prop where
  ip : config.wsConnectionsPerMinute < 2 ^ 32
  key : config.httpBurstSize < 2 ^ 32
  ttl : config.bucketTtlSeconds * 1000 < 2 ^ 63

/-- The limiter of a run with clean-ups and the one of the run without. -/
structure Related (config : RateLimitConfig) (τ : ℤ) (l l' : RateLimiter) : Prop where
  config_eq : l.config = config
  config_eq' : l'.config = config
  ip : ∀ ip, Faded config.wsConnectionsPerMinute (ipRate config) config.bucketTtlSeconds τ
    (l.ipBuckets.lookup ip) (l'.ipBuckets.lookup ip)
  key : ∀ key, Faded config.httpBurstSize config.httpRequestsPerSecond config.bucketTtlSeconds τ
    (l.keyBuckets.lookup key) (l'.keyBuckets.lookup key)

section runs
variable {config : RateLimitConfig} {l l' : RateLimiter} {τ now : ℤ} {ip : IpAddr} {key : String}

theorem related_new : Related config τ (.new config) (.new config) where
  config_eq := rfl
  config_eq' := rfl
  ip _ := .same _ (by simp [RateLimiter.new])
  key _ := .same _ (by simp [RateLimiter.new])

/-- The buckets that `cleanup_stale` removes have been idle for the TTL. -/
theorem idle_of_not_keeps (hrange : InRange config) (hl : l.config = config) {b : TokenBucket}
    (h : l.keeps now b = false) : b.lastRefill + config.bucketTtlSeconds * 1000 ≤ now := by
  have httl := hrange.ttl
  have hms : l.ttlMs = config.bucketTtlSeconds * 1000 := by
    rw [RateLimiter.ttlMs, hl, Nat.mod_eq_of_lt (by omega), asI64_of_lt httl]
    push_cast
    rfl
  rw [RateLimiter.keeps, decide_eq_false_iff_not, hms, TokenBucket.lastActivity] at h
  omega

theorem Related.cleanup (h : Related config τ l l') (hrange : InRange config) (hτ : τ ≤ now) :
    Related config now (l.cleanupStale now).2 l' where
  config_eq := h.config_eq
  config_eq' := h.config_eq'
  ip ip := by
    have hlookup : (l.cleanupStale now).2.ipBuckets.lookup ip = (l.ipBuckets.lookup ip).filter (l.keeps now) :=
      DashMap.lookup_retain _ _ _
    rw [hlookup]
    exact (h.ip ip).cleanup hτ (fun b hb => idle_of_not_keeps hrange h.config_eq hb)
  key key := by
    have hlookup : (l.cleanupStale now).2.keyBuckets.lookup key = (l.keyBuckets.lookup key).filter (l.keeps now) :=
      DashMap.lookup_retain _ _ _
    rw [hlookup]
    exact (h.key key).cleanup hτ (fun b hb => idle_of_not_keeps hrange h.config_eq hb)

theorem ipBucket_eq (hl : l.config = config) : l.ipBucket ⟨now, now, now⟩ ip =
    (l.ipBuckets.lookup ip).getD (.new config.wsConnectionsPerMinute (ipRate config) now) := by
  rw [RateLimiter.ipBucket, hl]
  rfl

theorem keyBucket_eq (hl : l.config = config) : l.keyBucket ⟨now, now, now⟩ key =
    (l.keyBuckets.lookup key).getD (.new config.httpBurstSize config.httpRequestsPerSecond now) := by
  rw [RateLimiter.keyBucket, hl]

theorem Related.checkIp (h : Related config τ l l') (hcover : Covered config) (hrange : InRange config) (hτ : τ ≤ now)
    (hwrap : (l'.ipBucket ⟨now, now, now⟩ ip).NoWrap now) :
    (l.checkIp ⟨now, now, now⟩ ip).1.Same (l'.checkIp ⟨now, now, now⟩ ip).1 ∧
      Related config now (l.checkIp ⟨now, now, now⟩ ip).2 (l'.checkIp ⟨now, now, now⟩ ip).2 := by
  cases he : config.enabled with
  | false =>
      rw [RateLimiter.checkIp_of_disabled (h.config_eq ▸ he), RateLimiter.checkIp_of_disabled (h.config_eq' ▸ he)]
      exact ⟨⟨rfl, rfl⟩, h.config_eq, h.config_eq', fun ip => (h.ip ip).later hτ, fun key => (h.key key).later hτ⟩
  | true =>
      rw [ipBucket_eq h.config_eq'] at hwrap
      obtain ⟨hconsumed, hfaded⟩ := (h.ip ip).tryConsume hτ hrange.ip hcover.ip hwrap
      rw [← ipBucket_eq h.config_eq, ← ipBucket_eq h.config_eq'] at hconsumed hfaded
      refine ⟨?_, ?_⟩
      · simp only [RateLimiter.checkIp, h.config_eq, h.config_eq', he, if_true, hconsumed]
        split_ifs
        · exact ⟨hfaded.reported.1, rfl⟩
        · exact ⟨rfl, rfl⟩
      · refine ⟨RateLimiter.config_checkIp.trans h.config_eq, RateLimiter.config_checkIp.trans h.config_eq',
          fun ip' => ?_, fun key => ?_⟩
        · rw [RateLimiter.lookup_checkIp (h.config_eq ▸ he), RateLimiter.lookup_checkIp (h.config_eq' ▸ he)]
          split_ifs
          · exact hfaded
          · exact (h.ip ip').later hτ
        · have hsame : ∀ l : RateLimiter, (l.checkIp ⟨now, now, now⟩ ip).2.keyBuckets = l.keyBuckets := by
            intro l
            unfold RateLimiter.checkIp
            split_ifs <;> rfl
          rw [hsame, hsame]
          exact (h.key key).later hτ

theorem Related.checkKey (h : Related config τ l l') (hcover : Covered config) (hrange : InRange config) (hτ : τ ≤ now)
    (hwrap : (l'.keyBucket ⟨now, now, now⟩ key).NoWrap now) :
    (l.checkKey ⟨now, now, now⟩ key).1.Same (l'.checkKey ⟨now, now, now⟩ key).1 ∧
      Related config now (l.checkKey ⟨now, now, now⟩ key).2 (l'.checkKey ⟨now, now, now⟩ key).2 := by
  cases he : config.enabled with
  | false =>
      rw [RateLimiter.checkKey_of_disabled (h.config_eq ▸ he), RateLimiter.checkKey_of_disabled (h.config_eq' ▸ he)]
      exact ⟨⟨rfl, rfl⟩, h.config_eq, h.config_eq', fun ip => (h.ip ip).later hτ, fun key => (h.key key).later hτ⟩
  | true =>
      rw [keyBucket_eq h.config_eq'] at hwrap
      obtain ⟨hconsumed, hfaded⟩ := (h.key key).tryConsume hτ hrange.key hcover.key hwrap
      rw [← keyBucket_eq h.config_eq, ← keyBucket_eq h.config_eq'] at hconsumed hfaded
      refine ⟨?_, ?_⟩
      · simp only [RateLimiter.checkKey, h.config_eq, h.config_eq', he, if_true, hconsumed]
        split_ifs
        · exact ⟨hfaded.reported.1, rfl⟩
        · exact ⟨hfaded.reported.2, rfl⟩
      · refine ⟨RateLimiter.config_checkKey.trans h.config_eq, RateLimiter.config_checkKey.trans h.config_eq',
          fun ip => ?_, fun key' => ?_⟩
        · have hsame : ∀ l : RateLimiter, (l.checkKey ⟨now, now, now⟩ key).2.ipBuckets = l.ipBuckets := by
            intro l
            unfold RateLimiter.checkKey
            split_ifs <;> rfl
          rw [hsame, hsame]
          exact (h.ip ip).later hτ
        · rw [RateLimiter.lookup_checkKey (h.config_eq ▸ he), RateLimiter.lookup_checkKey (h.config_eq' ▸ he)]
          split_ifs
          · exact hfaded
          · exact (h.key key').later hτ

/-- **When what comes in during the TTL fills a bucket, clean-ups change no check: the checks of a run have
the results, up to the reset time, that they have without the clean-ups among them.** -/
theorem cleanups_invisible (hcover : Covered config) (hrange : InRange config) {calls : List Call}
    (hclock : Runs.Clocked Call.now τ calls)
    (hwrap : Runs.Admissible step NoWrap (.new config) (calls.filter Call.isCheck)) :
    List.Forall₂ (Option.Rel RateLimitResult.Same) (Runs.observed step Call.isCheck (.new config) calls)
      (Runs.outputs step (.new config) (calls.filter Call.isCheck)) := by
  refine Runs.outputs_purge (R := Related config) related_new hclock hwrap ?_ ?_
  · intro t l l' call h ht hcheck
    cases call with
    | checkIp now ip => cases hcheck
    | checkKey now key => cases hcheck
    | cleanupStale now => exact h.cleanup hrange ht
  · intro t l l' call h ht hcheck hok
    cases call with
    | checkIp now ip =>
        obtain ⟨hsame, hnext⟩ := h.checkIp hcover hrange ht hok
        exact ⟨.some hsame, hnext⟩
    | checkKey now key =>
        obtain ⟨hsame, hnext⟩ := h.checkKey hcover hrange ht hok
        exact ⟨.some hsame, hnext⟩
    | cleanupStale now => cases hcheck

/-- A burst, a clean-up a minute later, and another check. -/
theorem cleanups_invisible_burst :
    List.Forall₂ (Option.Rel RateLimitResult.Same)
      (Runs.observed step Call.isCheck (.new ⟨true, 1, 2, 60, 60⟩)
        [.checkKey 0 "k", .checkKey 0 "k", .checkKey 0 "k", .cleanupStale 60000, .checkKey 60000 "k"])
      (Runs.outputs step (.new ⟨true, 1, 2, 60, 60⟩)
        [.checkKey 0 "k", .checkKey 0 "k", .checkKey 0 "k", .checkKey 60000 "k"]) := by
  have hclock : Runs.Clocked Call.now 0
      [.checkKey 0 "k", .checkKey 0 "k", .checkKey 0 "k", .cleanupStale 60000, .checkKey 60000 "k"] := by decide
  exact cleanups_invisible ⟨by decide, by decide⟩ ⟨by decide, by decide, by decide⟩ hclock (by decide)

end runs

end BucketCleanup

end AraNotification
