import AraNotification.RateLimiter

/-! # How many requests of a client pass

The limiter of the protected routes runs before authentication, so it must bound requests that
turn out not to be authenticated.  A bucket lets through its burst and then what comes in at its
rate (`passes_of_key_le`); the header of a request selects the bucket, and whoever may choose the
header has as many buckets as there are values.

In an interval the requests that pass are at most the bound of one bucket for each different key
that they are sent under (`passes_le`).  A client without the right key that changes its header from one
request to the next is not held back (`rotating_keys_pass`). -/

namespace AraNotification

namespace RequestBound

/-- The time at which the limiter decides on a request. -/
def time (req : HttpRequest) : ℤ := req.readings.consumed

/-- The request carries the API key. -/
def CarriesKey (settings : ApiSettings) (req : HttpRequest) : Prop :=
  ∃ key expected, req.headers.apiKey = some key ∧ settings.key = some expected ∧
    constantTimeEq (asBytes key) (asBytes expected) = true

section runs
variable (U : UnicodeTables) (settings : ApiSettings) (tenants : TenantConfig)

/-- The requests of a run that `see` selects and the limiter lets pass. -/
def passes (l : RateLimiter) (see : HttpRequest → Bool) (reqs : List HttpRequest) : ℕ :=
  (Runs.observed (protectedLayers U settings tenants) see l reqs).countP (fun out => out.1.passed)

/-- The requests in an interval of time. -/
def within (s t : ℤ) (req : HttpRequest) : Bool := decide (s ≤ time req ∧ time req ≤ t)

/-- The requests in an interval of time with one key. -/
def withinKey (s t : ℤ) (key : String) (req : HttpRequest) : Bool := within s t req && decide (req.key = key)

/-- The keys under which the requests in an interval are sent. -/
def keysWithin (s t : ℤ) (reqs : List HttpRequest) : Finset String :=
  ((reqs.filter (within s t)).map HttpRequest.key).toFinset

end runs

/-! ### One request -/

section steps
variable (U : UnicodeTables) (settings : ApiSettings) (tenants : TenantConfig) {l : RateLimiter}
  {req : HttpRequest} {reqs : List HttpRequest} {see : HttpRequest → Bool} {key : String}

theorem limiter_protectedLayers (h : l.config.enabled = true) :
    (protectedLayers U settings tenants l req).2 = (l.checkKey req.readings req.key).2 := by
  unfold protectedLayers rateLimitMiddleware RateLimiter.checkHttp HttpRequest.key
  rw [if_pos h]
  cases l.checkKey req.readings (RateLimiter.httpKey req.headers.apiKey req.ip) with
  | mk result l' => cases result <;> rfl

/-- A request replaces the bucket of its key. -/
theorem lookup_protectedLayers (h : l.config.enabled = true) (req : HttpRequest) (key : String) :
    (protectedLayers U settings tenants l req).2.keyBuckets.lookup key =
      if key = req.key then some ((l.keyBucket req.readings req.key).tryConsume (time req)).2
      else l.keyBuckets.lookup key := by
  rw [limiter_protectedLayers U settings tenants h]
  exact RateLimiter.lookup_checkKey h key

/-- A request passes when it gets a token. -/
theorem passed_protectedLayers (h : l.config.enabled = true) (req : HttpRequest) :
    (protectedLayers U settings tenants l req).1.1.passed =
      ((l.keyBucket req.readings req.key).tryConsume (time req)).1 := by
  refine Eq.trans ?_ (RateLimiter.isAllowed_checkKey h)
  unfold protectedLayers rateLimitMiddleware RateLimiter.checkHttp HttpRequest.key
  rw [if_pos h]
  cases l.checkKey req.readings (RateLimiter.httpKey req.headers.apiKey req.ip) with
  | mk result l' => cases result <;> rfl

theorem passes_cons :
    passes U settings tenants l see (req :: reqs) =
      passes U settings tenants (protectedLayers U settings tenants l req).2 see reqs +
        if see req && (protectedLayers U settings tenants l req).1.1.passed then 1 else 0 := by
  unfold passes
  rw [Runs.observed_cons]
  cases see req with
  | true => simp only [if_true, List.countP_cons, Bool.true_and]
  | false => simp

/-- What is not selected does not pass. -/
theorem passes_eq_zero (h : ∀ req ∈ reqs, see req = false) (l : RateLimiter) :
    passes U settings tenants l see reqs = 0 := by
  induction reqs generalizing l with
  | nil => rfl
  | cons req reqs ih =>
      rw [passes_cons, h req List.mem_cons_self, ih (fun r hr => h r (List.mem_cons_of_mem _ hr))]
      rfl

theorem passes_cons_le (l : RateLimiter) (req : HttpRequest) (reqs : List HttpRequest) (see : HttpRequest → Bool) :
    passes U settings tenants l see (req :: reqs) ≤
      passes U settings tenants (protectedLayers U settings tenants l req).2 see reqs + 1 := by
  rw [passes_cons]
  split_ifs <;> omega

/-- Nothing is in an interval that is over. -/
theorem passes_of_late {s t : ℤ} (hclock : Runs.Clocked time (time req) reqs) (hlate : t < time req) :
    passes U settings tenants l (withinKey s t key) (req :: reqs) = 0 := by
  have hout : ∀ r, time req ≤ time r → withinKey s t key r = false := by
    intro r hr
    have : ¬ time r ≤ t := by omega
    simp [withinKey, within, this]
  refine passes_eq_zero U settings tenants (fun r hr => ?_) l
  rcases List.mem_cons.mp hr with rfl | hr
  · exact hout r le_rfl
  · exact hout r (hclock.le r hr)

theorem keyBucket_of_lookup {r : Readings} {b : TokenBucket} (h : l.keyBuckets.lookup key = some b) :
    l.keyBucket r key = b := by
  rw [RateLimiter.keyBucket, h, Option.getD_some]

end steps

/-! ### One bucket -/

section buckets
variable (U : UnicodeTables) (settings : ApiSettings) (tenants : TenantConfig) {l : RateLimiter}
  {reqs : List HttpRequest} {key : String} {s t : ℤ}

/-- From a bucket on, its requests that pass take what is in it and what comes in until `t`. -/
theorem passes_from_le (he : l.config.enabled = true) {b : TokenBucket} (hb : l.keyBuckets.lookup key = some b)
    (hclock : Runs.Clocked time b.lastRefill reqs) (ht : b.lastRefill ≤ t) :
    1000 * (passes U settings tenants l (withinKey s t key) reqs : ℤ) ≤
      1000 * b.tokens + b.refillRate * (t - b.lastRefill) := by
  have hnonneg : ∀ b : TokenBucket, b.lastRefill ≤ t → 0 ≤ (b.refillRate : ℤ) * (t - b.lastRefill) :=
    fun b h => mul_nonneg (Int.natCast_nonneg _) (by omega)
  induction reqs generalizing l b with
  | nil =>
      have hzero : passes U settings tenants l (withinKey s t key) [] = 0 := rfl
      have := hnonneg b ht
      omega
  | cons req reqs ih =>
      by_cases hlate : t < time req
      · rw [passes_of_late U settings tenants hclock.2 hlate]
        have := hnonneg b ht
        omega
      · have hconfig : (protectedLayers U settings tenants l req).2.config.enabled = true := by
          rw [limiter_protectedLayers U settings tenants he, RateLimiter.config_checkKey, he]
        have hlookup := lookup_protectedLayers U settings tenants he req key
        by_cases hk : key = req.key
        · rw [if_pos hk, keyBucket_of_lookup (hk ▸ hb)] at hlookup
          have hpassed := passed_protectedLayers U settings tenants he req
          rw [keyBucket_of_lookup (hk ▸ hb)] at hpassed
          rcases b.tryConsume_cases (time req) with hfull | ⟨tokens, htaken, -, hin⟩
          · rw [hfull] at hpassed hlookup
            have hrest := ih hconfig hlookup (hclock.2.of_le hclock.1) ht
            rw [passes_cons, hpassed, Bool.and_false]
            simpa using hrest
          · rw [htaken] at hpassed hlookup
            have hrest := ih hconfig hlookup hclock.2 (not_lt.mp hlate)
            have hone := passes_cons_le U settings tenants l req reqs (withinKey s t key)
            have helapsed : ((time req - b.lastRefill).toNat : ℤ) = time req - b.lastRefill :=
              Int.toNat_of_nonneg (sub_nonneg.mpr hclock.1)
            have hin' : 1000 * ((tokens : ℤ) + 1) ≤
                1000 * b.tokens + (time req - b.lastRefill) * b.refillRate := by
              rw [← helapsed]
              exact_mod_cast hin
            have hsplit : (time req - b.lastRefill) * b.refillRate + b.refillRate * (t - time req) =
                b.refillRate * (t - b.lastRefill) := by ring
            dsimp only at hrest
            omega
        · -- The bucket is that of another key.
          rw [if_neg hk, hb] at hlookup
          have hsee : withinKey s t key req = false := by simp [withinKey, Ne.symm hk]
          have hrest := ih hconfig hlookup (hclock.2.of_le hclock.1) ht
          rw [passes_cons, hsee, Bool.false_and]
          simpa using hrest

/-- The requests of one key that pass in an interval. -/
theorem passes_of_key_le (he : l.config.enabled = true) (hsized : l.Sized) {t₀ : ℤ}
    (hclock : Runs.Clocked time t₀ reqs) (hst : s ≤ t) :
    1000 * (passes U settings tenants l (withinKey s t key) reqs : ℤ) ≤
      1000 * l.config.httpBurstSize + l.config.httpRequestsPerSecond * (t - s) := by
  induction reqs generalizing l t₀ with
  | nil =>
      have hzero : passes U settings tenants l (withinKey s t key) [] = 0 := rfl
      have : 0 ≤ (l.config.httpRequestsPerSecond : ℤ) * (t - s) := mul_nonneg (Int.natCast_nonneg _) (by omega)
      omega
  | cons req reqs ih =>
      have hconfig : (protectedLayers U settings tenants l req).2.config = l.config := by
        rw [limiter_protectedLayers U settings tenants he, RateLimiter.config_checkKey]
      have hnext : (protectedLayers U settings tenants l req).2.Sized := by
        rw [limiter_protectedLayers U settings tenants he]
        exact hsized.checkKey
      have hrest := ih (l := (protectedLayers U settings tenants l req).2) (hconfig ▸ he) hnext hclock.2
      rw [hconfig] at hrest
      by_cases hcount : (withinKey s t key req && (protectedLayers U settings tenants l req).1.1.passed) = true
      · -- The first request that passes: the bucket held at most its capacity.
        rw [Bool.and_eq_true] at hcount
        obtain ⟨hwithin, hpassed⟩ := hcount
        simp only [withinKey, within, Bool.and_eq_true, decide_eq_true_eq] at hwithin
        obtain ⟨⟨hs, ht⟩, hk⟩ := hwithin
        obtain ⟨hcap, hrate⟩ := hsized.keyBucket (r := req.readings) req.key
        have hlookup := lookup_protectedLayers U settings tenants he req key
        rw [if_pos hk.symm] at hlookup
        rw [passed_protectedLayers U settings tenants he] at hpassed
        rcases (l.keyBucket req.readings req.key).tryConsume_cases (time req) with
          hfull | ⟨tokens, htaken, htokens, -⟩
        · rw [hfull] at hpassed
          exact absurd hpassed Bool.false_ne_true
        · rw [htaken] at hlookup
          have hfrom := passes_from_le U settings tenants (s := s) (hconfig ▸ he) hlookup hclock.2 ht
          have hone := passes_cons_le U settings tenants l req reqs (withinKey s t key)
          have hlen : (l.config.httpRequestsPerSecond : ℤ) * (t - time req) ≤
              l.config.httpRequestsPerSecond * (t - s) :=
            mul_le_mul_of_nonneg_left (by omega) (Int.natCast_nonneg _)
          dsimp only at hfrom
          rw [hrate] at hfrom
          rw [hcap] at htokens
          omega
      · rw [passes_cons, if_neg hcount]
        exact hrest

/-- What passes in an interval, key by key. -/
theorem passes_eq_sum {keys : Finset String} (hkeys : ∀ req ∈ reqs, within s t req = true → req.key ∈ keys)
    (l : RateLimiter) :
    passes U settings tenants l (within s t) reqs =
      ∑ key ∈ keys, passes U settings tenants l (withinKey s t key) reqs := by
  induction reqs generalizing l with
  | nil => exact (Finset.sum_eq_zero (fun _ _ => rfl)).symm
  | cons req reqs ih =>
      have hrest := ih (fun r hr => hkeys r (List.mem_cons_of_mem _ hr))
        (protectedLayers U settings tenants l req).2
      have hreq := hkeys req List.mem_cons_self
      simp only [passes_cons, Finset.sum_add_distrib, hrest]
      congr 1
      by_cases hcount : within s t req = true ∧ (protectedLayers U settings tenants l req).1.1.passed = true
      · rw [if_pos (by simp [hcount])]
        simp [withinKey, hcount, hreq hcount.1]
      · rw [if_neg (by simpa using hcount)]
        refine (Finset.sum_eq_zero (fun key _ => if_neg ?_)).symm
        simp only [withinKey, Bool.and_eq_true, decide_eq_true_eq, not_and] at hcount ⊢
        exact fun h => hcount h.1

end buckets

/-! ### All requests of a client -/

section clients
variable (U : UnicodeTables) (settings : ApiSettings) (tenants : TenantConfig) {config : RateLimitConfig}
  {reqs : List HttpRequest}

/-- **In every interval, the requests that are sent under one key and pass the limiter are at most
the burst and what comes in at the rate, and all that pass are at most that for each different key
under which requests are sent in the interval.** -/
theorem passes_le (he : config.enabled = true) {t₀ s t : ℤ} (hclock : Runs.Clocked time t₀ reqs) (hst : s ≤ t) :
    (∀ key, 1000 * (passes U settings tenants (.new config) (withinKey s t key) reqs : ℤ) ≤
      1000 * config.httpBurstSize + config.httpRequestsPerSecond * (t - s)) ∧
    1000 * (passes U settings tenants (.new config) (within s t) reqs : ℤ) ≤
      (keysWithin s t reqs).card * (1000 * config.httpBurstSize + config.httpRequestsPerSecond * (t - s)) := by
  have hone : ∀ key, 1000 * (passes U settings tenants (.new config) (withinKey s t key) reqs : ℤ) ≤
      1000 * config.httpBurstSize + config.httpRequestsPerSecond * (t - s) :=
    fun key => passes_of_key_le U settings tenants he (RateLimiter.sized_new config) hclock hst
  refine ⟨hone, ?_⟩
  have hkeys : ∀ req ∈ reqs, within s t req = true → req.key ∈ keysWithin s t reqs := by
    intro req hreq hw
    rw [keysWithin, List.mem_toFinset]
    exact List.mem_map_of_mem (List.mem_filter.mpr ⟨hreq, hw⟩)
  rw [passes_eq_sum U settings tenants hkeys, Nat.cast_sum, Finset.mul_sum, ← nsmul_eq_mul]
  exact Finset.sum_le_card_nsmul _ _ _ (fun key _ => hone key)

/-- A request from `10.0.0.7` at time `t`. -/
def requestWith (apiKey : Option String) (t : ℤ) : HttpRequest := ⟨⟨apiKey, none⟩, .v4 ⟨10, 0, 0, 7⟩, ⟨t, t, t⟩⟩

/-- With a burst of one and one request a second, three requests without a key pass in two
seconds. -/
theorem three_pass :
    (∀ key, 1000 * (passes .ascii ⟨some "0123456789abcdef", true⟩ ⟨false⟩ (.new ⟨true, 1, 1, 10, 300⟩)
      (withinKey 0 2000 key) [requestWith none 0, requestWith none 1000, requestWith none 2000] : ℤ) ≤ 3000) ∧
    1000 * (passes .ascii ⟨some "0123456789abcdef", true⟩ ⟨false⟩ (.new ⟨true, 1, 1, 10, 300⟩)
      (within 0 2000) [requestWith none 0, requestWith none 1000, requestWith none 2000] : ℤ) ≤ 3000 := by
  obtain ⟨hkey, hall⟩ := passes_le .ascii ⟨some "0123456789abcdef", true⟩ ⟨false⟩
    (rfl : RateLimitConfig.enabled ⟨true, 1, 1, 10, 300⟩ = true) (s := 0) (t := 2000)
    (by decide : Runs.Clocked time 0 [requestWith none 0, requestWith none 1000, requestWith none 2000])
    (by decide)
  refine ⟨fun key => (hkey key).trans (by decide), hall.trans ?_⟩
  have hcard :
      (keysWithin 0 2000 [requestWith none 0, requestWith none 1000, requestWith none 2000]).card = 1 := by
    decide
  rw [hcard]
  decide

/-- With the same limits, two requests that carry different wrong keys pass at once. -/
theorem rotating_keys_pass :
    ∃ reqs : List HttpRequest, (∀ req ∈ reqs, req.ip = .v4 ⟨10, 0, 0, 7⟩ ∧
        ¬ CarriesKey ⟨some "0123456789abcdef", true⟩ req) ∧
      Runs.Clocked time 0 reqs ∧
      ¬ 1000 * (passes .ascii ⟨some "0123456789abcdef", true⟩ ⟨false⟩ (.new ⟨true, 1, 1, 10, 300⟩)
        (within 0 0) reqs : ℤ) ≤ 1000 * 1 + 1 * (0 - 0) := by
  refine ⟨[requestWith (some "a") 0, requestWith (some "b") 0], ?_, by decide, by decide⟩
  have hwrong : ∀ wrong, constantTimeEq (asBytes wrong) (asBytes "0123456789abcdef") = false →
      ∀ t, ¬ CarriesKey ⟨some "0123456789abcdef", true⟩ (requestWith (some wrong) t) := by
    rintro wrong hw t ⟨key, expected, hkey, hexpected, heq⟩
    obtain rfl := Option.some.inj hkey
    obtain rfl := Option.some.inj hexpected
    exact absurd (hw.symm.trans heq) Bool.false_ne_true
  intro req hreq
  simp only [List.mem_cons, List.not_mem_nil, or_false] at hreq
  rcases hreq with rfl | rfl
  · exact ⟨rfl, hwrong "a" (by decide) 0⟩
  · exact ⟨rfl, hwrong "b" (by decide) 0⟩

end clients

end RequestBound

end AraNotification
