import AraNotification.BucketBound
import AraNotification.BucketLimits

/-! # How many connections an address opens per minute

`check_ip` turns the limit of connections per minute into whole tokens per second, rounded up, and
takes the limit itself for the capacity; `cleanup_stale` removes the buckets that have not been used
for a while, and a bucket is made full again when its address comes back.

The connections that an address opens are at most the limit and what a minute allows for the length
of an interval, exactly when the limit is a multiple of 60 and a bucket is kept for at least a minute
(`perMinute_iff`).  Otherwise an address that takes all tokens at once opens too many connections a
second later, or as soon as its bucket has been removed. -/

namespace AraNotification

namespace ConnectionRate

open Pacing

/-- A call of the limiter. -/
inductive Call where
  | checkIp (readings : Readings) (ip : IpAddr)
  | cleanupStale (now : ℤ)
deriving DecidableEq, Repr

def step (l : RateLimiter) : Call → Option RateLimitResult × RateLimiter
  | .checkIp r ip => (some (l.checkIp r ip).1, (l.checkIp r ip).2)
  | .cleanupStale now => (none, (l.cleanupStale now).2)

/-- The clock readings of the calls do not decrease from a time on. -/
def Timely : ℤ → List Call → Prop
  | _, [] => True
  | τ, .checkIp r _ :: calls =>
      (τ ≤ r.created ∧ r.created ≤ r.consumed ∧ r.consumed ≤ r.reported) ∧ Timely r.reported calls
  | τ, .cleanupStale now :: calls => τ ≤ now ∧ Timely now calls

/-- No value of a call wraps around. -/
def NoWrap (l : RateLimiter) : Call → Prop
  | .checkIp r ip =>
      (l.ipBucket r ip).NoWrap r.consumed ∧ ((l.ipBucket r ip).tryConsume r.consumed).2.NoWrap r.reported
  | .cleanupStale _ => True

/-- The time at which a call opens a connection of an address. -/
def opening (ip : IpAddr) (e : Runs.Entry RateLimiter Call (Option RateLimitResult)) : Option ℤ :=
  match e.input with
  | .checkIp r ip' => if ip' = ip ∧ e.output.any (·.isAllowed) = true then some r.consumed else none
  | .cleanupStale _ => none

/-- The times at which an address opens connections. -/
def openings (ip : IpAddr) (l : RateLimiter) (calls : List Call) : List ℤ :=
  (Runs.trace step l calls).filterMap (opening ip)

/-- A connection as a grant of one token. -/
def grant (x : ℤ) : Grant ℚ := ⟨x, 1⟩

/-- The number of connections that an address opens between two times, both included. -/
def opened (ip : IpAddr) (s t : ℤ) (l : RateLimiter) (calls : List Call) : ℕ :=
  (openings ip l calls).countP (fun x => decide (s ≤ x ∧ x ≤ t))

/-- In every interval of every run, every address opens at most the limit and what the limit allows
for the length of the interval. -/
def PerMinute (config : RateLimitConfig) : Prop :=
  ∀ ip calls τ s t, Timely τ calls → Runs.Admissible step NoWrap (.new config) calls → s ≤ t →
    (opened ip s t (.new config) calls : ℚ) ≤
      config.wsConnectionsPerMinute + config.wsConnectionsPerMinute * (t - s) / 60000

/-! ### Steps -/

section steps
variable {l : RateLimiter} {ip ip' : IpAddr} {r : Readings} {call : Call} {calls : List Call} {now : ℤ}

theorem openings_cons : openings ip l (call :: calls) =
    (opening ip (Runs.entry step l call)).toList ++ openings ip (step l call).2 calls := by
  unfold openings
  rw [Runs.trace, List.filterMap_cons]
  cases opening ip (Runs.entry step l call) <;> rfl

theorem opening_cleanup : opening ip (Runs.entry step l (.cleanupStale now)) = none := rfl

theorem opening_other (h : ip' ≠ ip) : opening ip (Runs.entry step l (.checkIp r ip')) = none :=
  if_neg (fun hc => h hc.1)

/-- A connection is opened when a token could be taken. -/
theorem opening_checkIp (he : l.config.enabled = true) : opening ip (Runs.entry step l (.checkIp r ip)) =
    if ((l.ipBucket r ip).tryConsume r.consumed).1 = true then some r.consumed else none := by
  have hallowed : (Runs.entry step l (.checkIp r ip)).output.any (·.isAllowed) =
      ((l.ipBucket r ip).tryConsume r.consumed).1 := RateLimiter.isAllowed_checkIp he
  unfold opening
  rw [hallowed]
  simp [Runs.entry]

theorem config_step : (step l call).2.config = l.config := by
  cases call with
  | checkIp r ip => exact RateLimiter.config_checkIp
  | cleanupStale now => rfl

theorem lookup_cleanup : (step l (.cleanupStale now)).2.ipBuckets.lookup ip =
    (l.ipBuckets.lookup ip).filter (l.keeps now) := DashMap.lookup_retain _ _ _

end steps

/-! ### A limit that is a multiple of 60 -/

section multiples
variable {config : RateLimitConfig} {k : ℕ} {l : RateLimiter} {ip ip' : IpAddr} {r : Readings} {τ now : ℤ}
  {log : List (Grant ℚ)}

/-- The connections opened so far are paced by `k` tokens a second, which the bucket of the address has
left; without a bucket it would be full. -/
structure Follows (config : RateLimitConfig) (k : ℕ) (ip : IpAddr) (τ : ℤ) (l : RateLimiter)
    (log : List (Grant ℚ)) : Prop where
  config_eq : l.config = config
  paced : ∃ (tokens : ℕ) (last : ℤ), last ≤ τ ∧ Paced ((60 * k : ℕ) : ℚ) (k / 1000) tokens last log ∧
    (l.ipBuckets.lookup ip = none → tokens = 60 * k) ∧
    ∀ b, l.ipBuckets.lookup ip = some b → b.tokens = tokens ∧ last ≤ b.lastRefill ∧ b.lastRefill ≤ τ ∧
      b.capacity = 60 * k ∧ b.refillRate = k

theorem follows_new : Follows config k ip τ (.new config) [] where
  config_eq := rfl
  paced := by
    refine ⟨60 * k, τ, le_rfl, .start ?_ le_rfl ?_, fun _ => rfl, fun b hb => ?_⟩
    · positivity
    · positivity
    · exact absurd hb (by simp [RateLimiter.new])

/-- The bucket that a check uses. -/
theorem Follows.bucket (h : Follows config k ip τ l log) (hk : config.wsConnectionsPerMinute = 60 * k)
    (hpos : 1 ≤ k) (hr : τ ≤ r.created) :
    ∃ last ≤ (l.ipBucket r ip).lastRefill, (l.ipBucket r ip).lastRefill ≤ r.created ∧
      (l.ipBucket r ip).capacity = 60 * k ∧ (l.ipBucket r ip).refillRate = k ∧
      Paced ((60 * k : ℕ) : ℚ) (k / 1000) (l.ipBucket r ip).tokens last log := by
  obtain ⟨tokens, last, hlast, hpaced, hnone, hsome⟩ := h.paced
  unfold RateLimiter.ipBucket
  cases hl : l.ipBuckets.lookup ip with
  | none =>
      have hrate : max ((60 * k + 59) / 60) 1 = k := by omega
      rw [Option.getD_none, h.config_eq, hk, hrate]
      exact ⟨last, hlast.trans hr, le_rfl, rfl, rfl, hnone hl ▸ hpaced⟩
  | some b =>
      obtain ⟨htokens, hrefill, hbefore, hcap, hrate⟩ := hsome b hl
      exact ⟨last, hrefill, hbefore.trans hr, hcap, hrate, by rwa [Option.getD_some, htokens]⟩

theorem Follows.other (h : Follows config k ip τ l log) (he : config.enabled = true) (hne : ip' ≠ ip) (hr : τ ≤ now) :
    Follows config k ip now (step l (.checkIp r ip')).2 log where
  config_eq := config_step.trans h.config_eq
  paced := by
    obtain ⟨tokens, last, hlast, hpaced, hnone, hsome⟩ := h.paced
    have hsame : (step l (.checkIp r ip')).2.ipBuckets.lookup ip = l.ipBuckets.lookup ip :=
      (RateLimiter.lookup_checkIp (h.config_eq ▸ he) ip).trans (if_neg hne.symm)
    rw [hsame]
    refine ⟨tokens, last, hlast.trans hr, hpaced, hnone, fun b hb => ?_⟩
    obtain ⟨htokens, hrefill, hbefore, hsized⟩ := hsome b hb
    exact ⟨htokens, hrefill, hbefore.trans hr, hsized⟩

/-- A check of the address keeps the pace. -/
theorem Follows.checkIp (h : Follows config k ip τ l log) (he : config.enabled = true)
    (hk : config.wsConnectionsPerMinute = 60 * k) (hpos : 1 ≤ k)
    (hr : τ ≤ r.created ∧ r.created ≤ r.consumed ∧ r.consumed ≤ r.reported) :
    Follows config k ip r.reported (step l (.checkIp r ip)).2
      (log ++ ((opening ip (Runs.entry step l (.checkIp r ip))).toList).map grant) where
  config_eq := config_step.trans h.config_eq
  paced := by
    have hel : l.config.enabled = true := h.config_eq ▸ he
    obtain ⟨last, hlast, hcreated, hcap, hrate, hpaced⟩ := h.bucket hk hpos hr.1
    have hlookup : (step l (.checkIp r ip)).2.ipBuckets.lookup ip =
        some ((l.ipBucket r ip).tryConsume r.consumed).2 :=
      (RateLimiter.lookup_checkIp hel ip).trans (if_pos rfl)
    rw [hlookup, opening_checkIp hel]
    rcases (l.ipBucket r ip).tryConsume_cases r.consumed with hfail | ⟨left, htaken, hleft, hin⟩
    · have hrefill : (l.ipBucket r ip).lastRefill ≤ r.reported := by omega
      rw [hfail]
      refine ⟨_, last, hlast.trans hrefill, by simpa using hpaced, nofun, fun b hb => ?_⟩
      cases hb
      exact ⟨rfl, hlast, hrefill, hcap, hrate⟩
    · rw [htaken]
      rw [hcap] at hleft
      rw [hrate] at hin
      have hnow : last ≤ r.consumed := by omega
      refine ⟨left, r.consumed, hr.2.2, ?_, nofun, fun b hb => ?_⟩
      · refine hpaced.grant (by exact_mod_cast hnow) zero_le_one (by exact_mod_cast hleft) ?_ (Nat.cast_nonneg _)
        have hinflow := BucketBound.inflow_le hlast hnow hin
        exact_mod_cast hinflow
      · cases hb
        exact ⟨rfl, le_rfl, hr.2.2, hcap, hrate⟩

/-- A bucket that has not been used for a minute would be full. -/
theorem Follows.cleanup (h : Follows config k ip τ l log) (httl : 60000 ≤ l.ttlMs) (hr : τ ≤ now) :
    Follows config k ip now (step l (.cleanupStale now)).2 log where
  config_eq := config_step.trans h.config_eq
  paced := by
    obtain ⟨tokens, last, hlast, hpaced, hnone, hsome⟩ := h.paced
    rw [lookup_cleanup]
    cases hl : l.ipBuckets.lookup ip with
    | none => exact ⟨tokens, last, hlast.trans hr, hpaced, fun _ => hnone hl, nofun⟩
    | some b =>
        obtain ⟨htokens, hrefill, hbefore, hsized⟩ := hsome b hl
        rw [Option.filter_some]
        by_cases hkeep : l.keeps now b = true
        · rw [if_pos hkeep]
          refine ⟨tokens, last, hlast.trans hr, hpaced, nofun, fun b' hb' => ?_⟩
          cases hb'
          exact ⟨htokens, hrefill, hbefore.trans hr, hsized⟩
        · rw [if_neg hkeep]
          have hidle : last + 60000 ≤ now := by
            rw [RateLimiter.keeps, decide_eq_true_eq, TokenBucket.lastActivity] at hkeep
            omega
          have hidleq : (last : ℚ) + 60000 ≤ now := by exact_mod_cast hidle
          refine ⟨60 * k, now, le_rfl, hpaced.wait (by linarith) le_rfl ?_, fun _ => rfl, nofun⟩
          have hin : (k : ℚ) / 1000 * 60000 ≤ k / 1000 * (now - last) :=
            mul_le_mul_of_nonneg_left (by linarith) (by positivity)
          have htokens_nonneg : (0 : ℚ) ≤ tokens := Nat.cast_nonneg _
          push_cast
          linarith

theorem Follows.run (h : Follows config k ip τ l log) (he : config.enabled = true)
    (hk : config.wsConnectionsPerMinute = 60 * k) (hpos : 1 ≤ k) (httl : 60000 ≤ l.ttlMs) {calls : List Call}
    (htimely : Timely τ calls) :
    ∃ τ', Follows config k ip τ' (Runs.final step l calls)
      (log ++ (openings ip l calls).map grant) := by
  induction calls generalizing τ l log with
  | nil => exact ⟨τ, by simpa [openings, Runs.trace, Runs.final] using h⟩
  | cons call calls ih =>
      have httl' : 60000 ≤ (step l call).2.ttlMs := by
        rw [RateLimiter.ttlMs, config_step]
        exact httl
      rw [openings_cons, List.map_append, ← List.append_assoc]
      cases call with
      | cleanupStale now =>
          rw [opening_cleanup, Option.toList_none, List.map_nil, List.append_nil]
          exact ih (h.cleanup httl htimely.1) httl' htimely.2
      | checkIp r ip' =>
          by_cases hip : ip' = ip
          · subst hip
            exact ih (h.checkIp he hk hpos htimely.1) httl' htimely.2
          · rw [opening_other hip, Option.toList_none, List.map_nil, List.append_nil]
            exact ih (h.other he hip (by have := htimely.1; omega)) httl' htimely.2

end multiples

/-! ### Bursts -/

section bursts
variable {config : RateLimitConfig} {l : RateLimiter} {ip : IpAddr} {s t τ : ℤ} {n k : ℕ} {rest : List Call}

/-- A check for which the clock is read once. -/
def checkAt (t : ℤ) (ip : IpAddr) : Call := .checkIp ⟨t, t, t⟩ ip

/-- There are `n` tokens for an address. -/
structure Ready (l : RateLimiter) (ip : IpAddr) (t : ℤ) (n : ℕ) : Prop where
  enabled : l.config.enabled = true
  noWrap : (l.ipBucket ⟨t, t, t⟩ ip).NoWrap t
  tokens : (l.ipBucket ⟨t, t, t⟩ ip).exactTokens t = n
  capacity : (l.ipBucket ⟨t, t, t⟩ ip).capacity < 2 ^ 32

/-- A check takes one of the tokens. -/
theorem Ready.tryConsume (h : Ready l ip t (n + 1)) : (l.ipBucket ⟨t, t, t⟩ ip).tryConsume t =
    (true, { l.ipBucket ⟨t, t, t⟩ ip with tokens := n, lastRefill := t }) := by
  have hrefilled : (l.ipBucket ⟨t, t, t⟩ ip).refilled t = n + 1 :=
    (TokenBucket.refilled_of_noWrap h.noWrap).trans h.tokens
  rw [TokenBucket.tryConsume, TokenBucket.tryConsumeN, hrefilled, if_neg (by omega)]
  rfl

theorem Ready.opening (h : Ready l ip t (n + 1)) :
    ConnectionRate.opening ip (Runs.entry step l (checkAt t ip)) = some t := by
  refine (opening_checkIp h.enabled).trans ?_
  rw [h.tryConsume]
  exact if_pos rfl

theorem Ready.lookup (h : Ready l ip t (n + 1)) : (step l (checkAt t ip)).2.ipBuckets.lookup ip =
    some { l.ipBucket ⟨t, t, t⟩ ip with tokens := n, lastRefill := t } := by
  refine ((RateLimiter.lookup_checkIp h.enabled ip).trans (if_pos rfl)).trans ?_
  rw [h.tryConsume]

theorem Ready.le_capacity (h : Ready l ip t n) : n ≤ (l.ipBucket ⟨t, t, t⟩ ip).capacity :=
  h.tokens ▸ min_le_left _ _

theorem ipBucket_of_lookup {r : Readings} {b : TokenBucket} (h : l.ipBuckets.lookup ip = some b) :
    l.ipBucket r ip = b := by
  rw [RateLimiter.ipBucket, h, Option.getD_some]

theorem Ready.next (h : Ready l ip t (n + 1)) : Ready (step l (checkAt t ip)).2 ip t n := by
  have hcap := h.le_capacity
  have hmax := h.capacity
  have hbucket : (step l (checkAt t ip)).2.ipBucket ⟨t, t, t⟩ ip =
      { l.ipBucket ⟨t, t, t⟩ ip with tokens := n, lastRefill := t } := ipBucket_of_lookup h.lookup
  refine ⟨?_, ?_, ?_, ?_⟩
  · rw [config_step]
    exact h.enabled
  · rw [hbucket]
    exact TokenBucket.noWrap_of_fresh rfl (by simp only; omega)
  · rw [hbucket]
    exact TokenBucket.exactTokens_of_fresh rfl (by simp only; omega)
  · rw [hbucket]
    exact hmax

theorem Ready.admitted (h : Ready l ip t (n + 1)) : NoWrap l (checkAt t ip) := by
  have hcap := h.le_capacity
  have hmax := h.capacity
  refine ⟨h.noWrap, ?_⟩
  show ((l.ipBucket ⟨t, t, t⟩ ip).tryConsume t).2.NoWrap t
  rw [h.tryConsume]
  exact TokenBucket.noWrap_of_fresh rfl (by simp only; omega)

/-- The limiter after a burst of checks. -/
def afterBurst (l : RateLimiter) (ip : IpAddr) (t : ℤ) (k : ℕ) : RateLimiter :=
  Runs.final step l (List.replicate k (checkAt t ip))

theorem openings_burst (h : Ready l ip t n) (hk : k ≤ n) (rest : List Call) :
    openings ip l (List.replicate k (checkAt t ip) ++ rest) =
      List.replicate k t ++ openings ip (afterBurst l ip t k) rest := by
  induction k generalizing l n with
  | zero => rfl
  | succ k ih =>
      obtain ⟨n, rfl⟩ : ∃ m, n = m + 1 := ⟨n - 1, by omega⟩
      rw [List.replicate_succ, List.cons_append, openings_cons, h.opening, ih h.next (by omega)]
      rfl

theorem admissible_burst (h : Ready l ip t n) (hk : k ≤ n)
    (hrest : Runs.Admissible step NoWrap (afterBurst l ip t k) rest) :
    Runs.Admissible step NoWrap l (List.replicate k (checkAt t ip) ++ rest) := by
  induction k generalizing l n with
  | zero => exact hrest
  | succ k ih =>
      obtain ⟨n, rfl⟩ : ∃ m, n = m + 1 := ⟨n - 1, by omega⟩
      exact ⟨h.admitted, ih h.next (by omega) hrest⟩

theorem Timely.of_le {calls : List Call} (h : Timely t calls) (hτ : τ ≤ t) : Timely τ calls := by
  cases calls with
  | nil => trivial
  | cons call calls =>
      cases call with
      | checkIp r ip => exact ⟨⟨hτ.trans h.1.1, h.1.2⟩, h.2⟩
      | cleanupStale now => exact ⟨hτ.trans h.1, h.2⟩

theorem timely_burst (hτ : τ ≤ t) (h : Timely t rest) : Timely τ (List.replicate k (checkAt t ip) ++ rest) := by
  induction k generalizing τ with
  | zero => exact h.of_le hτ
  | succ k ih => exact ⟨⟨hτ, le_rfl, le_rfl⟩, ih le_rfl⟩

/-- The bucket of the address is empty after all tokens have been taken. -/
theorem lookup_burst (h : Ready l ip t (n + 1)) : (afterBurst l ip t (n + 1)).ipBuckets.lookup ip =
    some { l.ipBucket ⟨t, t, t⟩ ip with tokens := 0, lastRefill := t } := by
  induction n generalizing l with
  | zero => exact h.lookup
  | succ n ih =>
      refine (ih h.next).trans ?_
      rw [ipBucket_of_lookup h.lookup]

theorem config_burst : (afterBurst l ip t k).config = l.config := by
  induction k generalizing l with
  | zero => rfl
  | succ k ih => exact ih.trans config_step

end bursts

/-! ### Limits per minute -/

section limits
variable {config : RateLimitConfig} {ip : IpAddr} {l : RateLimiter} {t : ℤ}

/-- Without a bucket, an address has as many tokens as the limit. -/
theorem ready_of_absent (he : l.config.enabled = true) (hmax : l.config.wsConnectionsPerMinute < 2 ^ 32)
    (hnone : l.ipBuckets.lookup ip = none) : Ready l ip t l.config.wsConnectionsPerMinute := by
  have hbucket : l.ipBucket ⟨t, t, t⟩ ip = .new l.config.wsConnectionsPerMinute
      (max ((l.config.wsConnectionsPerMinute + 59) / 60) 1) t := by
    rw [RateLimiter.ipBucket, hnone, Option.getD_none]
  refine ⟨he, ?_, ?_, ?_⟩
  · rw [hbucket]
    exact TokenBucket.noWrap_of_fresh rfl hmax
  · rw [hbucket]
    exact TokenBucket.exactTokens_of_fresh rfl le_rfl
  · rw [hbucket]
    exact hmax

theorem countP_two_bursts {s : ℤ} (m n : ℕ) (hst : s ≤ t) :
    (List.replicate m s ++ List.replicate n t).countP (fun x => decide (s ≤ x ∧ x ≤ t)) = m + n := by
  rw [List.countP_append, List.countP_replicate, List.countP_replicate]
  simp [hst]

/-- Two bursts of openings that are together more than the limit of the time between them. -/
theorem not_perMinute_of_openings {calls : List Call} {m n : ℕ} (htimely : Timely 0 calls)
    (hok : Runs.Admissible step NoWrap (.new config) calls)
    (hopenings : openings ip (.new config) calls = List.replicate m 0 ++ List.replicate n t) (ht : 0 ≤ t)
    (hlt : (config.wsConnectionsPerMinute + config.wsConnectionsPerMinute * t / 60000 : ℚ) < m + n) :
    ¬ PerMinute config := by
  intro hall
  have hbound := hall ip calls 0 0 t htimely hok ht
  have hopened : opened ip 0 t (.new config) calls = m + n := by
    rw [opened, hopenings, countP_two_bursts m n ht]
  rw [hopened] at hbound
  push_cast at hbound
  rw [sub_zero] at hbound
  exact absurd hbound (not_le.mpr hlt)

/-- A second after the last token has been taken, the bucket has the tokens of a second. -/
theorem ready_after_second {L rate : ℕ} (hfirst : Ready l ip 0 (L + 1)) (he : l.config.enabled = true)
    (hbucket : l.ipBucket ⟨0, 0, 0⟩ ip = ⟨L + 1, 0, L + 1, rate⟩) (hrate : rate ≤ L + 1) (hmax : L + 1 < 2 ^ 32) :
    Ready (afterBurst l ip 0 (L + 1)) ip 1000 rate := by
  have hempty : (afterBurst l ip 0 (L + 1)).ipBucket ⟨1000, 1000, 1000⟩ ip = ⟨0, 0, L + 1, rate⟩ := by
    rw [ipBucket_of_lookup (lookup_burst hfirst), hbucket]
  have helapsed : (⟨0, 0, L + 1, rate⟩ : TokenBucket).elapsedMs 1000 = 1000 := rfl
  have hearned : (⟨0, 0, L + 1, rate⟩ : TokenBucket).earned 1000 = rate := by
    rw [TokenBucket.earned, helapsed, Nat.mul_div_cancel_left _ (by decide)]
  refine ⟨(congrArg RateLimitConfig.enabled config_burst).trans he, ?_, ?_, ?_⟩
  · rw [hempty]
    exact ⟨by rw [helapsed]; simp only; omega, by rw [hearned]; omega, by rw [hearned]; simp only; omega⟩
  · rw [hempty, TokenBucket.exactTokens, hearned]
    simp only
    omega
  · rw [hempty]
    simp only
    omega

/-- The limit at once, and a second later what has come in. -/
theorem not_perMinute_of_not_dvd (he : config.enabled = true) (hpos : 1 ≤ config.wsConnectionsPerMinute)
    (hmax : config.wsConnectionsPerMinute < 2 ^ 32) (hdvd : ¬ 60 ∣ config.wsConnectionsPerMinute) :
    ¬ PerMinute config := by
  obtain ⟨L, hL⟩ : ∃ L, config.wsConnectionsPerMinute = L + 1 := ⟨config.wsConnectionsPerMinute - 1, by omega⟩
  obtain ⟨rate, hrate⟩ : ∃ rate, rate = max ((config.wsConnectionsPerMinute + 59) / 60) 1 := ⟨_, rfl⟩
  have hrate_lt : L + 1 < 60 * rate := by omega
  let ip : IpAddr := .v4 ⟨127, 0, 0, 1⟩
  have hfirst : Ready (.new config) ip 0 (L + 1) := hL ▸ ready_of_absent he hmax rfl
  have hbucket : (RateLimiter.new config).ipBucket ⟨0, 0, 0⟩ ip = ⟨L + 1, 0, L + 1, rate⟩ := by
    rw [hrate, ← hL]
    rfl
  have hsecond : Ready (afterBurst (.new config) ip 0 (L + 1)) ip 1000 rate :=
    ready_after_second hfirst he hbucket (by omega) (by omega)
  refine @not_perMinute_of_openings config ip 1000
    (List.replicate (L + 1) (checkAt 0 ip) ++ (List.replicate rate (checkAt 1000 ip) ++ [])) (L + 1) rate
    (timely_burst le_rfl (timely_burst (by decide) trivial))
    (admissible_burst hfirst le_rfl (admissible_burst hsecond le_rfl trivial)) ?_ (by decide) ?_
  · rw [openings_burst hfirst le_rfl, openings_burst hsecond le_rfl]
    simp [openings, Runs.trace]
  · have hlt : ((L + 1 : ℕ) : ℚ) < 60 * rate := by exact_mod_cast hrate_lt
    rw [hL]
    push_cast at hlt ⊢
    linarith

/-- A bucket is removed as soon as its time to live is over. -/
theorem ready_after_removal {n : ℕ} (hfirst : Ready l ip 0 (n + 1)) (he : l.config.enabled = true)
    (hmax : l.config.wsConnectionsPerMinute < 2 ^ 32) (httl : l.ttlMs = t) :
    Ready (step (afterBurst l ip 0 (n + 1)) (.cleanupStale t)).2 ip t l.config.wsConnectionsPerMinute := by
  have hconfig : (step (afterBurst l ip 0 (n + 1)) (.cleanupStale t)).2.config = l.config :=
    config_step.trans config_burst
  have hms : (afterBurst l ip 0 (n + 1)).ttlMs = t := by
    rw [RateLimiter.ttlMs, config_burst]
    exact httl
  have hremoved : (step (afterBurst l ip 0 (n + 1)) (.cleanupStale t)).2.ipBuckets.lookup ip = none := by
    rw [lookup_cleanup, lookup_burst hfirst, Option.filter_some, RateLimiter.keeps, hms]
    simp [TokenBucket.lastActivity]
  rw [← hconfig]
  exact ready_of_absent (hconfig.symm ▸ he) (hconfig.symm ▸ hmax) hremoved

/-- The limit at once, and again when the bucket has been removed. -/
theorem not_perMinute_of_short (he : config.enabled = true) (hpos : 1 ≤ config.wsConnectionsPerMinute)
    (hmax : config.wsConnectionsPerMinute < 2 ^ 32) (httl : config.bucketTtlSeconds < 60) :
    ¬ PerMinute config := by
  obtain ⟨L, hL⟩ : ∃ L, config.wsConnectionsPerMinute = L + 1 := ⟨config.wsConnectionsPerMinute - 1, by omega⟩
  obtain ⟨t, ht⟩ : ∃ t : ℤ, t = config.bucketTtlSeconds * 1000 := ⟨_, rfl⟩
  have hzero : 0 ≤ t := by omega
  let ip : IpAddr := .v4 ⟨127, 0, 0, 1⟩
  have hms : (RateLimiter.new config).ttlMs = t := by
    rw [RateLimiter.ttlMs, Nat.mod_eq_of_lt (by simp only [RateLimiter.new]; omega),
      asI64_of_lt (by simp only [RateLimiter.new]; omega), ht]
    simp [RateLimiter.new]
  have hfirst : Ready (.new config) ip 0 (L + 1) := hL ▸ ready_of_absent he hmax rfl
  have hsecond : Ready (step (afterBurst (.new config) ip 0 (L + 1)) (.cleanupStale t)).2 ip t (L + 1) := by
    have hready := ready_after_removal hfirst he hmax hms
    rwa [show (RateLimiter.new config).config.wsConnectionsPerMinute = L + 1 from hL] at hready
  refine @not_perMinute_of_openings config ip t
    (List.replicate (L + 1) (checkAt 0 ip) ++ Call.cleanupStale t :: (List.replicate (L + 1) (checkAt t ip) ++ []))
    (L + 1) (L + 1) (timely_burst le_rfl ⟨hzero, timely_burst le_rfl trivial⟩)
    (admissible_burst hfirst le_rfl ⟨trivial, admissible_burst hsecond le_rfl trivial⟩) ?_ hzero ?_
  · rw [openings_burst hfirst le_rfl, openings_cons, opening_cleanup, Option.toList_none, List.nil_append,
      openings_burst hsecond le_rfl]
    simp [openings, Runs.trace]
  · have hlt : (t : ℚ) < 60000 := by
      have : t < 60000 := by omega
      exact_mod_cast this
    have hmul : ((L : ℚ) + 1) * t < (L + 1) * 60000 := mul_lt_mul_of_pos_left hlt (by positivity)
    rw [hL]
    push_cast
    linarith

theorem opened_eq_granted (s t : ℤ) (l : RateLimiter) (calls : List Call) :
    (opened ip s t l calls : ℚ) = granted (s : ℚ) t ((openings ip l calls).map grant) := by
  have hsel : ∀ x : ℤ, decide ((s : ℚ) ≤ (grant x).time ∧ (grant x).time ≤ t) = decide (s ≤ x ∧ x ≤ t) := by
    intro x
    simp [grant]
  have hone : ∀ xs : List ℤ, ((xs.map grant).map (·.amount)).sum = xs.length := by
    intro xs
    simp [Function.comp_def, grant]
  unfold opened granted total
  rw [List.filter_map, hone, List.countP_eq_length_filter]
  exact congrArg (fun xs => (List.length xs : ℚ)) (List.filter_congr (fun x _ => (hsel x).symm))

/-- **A limit of connections per minute is kept in every interval if and only if it is a multiple of 60
and a bucket is kept for at least a minute.** -/
theorem perMinute_iff (he : config.enabled = true) (hpos : 1 ≤ config.wsConnectionsPerMinute)
    (hmax : config.wsConnectionsPerMinute < 2 ^ 32) (httl : config.bucketTtlSeconds * 1000 < 2 ^ 63) :
    PerMinute config ↔ 60 ∣ config.wsConnectionsPerMinute ∧ 60 ≤ config.bucketTtlSeconds := by
  constructor
  · intro hall
    constructor
    · by_contra hdvd
      exact not_perMinute_of_not_dvd he hpos hmax hdvd hall
    · by_contra hshort
      exact not_perMinute_of_short he hpos hmax (not_le.mp hshort) hall
  · rintro ⟨⟨k, hk⟩, hlong⟩ ip calls τ s t htimely - hst
    have hms : 60000 ≤ (RateLimiter.new config).ttlMs := by
      rw [RateLimiter.ttlMs, Nat.mod_eq_of_lt (by simp only [RateLimiter.new]; omega),
        asI64_of_lt (by simp only [RateLimiter.new]; omega)]
      simp only [RateLimiter.new]
      omega
    have hstart : Follows config k ip τ (.new config) [] := follows_new
    obtain ⟨τ', hfollows⟩ := hstart.run he hk (by omega) hms htimely
    obtain ⟨tokens, last, -, hpaced, -⟩ := hfollows.paced
    rw [opened_eq_granted, hk]
    calc granted (s : ℚ) t ((openings ip (.new config) calls).map grant)
        ≤ (60 * k : ℕ) + k / 1000 * (t - s) := hpaced.window s t (by exact_mod_cast hst)
      _ = (60 * k : ℕ) + (60 * k : ℕ) * (t - s) / 60000 := by
          push_cast
          ring

/-- Sixty connections per minute, and buckets that are kept for five minutes. -/
theorem perMinute_sixty : PerMinute ⟨true, 100, 200, 60, 300⟩ :=
  (perMinute_iff rfl (by decide) (by decide) (by decide)).mpr ⟨by decide, by decide⟩

/-- Ten connections per minute: ten at once, and another one a second later. -/
theorem not_perMinute_ten :
    ¬ ∀ config : RateLimitConfig, config.enabled = true → 1 ≤ config.wsConnectionsPerMinute →
      config.wsConnectionsPerMinute < 2 ^ 32 → config.bucketTtlSeconds * 1000 < 2 ^ 63 → PerMinute config := by
  intro hall
  have hten := hall ⟨true, 100, 200, 10, 300⟩ rfl (by decide) (by decide) (by decide)
  exact not_perMinute_of_not_dvd rfl (by decide) (by decide) (by decide) hten

end limits

end ConnectionRate

end AraNotification
