import AraNotification.RateLimiter

/-! # The arithmetic of a token bucket at its limits

`try_consume_n` and `available` multiply the elapsed milliseconds by the rate as 64-bit numbers,
divide, narrow the quotient to 32 bits and add it to the tokens, all before the capacity is
applied.  Addition and multiplication wrap around in a release build and panic in a debug build;
the narrowing cuts off the upper bits in both.  Clock readings count from the epoch, so that
their difference fits.

The release build is the bucket of `RateLimiter.lean` (`tryConsumeNIn_release`).  A bucket that
has been idle for long, or is refilled fast, may have earned so much that nothing of it is left
after the narrowing, and is then empty instead of full.  `exact_iff` says when the
results are those of exact arithmetic. -/

namespace AraNotification

/-- How a program is built: with overflow checks or without. -/
inductive Build where
  | debug
  | release
deriving DecidableEq, Repr

/-- A result `x` of unsigned arithmetic of some width; `none` is a panic. -/
def Build.unsigned (build : Build) (width x : ℕ) : Option ℕ :=
  match build with
  | .debug => if x < 2 ^ width then some x else none
  | .release => some (x % 2 ^ width)

theorem Build.unsigned_of_lt {width x : ℕ} (build : Build) (h : x < 2 ^ width) : build.unsigned width x = some x := by
  cases build with
  | debug => exact if_pos h
  | release => exact congrArg some (Nat.mod_eq_of_lt h)

theorem Build.debug_of_not_lt {width x : ℕ} (h : ¬ x < 2 ^ width) : Build.debug.unsigned width x = none := if_neg h

namespace TokenBucket
variable (build : Build) (b : TokenBucket) (now : ℤ)

/-- Milliseconds since the last refill. -/
def elapsedMs : ℕ := (now - b.lastRefill).toNat

/-- Tokens to add for the elapsed time; `as u32` keeps the lower bits. -/
def tokensToAddIn : Option ℕ := do
  let product ← build.unsigned 64 (b.elapsedMs now * b.refillRate)
  return product / 1000 % 2 ^ 32

/-- The number of tokens at `now`. -/
def availableIn : Option ℕ := do
  let tokensToAdd ← b.tokensToAddIn build now
  let sum ← build.unsigned 32 (b.tokens + tokensToAdd)
  return min sum b.capacity

/-- Try to consume `n` tokens. -/
def tryConsumeNIn (n : ℕ) : Option (Bool × TokenBucket) := do
  let refilled ← b.availableIn build now
  return if refilled < n then (false, b) else (true, { b with tokens := refilled - n, lastRefill := now })

/-- The tokens that the elapsed time is worth. -/
def earned : ℕ := b.elapsedMs now * b.refillRate / 1000

/-- The number of tokens in exact arithmetic. -/
def exactTokens : ℕ := min b.capacity (b.tokens + b.earned now)

/-- In every build the calls return, and what they return is exact. -/
structure Exact (n : ℕ) : Prop where
  available : ∀ build, b.availableIn build now = some (b.exactTokens now)
  consume : ∀ build, ∃ r, b.tryConsumeNIn build now n = some r ∧ (r.1 = true ↔ n ≤ b.exactTokens now)

/-- The product fits into 64 bits, and what is earned either fits with the tokens into 32 bits, or
still fills the bucket after it has been narrowed. -/
structure Fits : Prop where
  product : b.elapsedMs now * b.refillRate < 2 ^ 64
  sum : b.tokens + b.earned now % 2 ^ 32 < 2 ^ 32
  filled : 2 ^ 32 ≤ b.earned now → b.capacity ≤ b.tokens + b.earned now % 2 ^ 32

/-! ### Results -/

section results
variable {build : Build} {b : TokenBucket} {now : ℤ}

/-- A release build computes what the bucket of the limiter does. -/
theorem tryConsumeNIn_release (b : TokenBucket) (now : ℤ) (n : ℕ) :
    b.tryConsumeNIn .release now n = some (b.tryConsumeN now n) := by
  unfold tryConsumeN
  split_ifs with h
  · exact congrArg some (if_pos h)
  · exact congrArg some (if_neg h)

theorem availableIn_release (b : TokenBucket) (now : ℤ) : b.availableIn .release now = some (b.refilled now) :=
  rfl

/-- A debug build panics when the product or the sum does not fit. -/
theorem availableIn_debug (b : TokenBucket) (now : ℤ) : b.availableIn .debug now =
    if b.elapsedMs now * b.refillRate < 2 ^ 64 ∧ b.tokens + b.earned now % 2 ^ 32 < 2 ^ 32 then
      some (min (b.tokens + b.earned now % 2 ^ 32) b.capacity)
    else none := by
  unfold availableIn tokensToAddIn
  by_cases hproduct : b.elapsedMs now * b.refillRate < 2 ^ 64
  · rw [Build.unsigned_of_lt .debug hproduct]
    by_cases hsum : b.tokens + b.earned now % 2 ^ 32 < 2 ^ 32
    · rw [if_pos ⟨hproduct, hsum⟩]
      exact congrArg (Option.bind · _) (Build.unsigned_of_lt .debug hsum)
    · rw [if_neg (fun h => hsum h.2)]
      exact congrArg (Option.bind · _) (Build.debug_of_not_lt hsum)
  · rw [Build.debug_of_not_lt hproduct, if_neg (fun h => hproduct h.1)]
    rfl

/-- No intermediate value wraps around. -/
structure NoWrap (b : TokenBucket) (now : ℤ) : Prop where
  product : b.elapsedMs now * b.refillRate < 2 ^ 64
  earned : b.earned now < 2 ^ 32
  sum : b.tokens + b.earned now < 2 ^ 32

instance (b : TokenBucket) (now : ℤ) : Decidable (b.NoWrap now) :=
  decidable_of_iff (b.elapsedMs now * b.refillRate < 2 ^ 64 ∧ b.earned now < 2 ^ 32 ∧ b.tokens + b.earned now < 2 ^ 32)
    ⟨fun ⟨hproduct, hearned, hsum⟩ => ⟨hproduct, hearned, hsum⟩, fun h => ⟨h.product, h.earned, h.sum⟩⟩

theorem refilled_of_noWrap (h : b.NoWrap now) : b.refilled now = b.exactTokens now := by
  have hadd : b.tokensToAdd now = b.earned now := by
    calc b.tokensToAdd now = b.elapsedMs now * b.refillRate % 2 ^ 64 / 1000 % 2 ^ 32 := rfl
      _ = b.earned now % 2 ^ 32 := by rw [Nat.mod_eq_of_lt h.product, earned]
      _ = b.earned now := Nat.mod_eq_of_lt h.earned
  rw [refilled, hadd, Nat.mod_eq_of_lt h.sum, exactTokens, min_comm]

/-- At the time of the last refill nothing has come in. -/
theorem earned_of_fresh (h : b.lastRefill = now) : b.earned now = 0 := by
  rw [earned, elapsedMs, h, sub_self, Int.toNat_zero, Nat.zero_mul, Nat.zero_div]

theorem noWrap_of_fresh (h : b.lastRefill = now) (htokens : b.tokens < 2 ^ 32) : b.NoWrap now where
  product := by
    rw [elapsedMs, h, sub_self, Int.toNat_zero, Nat.zero_mul]
    decide
  earned := by
    rw [earned_of_fresh h]
    decide
  sum := by rwa [earned_of_fresh h, Nat.add_zero]

theorem exactTokens_of_fresh (h : b.lastRefill = now) (htokens : b.tokens ≤ b.capacity) :
    b.exactTokens now = b.tokens := by
  rw [exactTokens, earned_of_fresh h, Nat.add_zero, Nat.min_eq_right htokens]

/-- The narrowed quotient and the exact one give the same tokens. -/
theorem min_narrowed_iff (hcap : b.capacity < 2 ^ 32) :
    min (b.tokens + b.earned now % 2 ^ 32) b.capacity = b.exactTokens now ↔
      (2 ^ 32 ≤ b.earned now → b.capacity ≤ b.tokens + b.earned now % 2 ^ 32) := by
  unfold exactTokens
  rcases Nat.lt_or_ge (b.earned now) (2 ^ 32) with hsmall | hlarge
  · rw [Nat.mod_eq_of_lt hsmall, min_comm]
    exact ⟨fun _ hlarge => absurd hlarge (not_le.mpr hsmall), fun _ => rfl⟩
  · omega

theorem refilled_of_fits (hcap : b.capacity < 2 ^ 32) (h : b.Fits now) : b.refilled now = b.exactTokens now := by
  rw [← (min_narrowed_iff hcap).mpr h.filled]
  unfold refilled tokensToAdd
  have hproduct : (now - b.lastRefill).toNat * b.refillRate % 2 ^ 64 = b.elapsedMs now * b.refillRate :=
    Nat.mod_eq_of_lt h.product
  rw [hproduct]
  exact congrArg (min · b.capacity) (Nat.mod_eq_of_lt h.sum)

/-- Whether tokens are taken is decided by how many there are. -/
theorem tryConsumeNIn_of_available {v : ℕ} (h : b.availableIn build now = some v) (n : ℕ) :
    ∃ r, b.tryConsumeNIn build now n = some r ∧ (r.1 = true ↔ n ≤ v) := by
  unfold tryConsumeNIn
  rw [h]
  refine ⟨_, rfl, ?_⟩
  by_cases hfew : v < n
  · simp [hfew]
  · simp [hfew, not_lt.mp hfew]

/-- **The calls return in both builds and are exact if and only if the product fits and the narrowing
loses nothing that the capacity would not cut off as well.** -/
theorem exact_iff (hcap : b.capacity < 2 ^ 32) (now : ℤ) (n : ℕ) : b.Exact now n ↔ b.Fits now := by
  constructor
  · intro h
    have hdebug := h.available .debug
    rw [availableIn_debug] at hdebug
    split_ifs at hdebug with hfits
    have hmin : min (b.tokens + b.earned now % 2 ^ 32) b.capacity = b.exactTokens now := Option.some.inj hdebug
    exact ⟨hfits.1, hfits.2, (min_narrowed_iff hcap).mp hmin⟩
  · intro h
    have havailable : ∀ build, b.availableIn build now = some (b.exactTokens now) := by
      intro build
      cases build with
      | debug => rw [availableIn_debug, if_pos ⟨h.product, h.sum⟩, (min_narrowed_iff hcap).mpr h.filled]
      | release => rw [availableIn_release, refilled_of_fits hcap h]
    exact ⟨havailable, fun build => tryConsumeNIn_of_available (havailable build) n⟩

/-- An hour of idling at ten thousand tokens a second. -/
theorem exact_hour : (⟨0, 0, 200, 10000⟩ : TokenBucket).Exact 3600000 200 :=
  (exact_iff (by decide) 3600000 200).mpr ⟨by decide, by decide, by decide⟩

/-- Emptied, and idle for `2 ^ 32` milliseconds at a thousand tokens a second: nothing is there. -/
theorem not_exact_idle :
    ¬ ∀ (b : TokenBucket) (now : ℤ) (n : ℕ), b.capacity < 2 ^ 32 → b.refillRate < 2 ^ 32 → b.tokens ≤ b.capacity →
      now - b.lastRefill < 2 ^ 42 → b.Exact now n := by
  intro hall
  have hexact := hall ⟨0, 0, 200, 1000⟩ (2 ^ 32) 1 (by decide) (by decide) (by decide) (by decide)
  have hdebug := hexact.available .debug
  exact absurd hdebug (by decide)

end results

end TokenBucket

end AraNotification
