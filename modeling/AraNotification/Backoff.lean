import AraNotification.Lib.Runs
import AraNotification.SubscriberLoop
import Mathlib.Algebra.Order.Floor.Semiring
import Mathlib.Data.Rat.Floor
import Mathlib.Tactic.Linarith
import Mathlib.Tactic.NormNum
import Mathlib.Tactic.Positivity

/-! # The delays between reconnections

`next_delay` multiplies the delay before, caps it, adds a jitter and truncates; the result is also
where the next call goes on (`infrastructure/redis/backoff.rs`).  Numbers are exact rationals, and the
jitter is an argument, drawn from a half-open interval around zero (`Drawn`).

The jitter is added after the cap, so a delay exceeds the maximum as soon as a capped delay is so long
that its jitter may be a millisecond or more.  Delays stay within the maximum, whatever is drawn,
exactly when the jitter of the longest capped delay is at most a millisecond, or the delays never grow
(`withinCap_iff`). -/

namespace AraNotification.Backoff

/-- Exponential backoff configuration. -/
structure BackoffConfig where
  initialDelayMs : ℕ
  maxDelayMs : ℕ
  multiplier : ℚ
  jitterFactor : ℚ
deriving DecidableEq, Repr

/-- `BackoffConfig::default`. -/
def BackoffConfig.default : BackoffConfig where
  initialDelayMs := 100
  maxDelayMs := 30000
  multiplier := 2
  jitterFactor := 1 / 10

/-- Exponential backoff calculator with jitter. -/
structure ExponentialBackoff where
  config : BackoffConfig
  currentDelayMs : ℕ
  attempt : ℕ
deriving DecidableEq, Repr

/-- `x as u64`: truncated, and at most the largest value. -/
def asU64 (x : ℚ) : ℕ := min ⌊x⌋₊ (2 ^ 64 - 1)

namespace ExponentialBackoff

/-- Create a new exponential backoff. -/
def withConfig (config : BackoffConfig) : ExponentialBackoff := ⟨config, config.initialDelayMs, 0⟩

variable (b : ExponentialBackoff)

/-- The delay with exponential growth, capped. -/
def cappedDelay : ℚ := min (b.currentDelayMs * b.config.multiplier) b.config.maxDelayMs

/-- The bound of the jitter. -/
def jitterRange : ℚ := b.cappedDelay * b.config.jitterFactor

/-- The next delay with the jitter that is drawn, in milliseconds. -/
def finalDelay (jitter : ℚ) : ℕ :=
  if b.config.jitterFactor > 0 then asU64 (max (b.cappedDelay + jitter) 1) else asU64 (max b.cappedDelay 1)

/-- Get the next delay. -/
def nextDelay (jitter : ℚ) : ℕ × ExponentialBackoff :=
  (b.finalDelay jitter,
    { b with currentDelayMs := b.finalDelay jitter, attempt := (b.attempt + 1) % 2 ^ 32 })

/-- Reset the backoff to its initial state. -/
def reset : ExponentialBackoff := { b with currentDelayMs := b.config.initialDelayMs, attempt := 0 }

/-- A call of a backoff. -/
inductive Call where
  | nextDelay (jitter : ℚ)
  | reset
deriving DecidableEq, Repr

/-- One call; a delay is returned by `next_delay`. -/
def step (b : ExponentialBackoff) : Call → Option ℕ × ExponentialBackoff
  | .nextDelay jitter => (some (b.nextDelay jitter).1, (b.nextDelay jitter).2)
  | .reset => (none, b.reset)

/-- A jitter is drawn from the half-open range around zero, if there is to be one. -/
def Drawn (b : ExponentialBackoff) : Call → Prop
  | .nextDelay jitter => b.config.jitterFactor > 0 → -b.jitterRange ≤ jitter ∧ jitter < b.jitterRange
  | .reset => True

/-- Every delay of every run is at least a millisecond and at most the maximum. -/
def WithinCap (config : BackoffConfig) : Prop :=
  ∀ calls, Runs.Admissible step Drawn (withConfig config) calls →
    ∀ d, some d ∈ Runs.outputs step (withConfig config) calls → 1 ≤ d ∧ d ≤ config.maxDelayMs

/-- The configurations that the backoff is meant for; delays are unsigned 64-bit numbers. -/
structure Valid (config : BackoffConfig) : Prop where
  initial_pos : 1 ≤ config.initialDelayMs
  max_pos : 1 ≤ config.maxDelayMs
  initial_lt : config.initialDelayMs < 2 ^ 64
  max_lt : config.maxDelayMs < 2 ^ 64
  multiplier : 1 ≤ config.multiplier
  jitter_nonneg : 0 ≤ config.jitterFactor
  jitter_le : config.jitterFactor ≤ 1

/-- The longest capped delay has a jitter of at most a millisecond, or the delays never grow, or no
number is above the maximum. -/
def Tame (config : BackoffConfig) : Prop :=
  config.maxDelayMs = 2 ^ 64 - 1 ∨ config.maxDelayMs * config.jitterFactor ≤ 1 ∨
    config.initialDelayMs * (config.multiplier * (1 + config.jitterFactor) - 1) ≤ 1

/-- The backoff of the Redis subscriber, whose configuration sets the two delays. -/
def ofSubscriber (initialDelayMs : ℕ) (b : AraNotification.ExponentialBackoff) : ExponentialBackoff where
  config := { BackoffConfig.default with initialDelayMs := initialDelayMs, maxDelayMs := b.maxDelayMs }
  currentDelayMs := b.currentDelayMs
  attempt := b.attempt

/-! ### One delay -/

section delays
variable {b : ExponentialBackoff} {jitter : ℚ} {n : ℕ}

theorem asU64_le (x : ℚ) : asU64 x ≤ 2 ^ 64 - 1 := min_le_right _ _

/-- Truncation stays below a bound of the exact delay. -/
theorem asU64_max_le {x : ℚ} (hx : x < n + 1) (hn : 1 ≤ n) : asU64 (max x 1) ≤ n := by
  have hone : (1 : ℚ) < n + 1 := by
    have : (1 : ℚ) ≤ n := by exact_mod_cast hn
    linarith
  have hfloor : ⌊max x 1⌋₊ < n + 1 := by
    rw [Nat.floor_lt (le_trans zero_le_one (le_max_right _ _))]
    push_cast
    exact max_lt hx hone
  exact (min_le_left _ _).trans (Nat.lt_succ_iff.mp hfloor)

theorem le_asU64_max {x : ℚ} (hx : n ≤ x) (hn : n < 2 ^ 64) : n ≤ asU64 (max x 1) :=
  le_min (Nat.le_floor (hx.trans (le_max_left _ _))) (Nat.le_pred_of_lt hn)

theorem one_le_finalDelay (b : ExponentialBackoff) (jitter : ℚ) : 1 ≤ b.finalDelay jitter := by
  have hone : ∀ x : ℚ, 1 ≤ asU64 (max x 1) := fun x =>
    le_min (Nat.le_floor (by exact_mod_cast le_max_right x 1)) (by decide)
  unfold finalDelay
  split_ifs <;> exact hone _

/-- A delay is below a bound that the capped delay and its jitter keep below. -/
theorem finalDelay_le (hdrawn : b.Drawn (.nextDelay jitter)) (hcapped : b.cappedDelay < n + 1)
    (hjitter : b.config.jitterFactor > 0 → b.cappedDelay * (1 + b.config.jitterFactor) ≤ n + 1) (hn : 1 ≤ n) :
    b.finalDelay jitter ≤ n := by
  unfold finalDelay
  split_ifs with hpos
  · have hless := (hdrawn hpos).2
    have hbound := hjitter hpos
    unfold jitterRange at hless
    exact asU64_max_le (by linarith) hn
  · exact asU64_max_le hcapped hn

/-- A call in the subscriber's loop is a call with the jitter that leads to the delay drawn there. -/
theorem nextDelay_ofSubscriber {b : AraNotification.ExponentialBackoff} (initialDelayMs : ℕ)
    (hmax : b.maxDelayMs < 2 ^ 63) (hpos : b.cappedDelay ≠ 0)
    (hdrawn : (ofSubscriber initialDelayMs b).Drawn (.nextDelay jitter)) :
    (b.nextDelay ⌊(b.cappedDelay : ℚ) + jitter⌋₊).map (fun r => (r.1, ofSubscriber initialDelayMs r.2)) =
      some ((ofSubscriber initialDelayMs b).nextDelay jitter) := by
  have hcapped : (ofSubscriber initialDelayMs b).cappedDelay = b.cappedDelay := by
    unfold cappedDelay AraNotification.ExponentialBackoff.cappedDelay
    push_cast
    rfl
  have hfactor : (ofSubscriber initialDelayMs b).config.jitterFactor = 1 / 10 := rfl
  have hfactor_pos : (ofSubscriber initialDelayMs b).config.jitterFactor > 0 := by rw [hfactor]; norm_num
  have hfloor : ⌊max ((b.cappedDelay : ℚ) + jitter) 1⌋₊ = max ⌊(b.cappedDelay : ℚ) + jitter⌋₊ 1 := by
    rw [Nat.floor_mono.map_max, Nat.floor_one]
  have hsmall : ⌊(b.cappedDelay : ℚ) + jitter⌋₊ ≤ 2 ^ 64 - 1 := by
    have hjitter := (hdrawn hfactor_pos).2
    rw [jitterRange, hcapped, hfactor] at hjitter
    have hcap : (b.cappedDelay : ℚ) ≤ 2 ^ 63 := by
      have : b.cappedDelay ≤ 2 ^ 63 := (min_le_right _ _).trans hmax.le
      exact_mod_cast this
    refine Nat.floor_le_of_le ?_
    push_cast
    linarith
  have hdelay : (ofSubscriber initialDelayMs b).finalDelay jitter = max ⌊(b.cappedDelay : ℚ) + jitter⌋₊ 1 := by
    rw [finalDelay, if_pos hfactor_pos, hcapped, asU64, hfloor]
    exact min_eq_left (max_le hsmall (by decide))
  rw [AraNotification.ExponentialBackoff.nextDelay, if_neg hpos, Option.map_some, nextDelay, hdelay]
  rfl

end delays

/-! ### Tame configurations -/

section tame
variable {config : BackoffConfig} {b : ExponentialBackoff} {jitter : ℚ}

/-- What every call preserves, and what bounds the delay of a call, hold of all delays. -/
theorem withinCap_of_invariant {I : ExponentialBackoff → Prop} (h0 : I (withConfig config))
    (hreset : ∀ b, I b → I b.reset)
    (hnext : ∀ b jitter, I b → b.Drawn (.nextDelay jitter) →
      I (b.nextDelay jitter).2 ∧ b.finalDelay jitter ≤ config.maxDelayMs) : WithinCap config := by
  have hall : ∀ calls b, I b → Runs.Admissible step Drawn b calls →
      ∀ d, some d ∈ Runs.outputs step b calls → 1 ≤ d ∧ d ≤ config.maxDelayMs := by
    intro calls
    induction calls with
    | nil => exact fun b _ _ d hd => absurd hd List.not_mem_nil
    | cons call calls ih =>
        intro b hb hok d hd
        rcases List.mem_cons.mp hd with hd | hd
        · cases call with
          | nextDelay jitter =>
              cases hd
              exact ⟨one_le_finalDelay b jitter, (hnext b jitter hb hok.1).2⟩
          | reset => cases hd
        · cases call with
          | nextDelay jitter => exact ih _ (hnext b jitter hb hok.1).1 hok.2 d hd
          | reset => exact ih _ (hreset b hb) hok.2 d hd
  exact fun calls hok d hd => hall calls _ h0 hok d hd

theorem cappedDelay_le (b : ExponentialBackoff) : b.cappedDelay ≤ b.config.maxDelayMs := min_le_right _ _

theorem cappedDelay_eq_max (hconfig : b.config = config)
    (h : (config.maxDelayMs : ℚ) ≤ b.currentDelayMs * config.multiplier) : b.cappedDelay = config.maxDelayMs := by
  rw [cappedDelay, hconfig]
  exact min_eq_right h

theorem Valid.le_grown (hv : Valid config) (n : ℕ) : (n : ℚ) ≤ n * config.multiplier :=
  le_mul_of_one_le_right (Nat.cast_nonneg _) hv.multiplier

/-- With the longest jitter a delay grows at least by the jitter. -/
theorem Valid.jitter_le_growth (hv : Valid config) :
    config.jitterFactor ≤ config.multiplier * (1 + config.jitterFactor) - 1 := by
  have hfactor : 1 * (1 + config.jitterFactor) ≤ config.multiplier * (1 + config.jitterFactor) :=
    mul_le_mul_of_nonneg_right hv.multiplier (by linarith [hv.jitter_nonneg])
  linarith

/-- The jitter is too short to leave the cap behind. -/
theorem withinCap_of_short (hv : Valid config) (h : config.maxDelayMs * config.jitterFactor ≤ 1) :
    WithinCap config := by
  refine withinCap_of_invariant (I := fun b => b.config = config) rfl (fun b hb => hb) (fun b jitter hb hdrawn => ?_)
  refine ⟨hb, finalDelay_le hdrawn ?_ (fun _ => ?_) hv.max_pos⟩
  · have hcapped := b.cappedDelay_le
    rw [hb] at hcapped
    linarith
  · have hcapped : b.cappedDelay ≤ config.maxDelayMs := hb ▸ b.cappedDelay_le
    have hfactor : (0 : ℚ) ≤ 1 + config.jitterFactor := by linarith [hv.jitter_nonneg]
    rw [hb]
    calc b.cappedDelay * (1 + config.jitterFactor)
        ≤ config.maxDelayMs * (1 + config.jitterFactor) := mul_le_mul_of_nonneg_right hcapped hfactor
      _ ≤ config.maxDelayMs + 1 := by linarith

/-- The delays never grow beyond the initial one. -/
theorem withinCap_of_still (hv : Valid config) (hpos : 0 < config.jitterFactor)
    (hle : config.initialDelayMs ≤ config.maxDelayMs)
    (h : config.initialDelayMs * (config.multiplier * (1 + config.jitterFactor) - 1) ≤ 1) : WithinCap config := by
  refine withinCap_of_invariant
    (I := fun b => b.config = config ∧ b.currentDelayMs ≤ config.initialDelayMs)
    ⟨rfl, le_rfl⟩ (fun b hb => ⟨hb.1, by rw [reset, hb.1]⟩) (fun b jitter hb hdrawn => ?_)
  obtain ⟨hconfig, hcurrent⟩ := hb
  have hfactor : 0 < 1 + config.jitterFactor := by linarith
  have hinitial : (1 : ℚ) ≤ config.initialDelayMs := by exact_mod_cast hv.initial_pos
  have hgrown : (b.currentDelayMs : ℚ) * config.multiplier ≤ config.initialDelayMs * config.multiplier :=
    mul_le_mul_of_nonneg_right (by exact_mod_cast hcurrent) (zero_le_one.trans hv.multiplier)
  have hcapped : b.cappedDelay ≤ config.initialDelayMs * config.multiplier := by
    refine (min_le_left _ _).trans ?_
    rwa [hconfig]
  have hjitter : b.cappedDelay * (1 + config.jitterFactor) ≤ config.initialDelayMs + 1 := by
    calc b.cappedDelay * (1 + config.jitterFactor)
        ≤ config.initialDelayMs * config.multiplier * (1 + config.jitterFactor) :=
          mul_le_mul_of_nonneg_right hcapped hfactor.le
      _ ≤ config.initialDelayMs + 1 := by linarith
  have hless : b.cappedDelay < config.initialDelayMs + 1 := by
    have hproduct : (1 : ℚ) ≤ config.initialDelayMs * config.multiplier := by
      calc (1 : ℚ) = 1 * 1 := (one_mul 1).symm
        _ ≤ config.initialDelayMs * config.multiplier := mul_le_mul hinitial hv.multiplier zero_le_one (by linarith)
    have hextra : 0 < config.initialDelayMs * config.multiplier * config.jitterFactor :=
      mul_pos (by linarith) hpos
    linarith
  have hdelay : b.finalDelay jitter ≤ config.initialDelayMs :=
    finalDelay_le hdrawn hless (fun _ => hconfig ▸ hjitter) hv.initial_pos
  exact ⟨⟨hconfig, hdelay⟩, hdelay.trans hle⟩

theorem withinCap_of_tame (hv : Valid config) (h : Tame config) : WithinCap config := by
  rcases h with hmax | hshort | hstill
  · refine withinCap_of_invariant (I := fun b => b.config = config) rfl (fun b hb => hb)
      (fun b jitter hb _ => ⟨hb, ?_⟩)
    rw [hmax, finalDelay]
    split_ifs <;> exact asU64_le _
  · exact withinCap_of_short hv hshort
  · by_cases hshort : config.maxDelayMs * config.jitterFactor ≤ 1
    · exact withinCap_of_short hv hshort
    · have hpos : 0 < config.jitterFactor := by
        refine hv.jitter_nonneg.lt_of_ne (fun hzero => hshort ?_)
        rw [← hzero, mul_zero]
        exact zero_le_one
      refine withinCap_of_still hv hpos ?_ hstill
      by_contra hlarge
      -- The jitter of the initial delay is at most a millisecond, and that of the maximum is shorter.
      have hmax : (config.maxDelayMs : ℚ) ≤ config.initialDelayMs := by exact_mod_cast (not_le.mp hlarge).le
      have hlonger : (config.maxDelayMs : ℚ) * config.jitterFactor ≤ config.initialDelayMs * config.jitterFactor :=
        mul_le_mul_of_nonneg_right hmax hpos.le
      have hinitial : (config.initialDelayMs : ℚ) * config.jitterFactor ≤
          config.initialDelayMs * (config.multiplier * (1 + config.jitterFactor) - 1) :=
        mul_le_mul_of_nonneg_left hv.jitter_le_growth (Nat.cast_nonneg _)
      linarith

end tame

/-! ### Other configurations -/

section wild
variable {config : BackoffConfig} {b : ExponentialBackoff}

/-- Some draws lead from a state to a delay above the maximum. -/
def Exceeds (config : BackoffConfig) (b : ExponentialBackoff) : Prop :=
  ∃ calls, Runs.Admissible step Drawn b calls ∧ ∃ d, some d ∈ Runs.outputs step b calls ∧ config.maxDelayMs < d

theorem exceeds_of_next {jitter : ℚ} (hdrawn : b.Drawn (.nextDelay jitter))
    (h : config.maxDelayMs < b.finalDelay jitter ∨ Exceeds config (b.nextDelay jitter).2) : Exceeds config b := by
  rcases h with hlarge | ⟨calls, hok, d, hd, hlarge⟩
  · exact ⟨[.nextDelay jitter], ⟨hdrawn, trivial⟩, _, List.mem_cons_self, hlarge⟩
  · exact ⟨.nextDelay jitter :: calls, ⟨hdrawn, hok⟩, d, List.mem_cons_of_mem _ hd, hlarge⟩

/-- From a delay at the cap, a jitter of a millisecond leads above the maximum. -/
theorem exceeds_of_capped (hmax : config.maxDelayMs < 2 ^ 64 - 1)
    (hlong : 1 < config.maxDelayMs * config.jitterFactor) (hpos : 0 < config.jitterFactor)
    (hconfig : b.config = config) (hcapped : b.cappedDelay = config.maxDelayMs) : Exceeds config b := by
  have hdrawn : b.Drawn (.nextDelay 1) := by
    intro _
    rw [jitterRange, hcapped, hconfig]
    exact ⟨by linarith, hlong⟩
  refine exceeds_of_next hdrawn (.inl ?_)
  rw [finalDelay, if_pos (hconfig.symm ▸ hpos), hcapped]
  exact le_asU64_max (by push_cast; exact le_rfl) (by omega)

/-- Below the cap, the longest jitter makes the delay grow by a millisecond or more. -/
theorem exists_longer (hv : Valid config) (hmax : config.maxDelayMs < 2 ^ 64 - 1) (hpos : 0 < config.jitterFactor)
    (hconfig : b.config = config) (hless : b.currentDelayMs * config.multiplier < config.maxDelayMs)
    (hgrow : 1 < b.currentDelayMs * (config.multiplier * (1 + config.jitterFactor) - 1)) :
    ∃ jitter, b.Drawn (.nextDelay jitter) ∧ b.currentDelayMs + 1 ≤ b.finalDelay jitter := by
  have hcapped : b.cappedDelay = b.currentDelayMs * config.multiplier := by
    rw [cappedDelay, hconfig]
    exact min_eq_left hless.le
  have hcurrent := hv.le_grown b.currentDelayMs
  have hrange : b.jitterRange = b.currentDelayMs * config.multiplier * config.jitterFactor := by
    rw [jitterRange, hcapped, hconfig]
  have hnonzero : 0 < (b.currentDelayMs : ℚ) := by
    refine lt_of_le_of_ne (Nat.cast_nonneg _) (fun hzero => ?_)
    rw [← hzero, zero_mul] at hgrow
    exact absurd hgrow (by norm_num)
  have hrange_pos : 0 < b.jitterRange := by
    rw [hrange]
    exact mul_pos (hnonzero.trans_le hcurrent) hpos
  have hlonger : b.currentDelayMs + 1 - b.cappedDelay < b.jitterRange := by
    rw [hcapped, hrange]
    linarith
  refine ⟨max (b.currentDelayMs + 1 - b.cappedDelay) 0, fun _ => ⟨?_, max_lt hlonger hrange_pos⟩, ?_⟩
  · exact (neg_nonpos.mpr hrange_pos.le).trans (le_max_right _ _)
  · have hfits : b.currentDelayMs + 1 < 2 ^ 64 := by
      have hbelow : b.currentDelayMs < config.maxDelayMs := by exact_mod_cast hcurrent.trans_lt hless
      omega
    rw [finalDelay, if_pos (hconfig.symm ▸ hpos)]
    refine le_asU64_max ?_ hfits
    push_cast
    linarith [le_max_left ((b.currentDelayMs : ℚ) + 1 - b.cappedDelay) 0]

/-- A delay that grows reaches the cap and exceeds it. -/
theorem exceeds_of_growing (hv : Valid config) (hmax : config.maxDelayMs < 2 ^ 64 - 1)
    (hlong : 1 < config.maxDelayMs * config.jitterFactor) (hpos : 0 < config.jitterFactor) (k : ℕ)
    (hconfig : b.config = config) (hk : config.maxDelayMs ≤ b.currentDelayMs + k)
    (hgrow : 1 < b.currentDelayMs * (config.multiplier * (1 + config.jitterFactor) - 1)) : Exceeds config b := by
  induction k generalizing b with
  | zero =>
      have hlarge : (config.maxDelayMs : ℚ) ≤ b.currentDelayMs := by exact_mod_cast hk
      have hreached := hlarge.trans (hv.le_grown b.currentDelayMs)
      exact exceeds_of_capped hmax hlong hpos hconfig (cappedDelay_eq_max hconfig hreached)
  | succ k ih =>
      rcases lt_or_ge ((b.currentDelayMs : ℚ) * config.multiplier) config.maxDelayMs with hless | hreached
      · obtain ⟨jitter, hdrawn, hlonger⟩ := exists_longer hv hmax hpos hconfig hless hgrow
        have hrate : 0 ≤ config.multiplier * (1 + config.jitterFactor) - 1 :=
          hv.jitter_nonneg.trans hv.jitter_le_growth
        have hcurrent : (b.currentDelayMs : ℚ) ≤ (b.nextDelay jitter).2.currentDelayMs := by
          exact_mod_cast (Nat.le_succ _).trans hlonger
        refine exceeds_of_next hdrawn (.inr (ih hconfig ?_ ?_))
        · show config.maxDelayMs ≤ b.finalDelay jitter + k
          omega
        · exact hgrow.trans_le (mul_le_mul_of_nonneg_right hcurrent hrate)
      · exact exceeds_of_capped hmax hlong hpos hconfig (cappedDelay_eq_max hconfig hreached)

/-- **Every delay of every run is within the maximum if and only if the jitter of the longest capped delay
is at most a millisecond, or the delays never grow, or no number is above the maximum.** -/
theorem withinCap_iff (hv : Valid config) : WithinCap config ↔ Tame config := by
  refine ⟨fun hwithin => ?_, withinCap_of_tame hv⟩
  by_contra hwild
  simp only [Tame, not_or, not_le] at hwild
  obtain ⟨hne, hlong, hgrow⟩ := hwild
  have hmax := hv.max_lt
  have hpos : 0 < config.jitterFactor := by
    refine hv.jitter_nonneg.lt_of_ne (fun hzero => ?_)
    rw [← hzero, mul_zero] at hlong
    exact absurd hlong (by norm_num)
  obtain ⟨calls, hok, d, hd, hlarge⟩ :=
    exceeds_of_growing (b := withConfig config) hv (by omega) hlong hpos config.maxDelayMs rfl
      (Nat.le_add_left _ _) hgrow
  exact absurd (hwithin calls hok d hd).2 (not_le.mpr hlarge)

/-- Without jitter the documented cap is kept. -/
theorem withinCap_unjittered : WithinCap ⟨100, 30000, 2, 0⟩ :=
  (withinCap_iff ⟨by decide, by decide, by decide, by decide, by norm_num, le_rfl, zero_le_one⟩).mpr
    (.inr (.inl (by norm_num)))

/-- With a jitter of ten per cent, the first delay after a second is capped to five seconds and then
a millisecond longer. -/
theorem not_withinCap_jittered : ¬ ∀ config : BackoffConfig, Valid config → WithinCap config := by
  intro hall
  have hwithin := hall ⟨1000, 5000, 10, 1 / 10⟩
    ⟨by decide, by decide, by decide, by decide, by norm_num, by norm_num, by norm_num⟩
  have hcapped : (withConfig ⟨1000, 5000, 10, 1 / 10⟩).cappedDelay = 5000 := by
    norm_num [cappedDelay, withConfig]
  have hdrawn : (withConfig ⟨1000, 5000, 10, 1 / 10⟩).Drawn (.nextDelay 1) := by
    intro _
    rw [jitterRange, hcapped]
    norm_num [withConfig]
  have hdelay : (withConfig ⟨1000, 5000, 10, 1 / 10⟩).finalDelay 1 = 5001 := by
    rw [finalDelay, hcapped]
    norm_num [withConfig, asU64]
  have hbound := (hwithin [.nextDelay 1] ⟨hdrawn, trivial⟩ 5001 (by rw [← hdelay]; exact List.mem_cons_self)).2
  exact absurd hbound (by decide)

end wild

end ExponentialBackoff

end AraNotification.Backoff
