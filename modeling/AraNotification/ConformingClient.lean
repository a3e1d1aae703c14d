import AraNotification.BucketLimits
import Mathlib.Algebra.BigOperators.Intervals

/-! # Clients that keep to the limit

A client conforms to a bucket when no window of its calls has more of them than the capacity and
what the window is worth at the refill rate.  The bucket rounds down what has come in at every
call that takes a token, and starts again from the time of this call: over a window it pays for
the gaps between calls one by one.

`slack` is what the calls of a window leave of the capacity and of the gaps that they span.  The
tokens after a run of successful calls are the least slack of the windows that end with the last
of them (`least_refilled`), so that all calls are served exactly when no window has a negative one
(`served_iff_spaced`).

All clients that conform are served exactly when no fraction of a token is ever lost: the
capacity is one, the rate is a multiple of a thousand, or the bucket is full after a
millisecond (`served_iff`). -/

namespace AraNotification

namespace ConformingClient

section calls
variable (capacity refillRate : ℕ) (created : ℤ) (t : ℕ → ℤ)

/-- The bucket after `k` calls at the times `t 0`, `t 1`, … -/
def bucketAt : ℕ → TokenBucket
  | 0 => .new capacity refillRate created
  | k + 1 => ((bucketAt k).tryConsume (t k)).2

/-- The `k`-th call gets its token. -/
def Served (k : ℕ) : Prop := ((bucketAt capacity refillRate created t k).tryConsume (t k)).1 = true

instance : DecidablePred (Served capacity refillRate created t) := fun _ => inferInstanceAs (Decidable (_ = _))

/-- No value of the first `n` calls wraps around. -/
def NoWrap (n : ℕ) : Prop := ∀ k < n, (bucketAt capacity refillRate created t k).NoWrap (t k)

/-- `n` calls that keep to the limit in every window. -/
structure Conforming (n : ℕ) : Prop where
  start : ∀ k < n, created ≤ t k
  sorted : ∀ i j, i ≤ j → j < n → t i ≤ t j
  within : ∀ i j, i ≤ j → j < n → j - i + 1 ≤ capacity + refillRate * (t j - t i).toNat / 1000

/-- The tokens for the gap after the `k`-th call. -/
def gap (k : ℕ) : ℕ := refillRate * (t (k + 1) - t k).toNat / 1000

/-- `n` calls that keep to the limit in every window when each gap is rounded down. -/
def Spaced (n : ℕ) : Prop :=
  ∀ i j, i ≤ j → j < n → j - i + 1 ≤ capacity + ∑ k ∈ Finset.Ico i j, gap refillRate t k

/-- What the calls from the `i`-th to the `j`-th leave of the capacity and the gaps. -/
def slack (i j : ℕ) : ℤ := capacity + ∑ k ∈ Finset.Ico i j, (gap refillRate t k : ℤ) - (j - i + 1)

/-- `x` is the least slack of the windows that end with the `j`-th call. -/
structure Least (x : ℤ) (j : ℕ) : Prop where
  le : ∀ i ≤ j, x ≤ slack capacity refillRate t i j
  eq : ∃ i ≤ j, x = slack capacity refillRate t i j

end calls

/-! ### The tokens of a run -/

section tokens
variable {capacity refillRate : ℕ} {created : ℤ} {t : ℕ → ℤ} {n i j : ℕ}

theorem slack_self (j : ℕ) : slack capacity refillRate t j j = capacity - 1 := by
  simp [slack]

theorem slack_succ (h : i ≤ j) :
    slack capacity refillRate t i (j + 1) = slack capacity refillRate t i j + gap refillRate t j - 1 := by
  unfold slack
  rw [Finset.sum_Ico_succ_top h]
  push_cast
  ring

theorem Least.zero : Least capacity refillRate t (capacity - 1) 0 where
  le i hi := by rw [Nat.le_zero.mp hi, slack_self]
  eq := ⟨0, le_rfl, (slack_self 0).symm⟩

/-- A further call adds its gap, as far as the capacity allows, and takes one token. -/
theorem Least.next {x : ℤ} (h : Least capacity refillRate t x j) :
    Least capacity refillRate t (min (capacity : ℤ) (x + gap refillRate t j) - 1) (j + 1) where
  le i hi := by
    rcases Nat.le_succ_iff.mp hi with hi | rfl
    · have hle := h.le i hi
      rw [slack_succ hi]
      omega
    · rw [slack_self]
      omega
  eq := by
    obtain ⟨i, hi, hx⟩ := h.eq
    rcases le_total (capacity : ℤ) (x + gap refillRate t j) with hfull | hfull
    · exact ⟨j + 1, le_rfl, by rw [slack_self, min_eq_left hfull]⟩
    · exact ⟨i, Nat.le_succ_of_le hi, by rw [slack_succ hi, min_eq_right hfull, hx]⟩

theorem served_iff_refilled (k : ℕ) : Served capacity refillRate created t k ↔
    1 ≤ (bucketAt capacity refillRate created t k).refilled (t k) := by
  unfold Served TokenBucket.tryConsume TokenBucket.tryConsumeN
  split_ifs with h
  · simp only [false_iff]
    omega
  · simp only [true_iff]
    omega

/-- A call that is served takes one token and starts the refill again. -/
theorem bucketAt_succ {k : ℕ} (h : Served capacity refillRate created t k) :
    bucketAt capacity refillRate created t (k + 1) =
      { bucketAt capacity refillRate created t k with
        tokens := (bucketAt capacity refillRate created t k).refilled (t k) - 1, lastRefill := t k } := by
  have hone := (served_iff_refilled k).mp h
  rw [bucketAt, TokenBucket.tryConsume, TokenBucket.tryConsumeN, if_neg (by omega)]

theorem capacity_bucketAt (k : ℕ) : (bucketAt capacity refillRate created t k).capacity = capacity ∧
    (bucketAt capacity refillRate created t k).refillRate = refillRate := by
  induction k with
  | zero => exact ⟨rfl, rfl⟩
  | succ k ih =>
      unfold bucketAt
      rcases (bucketAt capacity refillRate created t k).tryConsume_cases (t k) with h | ⟨_, h, -⟩
      · rw [h]
        exact ih
      · rw [h]
        exact ih

/-- When the calls before are served, what a call finds is one more than the least slack. -/
theorem least_refilled {k : ℕ} (hwrap : NoWrap capacity refillRate created t (k + 1))
    (hserved : ∀ l < k, Served capacity refillRate created t l) :
    Least capacity refillRate t ((bucketAt capacity refillRate created t k).refilled (t k) - 1 : ℤ) k := by
  induction k with
  | zero =>
      have hfull : (bucketAt capacity refillRate created t 0).refilled (t 0) = capacity := by
        rw [TokenBucket.refilled_of_noWrap (hwrap 0 one_pos)]
        exact min_eq_left (Nat.le_add_right _ _)
      rw [hfull]
      exact .zero
  | succ k ih =>
      have hk := hserved k (Nat.lt_succ_self k)
      have hprev := ih (fun l hl => hwrap l (Nat.lt_succ_of_lt hl)) (fun l hl => hserved l (Nat.lt_succ_of_lt hl))
      have hone := (served_iff_refilled k).mp hk
      have hnext := hprev.next
      have hrefilled : (bucketAt capacity refillRate created t (k + 1)).refilled (t (k + 1)) =
          min capacity ((bucketAt capacity refillRate created t k).refilled (t k) - 1 + gap refillRate t k) := by
        rw [TokenBucket.refilled_of_noWrap (hwrap (k + 1) (Nat.lt_succ_self _)), bucketAt_succ hk]
        obtain ⟨hcap, hrate⟩ : (bucketAt capacity refillRate created t k).capacity = capacity ∧
            (bucketAt capacity refillRate created t k).refillRate = refillRate := capacity_bucketAt k
        simp only [TokenBucket.exactTokens, TokenBucket.earned, TokenBucket.elapsedMs, hcap, hrate, gap]
        rw [Nat.mul_comm refillRate]
      rw [hrefilled]
      have hcast : ((min capacity ((bucketAt capacity refillRate created t k).refilled (t k) - 1 +
          gap refillRate t k) : ℕ) : ℤ) = min (capacity : ℤ)
            ((bucketAt capacity refillRate created t k).refilled (t k) - 1 + gap refillRate t k) := by
        omega
      rw [hcast]
      exact hnext

theorem slack_nonneg_iff (h : i ≤ j) : 0 ≤ slack capacity refillRate t i j ↔
    j - i + 1 ≤ capacity + ∑ k ∈ Finset.Ico i j, gap refillRate t k := by
  unfold slack
  rw [← Nat.cast_sum]
  omega

/-- All calls are served when every window is within the limit, each gap rounded down. -/
theorem served_iff_spaced (hwrap : NoWrap capacity refillRate created t n) :
    (∀ k < n, Served capacity refillRate created t k) ↔ Spaced capacity refillRate t n := by
  constructor
  · intro hserved i j hij hj
    have hleast := least_refilled (fun l hl => hwrap l (by omega)) (fun l hl => hserved l (by omega)) (k := j)
    have hone := (served_iff_refilled j).mp (hserved j hj)
    have hle := hleast.le i hij
    rw [← slack_nonneg_iff hij]
    omega
  · intro hspaced k
    induction k using Nat.strong_induction_on with
    | _ k ih =>
        intro hk
        have hleast := least_refilled (fun l hl => hwrap l (by omega)) (fun l hl => ih l hl (by omega)) (k := k)
        obtain ⟨i, hi, heq⟩ := hleast.eq
        have hnonneg := (slack_nonneg_iff hi).mpr (hspaced i k hi hk)
        rw [served_iff_refilled]
        omega

end tokens

/-! ### Parameters for which nothing is lost -/

section lossless
variable {capacity refillRate : ℕ} {created : ℤ} {t : ℕ → ℤ} {n i j : ℕ}

theorem sum_gaps (hsorted : ∀ i j, i ≤ j → j < n → t i ≤ t j) (hij : i ≤ j) (hj : j < n) :
    ∑ k ∈ Finset.Ico i j, (t (k + 1) - t k).toNat = (t j - t i).toNat := by
  induction j, hij using Nat.le_induction with
  | base => simp
  | succ j hij ih =>
      have hfirst := hsorted i j hij (by omega)
      have hlast := hsorted j (j + 1) (Nat.le_succ j) hj
      rw [Finset.sum_Ico_succ_top hij, ih (by omega)]
      omega

/-- A call is made at the time of the first of the window, or there is a last time at which calls
begin to be made at its time. -/
theorem last_rise (hsorted : ∀ i j, i ≤ j → j < n → t i ≤ t j) (hij : i ≤ j) (hj : j < n) :
    t i = t j ∨ ∃ k, i ≤ k ∧ k < j ∧ t k < t (k + 1) ∧ t (k + 1) = t j := by
  induction j, hij using Nat.le_induction with
  | base => exact .inl rfl
  | succ j hij ih =>
      rcases (hsorted j (j + 1) (Nat.le_succ j) hj).lt_or_eq with hlt | heq
      · exact .inr ⟨j, hij, Nat.lt_succ_self j, hlt, rfl⟩
      · rcases ih (by omega) with hsame | ⟨k, hik, hkj, hrise, hlast⟩
        · exact .inl (hsame.trans heq)
        · exact .inr ⟨k, hik, Nat.lt_succ_of_lt hkj, hrise, hlast.trans heq⟩

/-- Whole tokens come in every millisecond. -/
theorem spaced_of_dvd (hrate : 1000 ∣ refillRate) (h : Conforming capacity refillRate created t n) :
    Spaced capacity refillRate t n := by
  obtain ⟨perMs, rfl⟩ := hrate
  have hwhole : ∀ ms : ℕ, 1000 * perMs * ms / 1000 = perMs * ms := fun ms => by
    rw [Nat.mul_assoc, Nat.mul_div_cancel_left _ (by decide)]
  intro i j hij hj
  have hwithin := h.within i j hij hj
  simp only [gap, hwhole] at hwithin ⊢
  rwa [← Finset.mul_sum, sum_gaps h.sorted hij hj]

/-- With room for one token, conforming calls are each a token apart. -/
theorem spaced_of_capacity_one (h : Conforming 1 refillRate created t n) : Spaced 1 refillRate t n := by
  intro i j hij hj
  have hgap : ∀ k ∈ Finset.Ico i j, 1 ≤ gap refillRate t k := by
    intro k hk
    obtain ⟨-, hkj⟩ := Finset.mem_Ico.mp hk
    have hwithin := h.within k (k + 1) (Nat.le_succ k) (by omega)
    unfold gap
    omega
  have hsum := Finset.card_nsmul_le_sum _ (fun k => gap refillRate t k) 1 hgap
  rw [Nat.card_Ico, smul_eq_mul, Nat.mul_one] at hsum
  omega

/-- The bucket is full after a millisecond, so only calls of one moment share a window. -/
theorem spaced_of_fast (hrate : 1000 * capacity ≤ refillRate) (h : Conforming capacity refillRate created t n) :
    Spaced capacity refillRate t n := by
  intro i j
  induction j using Nat.strong_induction_on with
  | _ j ih =>
      intro hij hj
      have hsame : ∀ k, k ≤ j → t k = t j → j - k + 1 ≤ capacity := by
        intro k hkj heq
        have hwithin := h.within k j hkj hj
        simpa [heq] using hwithin
      rcases last_rise h.sorted hij hj with heq | ⟨k, hik, hkj, hrise, hlast⟩
      · exact (hsame i hij heq).trans (Nat.le_add_right _ _)
      · have hbefore := ih k hkj hik (by omega)
        have hmoment := hsame (k + 1) hkj hlast
        have hgap : capacity ≤ gap refillRate t k := by
          have hms : 1 ≤ (t (k + 1) - t k).toNat := by omega
          rw [gap, Nat.le_div_iff_mul_le (by decide), Nat.mul_comm]
          exact hrate.trans (Nat.le_mul_of_pos_right _ hms)
        have hsum : ∑ l ∈ Finset.Ico i k, gap refillRate t l + gap refillRate t k ≤
            ∑ l ∈ Finset.Ico i j, gap refillRate t l := by
          rw [← Finset.sum_Ico_succ_top hik]
          exact Finset.sum_le_sum_of_subset (Finset.Ico_subset_Ico_right hkj)
        omega

end lossless

/-! ### Parameters for which fractions are lost -/

/-- A full bucket is emptied at once, what a pause is worth is taken after every pause, and one
token more after the last one. -/
structure Lossy (capacity refillRate : ℕ) : Prop where
  two_le : 2 ≤ capacity
  pos : 1 ≤ refillRate
  not_dvd : ¬ 1000 ∣ refillRate
  slow : refillRate < 1000 * capacity
  rate_lt : refillRate < 2 ^ 32
  capacity_lt : capacity < 2 ^ 32

section lossy
variable {capacity refillRate : ℕ} {i j k : ℕ}

/-- The length of a pause, the least that is worth more than a token. -/
def pause (refillRate : ℕ) : ℕ := 1000 / refillRate + 1

/-- The tokens that a pause is worth. -/
def worth (refillRate : ℕ) : ℕ := refillRate * pause refillRate / 1000

/-- The number of pauses before the `k`-th call. -/
def pauses (capacity refillRate k : ℕ) : ℕ :=
  if k < capacity then 0 else min 1000 ((k - capacity) / worth refillRate + 1)

/-- The time of the `k`-th call. -/
def schedule (capacity refillRate : ℕ) (k : ℕ) : ℤ := (pause refillRate * pauses capacity refillRate k : ℕ)

/-- The number of calls before the last one. -/
def beforeLast (capacity refillRate : ℕ) : ℕ := capacity + 1000 * worth refillRate

/-- A pause is worth some tokens, fewer than the capacity, and a fraction. -/
theorem Lossy.worth_bounds (h : Lossy capacity refillRate) :
    1 ≤ worth refillRate ∧ worth refillRate + 1 ≤ capacity ∧
      1000 * worth refillRate + 1 ≤ refillRate * pause refillRate ∧
      refillRate * pause refillRate ≤ 1000 + refillRate := by
  obtain ⟨htwo, hpos, hdvd, hslow, -, -⟩ := h
  have hlength : refillRate * pause refillRate = refillRate * (1000 / refillRate) + refillRate := Nat.mul_succ _ _
  unfold worth
  rcases Nat.lt_or_ge refillRate 1000 with hsmall | hlarge
  · have hdiv := Nat.div_add_mod 1000 refillRate
    have hmod := Nat.mod_lt 1000 hpos
    omega
  · have hzero : 1000 / refillRate = 0 := Nat.div_eq_of_lt (by omega)
    rw [hzero] at hlength
    omega

theorem pauses_of_lt (h : k < capacity) : pauses capacity refillRate k = 0 := if_pos h

theorem pauses_of_le (h : capacity ≤ k) :
    pauses capacity refillRate k = min 1000 ((k - capacity) / worth refillRate + 1) := if_neg (not_lt.mpr h)

theorem pauses_mono : Monotone (pauses capacity refillRate) := by
  intro i j hij
  rcases Nat.lt_or_ge i capacity with hi | hi
  · rw [pauses_of_lt hi]
    exact Nat.zero_le _
  · rw [pauses_of_le hi, pauses_of_le (hi.trans hij)]
    exact min_le_min_left _ (Nat.succ_le_succ (Nat.div_le_div_right (by omega)))

theorem Lossy.pauses_succ (h : Lossy capacity refillRate) (k : ℕ) :
    pauses capacity refillRate (k + 1) ≤ pauses capacity refillRate k + 1 := by
  obtain ⟨hworth, -⟩ := h.worth_bounds
  rcases Nat.lt_or_ge (k + 1) capacity with hk | hk
  · rw [pauses_of_lt hk]
    exact Nat.zero_le _
  · rw [pauses_of_le hk]
    rcases Nat.lt_or_ge k capacity with hk' | hk'
    · have hzero : k + 1 - capacity = 0 := by omega
      rw [hzero, Nat.zero_div]
      omega
    · rw [pauses_of_le hk']
      have hdiv : (k + 1 - capacity) / worth refillRate ≤ (k - capacity) / worth refillRate + 1 := by
        rw [← Nat.add_div_right _ hworth]
        exact Nat.div_le_div_right (by omega)
      omega

/-- Before the last call, what the pauses are worth and the capacity are enough. -/
theorem Lossy.lt_pauses (h : Lossy capacity refillRate) (hk : k < beforeLast capacity refillRate) :
    k + 1 ≤ capacity + worth refillRate * pauses capacity refillRate k := by
  obtain ⟨hworth, -⟩ := h.worth_bounds
  rcases Nat.lt_or_ge k capacity with hlt | hle
  · omega
  · have hfew : (k - capacity) / worth refillRate < 1000 := by
      rw [Nat.div_lt_iff_lt_mul hworth]
      unfold beforeLast at hk
      omega
    have hdiv := Nat.lt_mul_div_succ (k - capacity) hworth
    rw [pauses_of_le hle, min_eq_right hfew]
    omega

theorem Lossy.pauses_beforeLast (h : Lossy capacity refillRate) :
    pauses capacity refillRate (beforeLast capacity refillRate) = 1000 := by
  obtain ⟨hworth, -⟩ := h.worth_bounds
  have hdiv : (beforeLast capacity refillRate - capacity) / worth refillRate = 1000 := by
    rw [beforeLast, Nat.add_sub_cancel_left, Nat.mul_div_cancel _ hworth]
  rw [pauses_of_le (k := beforeLast capacity refillRate) (Nat.le_add_right _ _), hdiv]
  rfl

/-- All that the pauses are worth is taken. -/
theorem pauses_le (hk : capacity ≤ k) :
    capacity + worth refillRate * pauses capacity refillRate k ≤ k + worth refillRate := by
  have hmin : pauses capacity refillRate k ≤ (k - capacity) / worth refillRate + 1 := by
    rw [pauses_of_le hk]
    exact min_le_right _ _
  have hmul := Nat.mul_le_mul_left (worth refillRate) hmin
  have hdiv := Nat.mul_div_le (k - capacity) (worth refillRate)
  rw [Nat.mul_succ] at hmul
  omega

theorem schedule_sub (hij : i ≤ j) : (schedule capacity refillRate j - schedule capacity refillRate i).toNat =
    pause refillRate * (pauses capacity refillRate j - pauses capacity refillRate i) := by
  have hle : pauses capacity refillRate i ≤ pauses capacity refillRate j := pauses_mono hij
  have hmono := Nat.mul_le_mul_left (pause refillRate) hle
  rw [schedule, schedule, Nat.mul_sub]
  omega

/-- A gap is no pause or one. -/
theorem Lossy.gap_schedule (h : Lossy capacity refillRate) (k : ℕ) :
    gap refillRate (schedule capacity refillRate) k =
      worth refillRate * (pauses capacity refillRate (k + 1) - pauses capacity refillRate k) := by
  have hstep := h.pauses_succ k
  have hmono : pauses capacity refillRate k ≤ pauses capacity refillRate (k + 1) := pauses_mono (Nat.le_succ k)
  rw [gap, schedule_sub (Nat.le_succ k)]
  obtain heq | heq : pauses capacity refillRate (k + 1) - pauses capacity refillRate k = 0 ∨
      pauses capacity refillRate (k + 1) - pauses capacity refillRate k = 1 := by omega
  · rw [heq]
    simp
  · rw [heq, Nat.mul_one, Nat.mul_one, worth]

theorem Lossy.sum_gaps (h : Lossy capacity refillRate) (hij : i ≤ j) :
    ∑ k ∈ Finset.Ico i j, gap refillRate (schedule capacity refillRate) k =
      worth refillRate * (pauses capacity refillRate j - pauses capacity refillRate i) := by
  induction j, hij using Nat.le_induction with
  | base => simp
  | succ j hij ih =>
      have hfirst : pauses capacity refillRate i ≤ pauses capacity refillRate j := pauses_mono hij
      have hlast : pauses capacity refillRate j ≤ pauses capacity refillRate (j + 1) :=
        pauses_mono (Nat.le_add_right j 1)
      rw [Finset.sum_Ico_succ_top hij, ih, h.gap_schedule, ← Nat.mul_add]
      congr 1
      omega

/-- Every window before the last call is within the limit, with whole tokens for each pause. -/
theorem Lossy.window_le (h : Lossy capacity refillRate) (hij : i ≤ j) (hj : j < beforeLast capacity refillRate) :
    j - i + 1 ≤ capacity + worth refillRate * (pauses capacity refillRate j - pauses capacity refillRate i) := by
  obtain ⟨-, hcap, -⟩ := h.worth_bounds
  have hupper := h.lt_pauses hj
  rw [Nat.mul_sub]
  rcases Nat.lt_or_ge i capacity with hi | hi
  · rw [pauses_of_lt hi]
    omega
  · have hlower : capacity + worth refillRate * pauses capacity refillRate i ≤ i + worth refillRate := pauses_le hi
    omega

/-- The windows that end with the last call need the fractions of all pauses as well, or are short. -/
theorem Lossy.conforming (h : Lossy capacity refillRate) :
    Conforming capacity refillRate 0 (schedule capacity refillRate) (beforeLast capacity refillRate + 1) where
  start k _ := Int.natCast_nonneg _
  sorted i j hij _ := by
    have hmono : pauses capacity refillRate i ≤ pauses capacity refillRate j := pauses_mono hij
    exact Int.ofNat_le.mpr (Nat.mul_le_mul_left _ hmono)
  within i j hij hj := by
    obtain ⟨hworth, hcap, hfraction, -⟩ := h.worth_bounds
    rw [schedule_sub hij, ← Nat.mul_assoc]
    have hwhole : worth refillRate * (pauses capacity refillRate j - pauses capacity refillRate i) ≤
        refillRate * pause refillRate * (pauses capacity refillRate j - pauses capacity refillRate i) / 1000 := by
      rw [Nat.le_div_iff_mul_le (by decide), Nat.mul_right_comm]
      exact Nat.mul_le_mul_right _ (by omega)
    rcases Nat.lt_succ_iff_lt_or_eq.mp hj with hbefore | rfl
    · exact (h.window_le hij hbefore).trans (Nat.add_le_add_left hwhole _)
    · rw [h.pauses_beforeLast] at hwhole ⊢
      rcases Nat.lt_or_ge i capacity with hi | hi
      · have hall : refillRate * pause refillRate * (1000 - 0) / 1000 = refillRate * pause refillRate :=
          Nat.mul_div_cancel _ (by decide)
        rw [pauses_of_lt hi, hall]
        unfold beforeLast
        omega
      · have hlower : capacity + worth refillRate * pauses capacity refillRate i ≤ i + worth refillRate := pauses_le hi
        rw [Nat.mul_sub] at hwhole
        unfold beforeLast
        omega

/-- The last call needs a token more than the capacity and the whole tokens of all pauses. -/
theorem Lossy.not_spaced (h : Lossy capacity refillRate) :
    ¬ Spaced capacity refillRate (schedule capacity refillRate) (beforeLast capacity refillRate + 1) := by
  intro hspaced
  have hall := hspaced 0 (beforeLast capacity refillRate) (Nat.zero_le _) (Nat.lt_succ_self _)
  have htwo := h.two_le
  rw [h.sum_gaps (Nat.zero_le _), h.pauses_beforeLast, pauses_of_lt (by omega)] at hall
  unfold beforeLast at hall
  omega

/-- Before the last call the gaps are enough as they are rounded down. -/
theorem Lossy.spaced (h : Lossy capacity refillRate) (hk : k ≤ beforeLast capacity refillRate) :
    Spaced capacity refillRate (schedule capacity refillRate) k := by
  intro i j hij hj
  rw [h.sum_gaps hij]
  exact h.window_le hij (Nat.lt_of_lt_of_le hj hk)

theorem Lossy.noWrap_zero (h : Lossy capacity refillRate) :
    (bucketAt capacity refillRate 0 (schedule capacity refillRate) 0).NoWrap (schedule capacity refillRate 0) := by
  have hcap := h.capacity_lt
  have hstart : schedule capacity refillRate 0 = 0 := by
    have htwo := h.two_le
    rw [schedule, pauses_of_lt (by omega)]
    simp
  rw [hstart]
  refine ⟨?_, ?_, ?_⟩
  · simp [bucketAt, TokenBucket.new, TokenBucket.elapsedMs]
  · simp [bucketAt, TokenBucket.new, TokenBucket.elapsedMs, TokenBucket.earned]
  · simpa [bucketAt, TokenBucket.new, TokenBucket.elapsedMs, TokenBucket.earned] using hcap

/-- With the tokens taken before it, a call finds no more than the capacity and what the pauses are worth. -/
theorem Lossy.refilled_le (h : Lossy capacity refillRate)
    (hwrap : NoWrap capacity refillRate 0 (schedule capacity refillRate) (k + 1))
    (hserved : ∀ l < k, Served capacity refillRate 0 (schedule capacity refillRate) l) :
    (bucketAt capacity refillRate 0 (schedule capacity refillRate) k).refilled (schedule capacity refillRate k) + k ≤
      capacity + worth refillRate * pauses capacity refillRate k := by
  have htwo := h.two_le
  have hslack := (least_refilled hwrap hserved).le 0 (Nat.zero_le k)
  rw [slack, ← Nat.cast_sum, h.sum_gaps (Nat.zero_le k), pauses_of_lt (k := 0) (by omega), Nat.sub_zero] at hslack
  push_cast at hslack
  zify
  linarith

/-- The product, the quotient and the sum that are bounded for the next call. -/
theorem noWrap_of_elapsed {b : TokenBucket} {now : ℤ} {l : ℕ} (helapsed : b.elapsedMs now = l)
    (hproduct : l * b.refillRate < 2 ^ 64) (hearned : l * b.refillRate / 1000 < 2 ^ 32)
    (hsum : b.tokens + l * b.refillRate / 1000 < 2 ^ 32) : b.NoWrap now := by
  subst helapsed
  exact ⟨hproduct, hearned, hsum⟩

/-- The bucket is empty when a pause ends, so that no sum is large. -/
theorem Lossy.noWrap_succ (h : Lossy capacity refillRate)
    (hwrap : NoWrap capacity refillRate 0 (schedule capacity refillRate) (k + 1))
    (hserved : ∀ l < k + 1, Served capacity refillRate 0 (schedule capacity refillRate) l) :
    (bucketAt capacity refillRate 0 (schedule capacity refillRate) (k + 1)).NoWrap
      (schedule capacity refillRate (k + 1)) := by
  obtain ⟨-, hworth_lt, -, hproduct⟩ := h.worth_bounds
  have hrate_lt := h.rate_lt
  have hcap_lt := h.capacity_lt
  have hk := hserved k (Nat.lt_succ_self k)
  have htaken := h.refilled_le hwrap (fun l hl => hserved l (Nat.lt_succ_of_lt hl))
  have hfull := ((bucketAt capacity refillRate 0 (schedule capacity refillRate) k).refilled_le
    (schedule capacity refillRate k)).1
  obtain ⟨hcap_eq, hrate_eq⟩ :
      (bucketAt capacity refillRate 0 (schedule capacity refillRate) k).capacity = capacity ∧
        (bucketAt capacity refillRate 0 (schedule capacity refillRate) k).refillRate = refillRate :=
    capacity_bucketAt k
  have hstep := h.pauses_succ k
  rw [hcap_eq] at hfull
  rw [bucketAt_succ hk]
  obtain heq | heq : pauses capacity refillRate (k + 1) - pauses capacity refillRate k = 0 ∨
      pauses capacity refillRate (k + 1) - pauses capacity refillRate k = 1 := by omega
  · refine noWrap_of_elapsed (l := 0) ?_ ?_ ?_ ?_
    · exact (schedule_sub (Nat.le_succ k)).trans (by rw [heq, Nat.mul_zero])
    · simp
    · simp
    · simp only [Nat.zero_mul, Nat.zero_div]
      omega
  · have hpaused : capacity ≤ k + 1 := by
      by_contra hlt
      rw [pauses_of_lt (not_le.mp hlt)] at heq
      omega
    have hempty : capacity + worth refillRate * pauses capacity refillRate (k + 1) ≤ k + 1 + worth refillRate :=
      pauses_le hpaused
    have hone_more : pauses capacity refillRate (k + 1) = pauses capacity refillRate k + 1 := by omega
    have hworth : pause refillRate * refillRate / 1000 = worth refillRate := by
      rw [Nat.mul_comm, worth]
    rw [hone_more, Nat.mul_succ] at hempty
    refine noWrap_of_elapsed (l := pause refillRate) ?_ ?_ ?_ ?_
    · exact (schedule_sub (Nat.le_succ k)).trans (by rw [heq, Nat.mul_one])
    · simp only [hrate_eq]
      rw [Nat.mul_comm]
      omega
    · simp only [hrate_eq, hworth]
      omega
    · simp only [hrate_eq, hworth]
      omega

theorem Lossy.noWrap (h : Lossy capacity refillRate) :
    NoWrap capacity refillRate 0 (schedule capacity refillRate) (beforeLast capacity refillRate + 1) := by
  intro k
  induction k using Nat.strong_induction_on with
  | _ k ih =>
      intro hk
      have hwrap : NoWrap capacity refillRate 0 (schedule capacity refillRate) k :=
        fun l hl => ih l hl (by omega)
      cases k with
      | zero => exact h.noWrap_zero
      | succ k => exact h.noWrap_succ hwrap ((served_iff_spaced hwrap).mpr (h.spaced (by omega)))

end lossy

/-! ### Who is served -/

section clients
variable {capacity refillRate : ℕ}

/-- **All conforming clients are served if and only if the capacity is one, the rate is a multiple of a
thousand or the bucket is full after a millisecond; and the calls of one client are all served if and
only if they keep to the limit with every gap rounded down.** -/
theorem served_iff (hcap : 1 ≤ capacity) (hrate : 1 ≤ refillRate) (hcap' : capacity < 2 ^ 32)
    (hrate' : refillRate < 2 ^ 32) :
    ((∀ created t n, Conforming capacity refillRate created t n → NoWrap capacity refillRate created t n →
        ∀ k < n, Served capacity refillRate created t k) ↔
      capacity = 1 ∨ 1000 ∣ refillRate ∨ 1000 * capacity ≤ refillRate) ∧
    ∀ created t n, NoWrap capacity refillRate created t n →
      ((∀ k < n, Served capacity refillRate created t k) ↔ Spaced capacity refillRate t n) := by
  refine ⟨⟨?_, ?_⟩, fun _ _ _ hwrap => served_iff_spaced hwrap⟩
  · intro hall
    by_contra hlossy
    simp only [not_or] at hlossy
    obtain ⟨htwo, hdvd, hslow⟩ := hlossy
    have h : Lossy capacity refillRate := ⟨by omega, hrate, hdvd, by omega, hrate', hcap'⟩
    exact h.not_spaced ((served_iff_spaced h.noWrap).mp (hall _ _ _ h.conforming h.noWrap))
  · intro hlossless created t n hconforming hwrap
    refine (served_iff_spaced hwrap).mpr ?_
    rcases hlossless with rfl | hdvd | hfast
    · exact spaced_of_capacity_one hconforming
    · exact spaced_of_dvd hdvd hconforming
    · exact spaced_of_fast hfast hconforming

/-- With two tokens and two thousand a second, a call is served two milliseconds after two others. -/
theorem served_third : Served 2 2000 0 (fun k => k) 2 := by
  have hspaced : Spaced 2 2000 (fun k => k) 3 := by
    intro i j hij hj
    interval_cases j <;> interval_cases i <;> decide
  exact (((served_iff (by decide) (by decide) (by decide) (by decide)).2 0 (fun k => k) 3
    (by unfold NoWrap; decide)).mpr hspaced) 2 (by decide)

/-- Two calls, one after a second and a half and one after two seconds. -/
def fourCalls (k : ℕ) : ℤ := if k < 2 then 0 else if k = 2 then 1500 else 2000

/-- With two tokens and one a second, the fourth of these calls is refused: the half second
before the third one is lost. -/
theorem fourth_refused :
    ¬ ∀ capacity refillRate : ℕ, 1 ≤ capacity → 1 ≤ refillRate → capacity < 2 ^ 32 → refillRate < 2 ^ 32 →
      ∀ (created : ℤ) (t : ℕ → ℤ) (n : ℕ), Conforming capacity refillRate created t n →
        NoWrap capacity refillRate created t n → ∀ k < n, Served capacity refillRate created t k := by
  intro hall
  have hconforming : Conforming 2 1 0 fourCalls 4 := by
    refine ⟨by decide, fun i j hij hj => ?_, fun i j hij hj => ?_⟩
    · interval_cases j <;> interval_cases i <;> decide
    · interval_cases j <;> interval_cases i <;> decide
  have hserved := hall 2 1 (by decide) (by decide) (by decide) (by decide) 0 fourCalls 4 hconforming
    (by unfold NoWrap; decide) 3 (by decide)
  exact absurd hserved (by decide)

end clients

end ConformingClient

end AraNotification
