import AraNotification.Lib.Pacing
import AraNotification.RateLimiter

/-! # What a token bucket lets through

Calls of one bucket that do not overlap, each with the clock reading that it draws and the number
of tokens that it asks for.  The bucket keeps no record of the past but its tokens and the time of
the last successful call.  What has come in is rounded down and not credited to calls that fail,
and unsigned arithmetic wraps around; all of this only takes tokens away.

The successful calls are grants that are paced by the refill rate (`paced_of_sorted`), so that in
every interval of time they take no more than the capacity and what comes in (`consumed_le`). -/

namespace AraNotification

namespace BucketBound

open Pacing

/-- A call of `try_consume_n` with the clock reading that it draws. -/
structure Call where
  now : ℤ
  n : ℕ
deriving DecidableEq, Repr

def step (b : TokenBucket) (call : Call) : Bool × TokenBucket := b.tryConsumeN call.now call.n

/-- The successful calls of a run. -/
def successes (b : TokenBucket) (calls : List Call) : List Call :=
  ((Runs.trace step b calls).filter (·.output)).map (·.input)

/-- The tokens that calls take whose clock readings are between two times, both included. -/
def taken (s t : ℤ) (calls : List Call) : ℕ :=
  ((calls.filter (fun call => decide (s ≤ call.now ∧ call.now ≤ t))).map (·.n)).sum

/-- The tokens that the successful calls of a run take between two times. -/
def consumed (b : TokenBucket) (s t : ℤ) (calls : List Call) : ℕ := taken s t (successes b calls)

/-- A successful call as a grant. -/
def Call.grant (call : Call) : Grant ℚ := ⟨call.now, call.n⟩

section runs
variable {b : TokenBucket} {calls : List Call} {s t : ℤ}

theorem successes_snoc (b : TokenBucket) (calls : List Call) (call : Call) :
    successes b (calls ++ [call]) =
      successes b calls ++ if (step (Runs.final step b calls) call).1 then [call] else [] := by
  unfold successes
  rw [Runs.trace_snoc, List.filter_append, List.map_append]
  cases h : (step (Runs.final step b calls) call).1 <;> simp [Runs.entry, h]

theorem taken_eq_granted (s t : ℤ) (calls : List Call) :
    (taken s t calls : ℚ) = granted (s : ℚ) t (calls.map Call.grant) := by
  have hsel : ∀ call : Call, decide ((s : ℚ) ≤ call.grant.time ∧ call.grant.time ≤ t) =
      decide (s ≤ call.now ∧ call.now ≤ t) := by
    intro call
    simp [Call.grant]
  unfold taken granted total
  rw [List.filter_map, List.map_map, Nat.cast_list_sum, List.map_map]
  congr 2
  exact (List.filter_congr (fun call _ => hsel call)).symm

/-- What comes in between a time and a later one, as a rational number of tokens. -/
theorem inflow_le {last now refilled : ℤ} {rate tokens left n : ℕ} (hl : last ≤ refilled) (hn : last ≤ now)
    (hin : 1000 * (left + n) ≤ 1000 * tokens + (now - refilled).toNat * rate) :
    (left + n : ℚ) ≤ tokens + rate / 1000 * (now - last) := by
  have helapsed : ((now - refilled).toNat : ℤ) ≤ now - last := by omega
  have hproduct : ((now - refilled).toNat : ℤ) * rate ≤ (now - last) * rate :=
    mul_le_mul_of_nonneg_right helapsed (Int.natCast_nonneg rate)
  have hint : 1000 * ((left : ℤ) + n) ≤ 1000 * tokens + (now - last) * rate := by
    have hcast : 1000 * ((left : ℤ) + n) ≤ 1000 * tokens + ((now - refilled).toNat : ℤ) * rate := by
      exact_mod_cast hin
    omega
  have hrat : 1000 * ((left : ℚ) + n) ≤ 1000 * tokens + (now - last) * rate := by exact_mod_cast hint
  linarith

/-- What paced calls take in an interval. -/
theorem taken_le_of_paced {capacity rate : ℕ} {tokens last : ℚ}
    (h : Paced (capacity : ℚ) (rate / 1000) tokens last (calls.map Call.grant)) (hst : s ≤ t) :
    (taken s t calls : ℚ) ≤ capacity + rate * (t - s) / 1000 := by
  rw [taken_eq_granted]
  calc granted (s : ℚ) t (calls.map Call.grant)
      ≤ capacity + rate / 1000 * (t - s) := h.window s t (by exact_mod_cast hst)
    _ = capacity + rate * (t - s) / 1000 := by ring

/-- After calls at times that do not decrease, the successful ones are paced by the rate from the
time of the last of them on. -/
theorem paced_of_sorted (hb : b.tokens ≤ b.capacity) {start : ℤ} (hstart : start ≤ b.lastRefill)
    (hcalls : ∀ call ∈ calls, start ≤ call.now) (hsorted : calls.Pairwise (fun c c' => c.now ≤ c'.now)) :
    (Runs.final step b calls).capacity = b.capacity ∧ (Runs.final step b calls).refillRate = b.refillRate ∧
      ∃ last ≤ (Runs.final step b calls).lastRefill,
        (last = start ∨ ∃ call ∈ calls, last = call.now) ∧
        Paced (b.capacity : ℚ) (b.refillRate / 1000) (Runs.final step b calls).tokens last
          ((successes b calls).map Call.grant) := by
  induction calls using List.reverseRecOn with
  | nil =>
      refine ⟨rfl, rfl, start, hstart, .inl rfl, .start ?_ ?_ ?_⟩
      · positivity
      · exact_mod_cast hb
      · positivity
  | append_singleton calls call ih =>
      rw [List.pairwise_append] at hsorted
      obtain ⟨hcap, hrate, last, hlast, hfrom, hpaced⟩ :=
        ih (fun c hc => hcalls c (List.mem_append_left _ hc)) hsorted.1
      have hnow : last ≤ call.now := by
        rcases hfrom with rfl | ⟨c, hc, rfl⟩
        · exact hcalls call (List.mem_append_right _ List.mem_cons_self)
        · exact hsorted.2.2 c hc call List.mem_cons_self
      rw [Runs.final_snoc, successes_snoc]
      rcases (Runs.final step b calls).tryConsumeN_cases call.now call.n with
        hfail | ⟨left, htaken, hleft, hin⟩
      · -- A call that fails changes nothing.
        rw [step, hfail]
        refine ⟨hcap, hrate, last, hlast, ?_, ?_⟩
        · exact hfrom.imp_right (fun ⟨c, hc, h⟩ => ⟨c, List.mem_append_left _ hc, h⟩)
        · simpa using hpaced
      · rw [step, htaken]
        refine ⟨hcap, hrate, call.now, le_rfl, .inr ⟨call, by simp, rfl⟩, ?_⟩
        rw [if_pos rfl, List.map_append]
        rw [hrate] at hin
        rw [hcap] at hleft
        refine hpaced.grant (by exact_mod_cast hnow) (Nat.cast_nonneg _) (by exact_mod_cast hleft) ?_
          (Nat.cast_nonneg _)
        exact inflow_le hlast hnow hin

/-- **In every interval the successful calls take at most the capacity and what comes in during the
interval.** -/
theorem consumed_le (capacity refillRate : ℕ) (created : ℤ)
    (hsorted : calls.Pairwise (fun c c' => c.now ≤ c'.now)) (hst : s ≤ t) :
    (consumed (.new capacity refillRate created) s t calls : ℚ) ≤
      capacity + refillRate * (t - s) / 1000 := by
  obtain ⟨start, hstart, hcalls⟩ : ∃ start ≤ created, ∀ call ∈ calls, start ≤ call.now := by
    cases calls with
    | nil => exact ⟨created, le_rfl, fun _ hc => absurd hc List.not_mem_nil⟩
    | cons first calls =>
        refine ⟨min created first.now, min_le_left _ _, fun call hc => ?_⟩
        rcases List.mem_cons.mp hc with rfl | hc
        · exact min_le_right _ _
        · exact (min_le_right _ _).trans ((List.pairwise_cons.mp hsorted).1 call hc)
  obtain ⟨-, -, last, -, -, hpaced⟩ := paced_of_sorted (b := .new capacity refillRate created) le_rfl
    hstart hcalls hsorted
  exact taken_le_of_paced hpaced hst

/-- Three tokens at once, one refused, and another one after half a second. -/
theorem consumed_le_burst :
    (consumed (.new 3 2 0) 100 600 [⟨100, 2⟩, ⟨100, 1⟩, ⟨350, 1⟩, ⟨600, 1⟩] : ℚ) ≤
      (3 : ℕ) + (2 : ℕ) * ((600 : ℤ) - (100 : ℤ)) / 1000 :=
  consumed_le 3 2 0 (by decide) (by decide)

example : consumed (.new 3 2 0) 100 600 [⟨100, 2⟩, ⟨100, 1⟩, ⟨350, 1⟩, ⟨600, 1⟩] = 4 := by decide

end runs

end BucketBound

end AraNotification
