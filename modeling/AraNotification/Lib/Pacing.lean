import Mathlib.Algebra.Order.Field.Basic
import Mathlib.Algebra.Order.BigOperators.Group.List
import Mathlib.Tactic.Linarith
import Mathlib.Tactic.Ring

/-! # Grants paced by a rate

A supply of tokens has a capacity and is refilled at a rate.  A grant takes an amount out of it
at some time, and `log` lists the grants made so far in their order.  `Paced` relates the log to
what is left: from any time on, the amounts granted and the tokens left together are at most the
capacity and what comes in at the rate, so that no interval of time sees more granted than that
(`Paced.window`).

* `Paced.start`: a supply that is not overfull, with nothing granted;
* `Paced.grant`: a grant that takes out of what was there, what has come in since and no more
  than the capacity, at a time that is not before the one of the last grant;
* `Paced.wait`: a refill without a grant. -/

namespace Pacing

/-- An amount taken at some time. -/
structure Grant (K : Type*) where
  time : K
  amount : K

/-! ### Sums of a log -/

section sums
variable {K : Type*} [Field K] {log : List (Grant K)}

/-- The sum of what is granted at times that `sel` selects. -/
def total (sel : K → Bool) (log : List (Grant K)) : K := ((log.filter (fun g => sel g.time)).map (·.amount)).sum

theorem total_snoc (sel : K → Bool) (log : List (Grant K)) (g : Grant K) :
    total sel (log ++ [g]) = total sel log + if sel g.time then g.amount else 0 := by
  unfold total
  rw [List.filter_append]
  by_cases h : sel g.time <;> simp [h]

theorem total_eq_zero {sel : K → Bool} (h : ∀ g ∈ log, sel g.time = false) : total sel log = 0 := by
  have hnil : log.filter (fun g => sel g.time) = [] := by
    rw [List.filter_eq_nil_iff]
    intro g hg hsel
    rw [h g hg] at hsel
    exact absurd hsel Bool.false_ne_true
  rw [total, hnil, List.map_nil, List.sum_nil]

end sums

/-! ### Pacing -/

variable {K : Type*} [Field K] [LinearOrder K]

/-- What is granted between two times, both included. -/
def granted (s t : K) (log : List (Grant K)) : K := total (fun x => decide (s ≤ x ∧ x ≤ t)) log

/-- What is granted from a time on. -/
def grantedFrom (s : K) (log : List (Grant K)) : K := total (fun x => decide (s ≤ x)) log

variable {capacity rate tokens tokens' last now amount s t : K} {log : List (Grant K)}

/-- The log is paced, with `tokens` left at the time `last` of the last grant. -/
structure Paced (capacity rate tokens last : K) (log : List (Grant K)) : Prop where
  rate_nonneg : 0 ≤ rate
  tokens_le : tokens ≤ capacity
  before : ∀ g ∈ log, g.time ≤ last
  since : ∀ s ≤ last, tokens + grantedFrom s log ≤ capacity + rate * (last - s)
  window : ∀ s t, s ≤ t → granted s t log ≤ capacity + rate * (t - s)

/-- Between two times is from the first one on, when nothing is granted after the second. -/
theorem granted_eq_from (h : ∀ g ∈ log, g.time ≤ t) : granted s t log = grantedFrom s log := by
  unfold granted grantedFrom total
  congr 2
  refine List.filter_congr (fun g hg => ?_)
  simp [h g hg]

variable [IsStrictOrderedRing K]

theorem Paced.start (hrate : 0 ≤ rate) (hcap : tokens ≤ capacity) (hpos : 0 ≤ capacity) :
    Paced capacity rate tokens last [] where
  rate_nonneg := hrate
  tokens_le := hcap
  before g hg := absurd hg List.not_mem_nil
  since s hs := by
    have hin : 0 ≤ rate * (last - s) := mul_nonneg hrate (sub_nonneg.mpr hs)
    have hnil : grantedFrom s ([] : List (Grant K)) = 0 := rfl
    linarith
  window s t hst := by
    have hin : 0 ≤ rate * (t - s) := mul_nonneg hrate (sub_nonneg.mpr hst)
    have hnil : granted s t ([] : List (Grant K)) = 0 := rfl
    linarith

/-- From any time up to now on, the tokens left and the amounts are within the bound. -/
theorem Paced.since_grant (h : Paced capacity rate tokens last log)
    (hcap : tokens' + amount ≤ capacity) (hin : tokens' + amount ≤ tokens + rate * (now - last)) (hs : s ≤ now) :
    tokens' + grantedFrom s (log ++ [⟨now, amount⟩]) ≤ capacity + rate * (now - s) := by
  have hnew : grantedFrom s (log ++ [⟨now, amount⟩]) = grantedFrom s log + amount := by
    rw [grantedFrom, total_snoc, if_pos (decide_eq_true hs)]
    rfl
  rw [hnew]
  rcases le_or_gt s last with hbefore | hafter
  · have hold := h.since s hbefore
    have hsplit : rate * (now - s) = rate * (last - s) + rate * (now - last) := by ring
    linarith
  · -- Nothing has been granted since `s`, so the capacity bounds it.
    have hnone : grantedFrom s log = 0 :=
      total_eq_zero (fun g hg => decide_eq_false (not_le.mpr ((h.before g hg).trans_lt hafter)))
    have hpos : 0 ≤ rate * (now - s) := mul_nonneg h.rate_nonneg (sub_nonneg.mpr hs)
    linarith

/-- A grant that is covered keeps the pace. -/
theorem Paced.grant (h : Paced capacity rate tokens last log) (hl : last ≤ now) (hamount : 0 ≤ amount)
    (hcap : tokens' + amount ≤ capacity) (hin : tokens' + amount ≤ tokens + rate * (now - last))
    (hleft : 0 ≤ tokens') : Paced capacity rate tokens' now (log ++ [⟨now, amount⟩]) where
  rate_nonneg := h.rate_nonneg
  tokens_le := by linarith
  before g hg := by
    rcases List.mem_append.mp hg with hg | hg
    · exact (h.before g hg).trans hl
    · rw [List.mem_singleton.mp hg]
  since s hs := h.since_grant hcap hin hs
  window s t hst := by
    by_cases hnow : s ≤ now ∧ now ≤ t
    · have hbefore : ∀ g ∈ log ++ [⟨now, amount⟩], g.time ≤ t := by
        intro g hg
        rcases List.mem_append.mp hg with hg | hg
        · exact ((h.before g hg).trans hl).trans hnow.2
        · rw [List.mem_singleton.mp hg]
          exact hnow.2
      have hall := h.since_grant hcap hin hnow.1
      have hlater : rate * (now - s) ≤ rate * (t - s) :=
        mul_le_mul_of_nonneg_left (by linarith [hnow.2]) h.rate_nonneg
      rw [granted_eq_from hbefore]
      linarith
    · have hold := h.window s t hst
      rw [granted, total_snoc, if_neg (by simpa using hnow), add_zero]
      exact hold

/-- What has come in may be added without a grant. -/
theorem Paced.wait (h : Paced capacity rate tokens last log) (hl : last ≤ now) (hcap : tokens' ≤ capacity)
    (hin : tokens' ≤ tokens + rate * (now - last)) : Paced capacity rate tokens' now log where
  rate_nonneg := h.rate_nonneg
  tokens_le := hcap
  before g hg := (h.before g hg).trans hl
  since s hs := by
    rcases le_or_gt s last with hbefore | hafter
    · have hold := h.since s hbefore
      have hsplit : rate * (now - s) = rate * (last - s) + rate * (now - last) := by ring
      linarith
    · have hnone : grantedFrom s log = 0 :=
        total_eq_zero (fun g hg => decide_eq_false (not_le.mpr ((h.before g hg).trans_lt hafter)))
      have hpos : 0 ≤ rate * (now - s) := mul_nonneg h.rate_nonneg (sub_nonneg.mpr hs)
      linarith
  window := h.window

end Pacing
