import Mathlib.Algebra.BigOperators.Group.List.Basic
import Mathlib.Algebra.Order.BigOperators.Group.List
import Mathlib.Algebra.Order.Ring.Nat
import Mathlib.Data.List.Perm.Subperm

/-! # Lists that enumerate a set with repetitions

A scan that guarantees to return every element at least once yields a list `R` with the same
elements as a list `D` without repetitions, and perhaps more copies.  What is computed from `R`
agrees with what is meant, the same from `D`, exactly when no element that counts is repeated:

* `filterMap_perm_iff` for a list of results;
* `sum_repeats_eq_zero_iff` for a sum of weights, which `sum_eq_add_repeats` splits. -/

namespace Enumeration

variable {α β : Type} [DecidableEq α] {R D : List α}

/-- The same elements. -/
def Enumerates (R D : List α) : Prop := ∀ a, a ∈ R ↔ a ∈ D

/-- The copies that are too many. -/
def repeats (R D : List α) : List α := R.diff D

theorem Enumerates.perm (h : Enumerates R D) (hD : D.Nodup) : R.Perm (D ++ repeats R D) := by
  have hsub : D.Subperm R := List.subperm_of_subset hD (fun a ha => (h a).mpr ha)
  exact (List.subperm_append_diff_self_of_count_le (List.subperm_ext_iff.mp hsub)).symm

theorem Enumerates.mem_of_mem_repeats (h : Enumerates R D) {a : α} (ha : a ∈ repeats R D) : a ∈ D :=
  (h a).mp (List.diff_subset R D ha)

/-- An element is repeated when one of its copies is too many. -/
theorem Enumerates.nodup_filter_iff (h : Enumerates R D) (hD : D.Nodup) (p : α → Bool) :
    (R.filter p).Nodup ↔ ∀ a ∈ repeats R D, p a = false := by
  rw [((h.perm hD).filter p).nodup_iff, List.filter_append]
  constructor
  · intro hnodup a ha
    by_contra hp
    have hpa : p a = true := Bool.eq_true_of_not_eq_false hp
    have hdistinct := (List.nodup_append.mp hnodup).2.2
    exact hdistinct a (List.mem_filter.mpr ⟨h.mem_of_mem_repeats ha, hpa⟩) a
      (List.mem_filter.mpr ⟨ha, hpa⟩) rfl
  · intro hnone
    have hnil : (repeats R D).filter p = [] :=
      List.filter_eq_nil_iff.mpr (fun a ha => by simp [hnone a ha])
    rw [hnil, List.append_nil]
    exact hD.filter p

/-- The results are those that are meant exactly when no element with a result is repeated. -/
theorem filterMap_perm_iff (h : Enumerates R D) (hD : D.Nodup) (f : α → Option β) :
    (R.filterMap f).Perm (D.filterMap f) ↔ (R.filter (fun a => (f a).isSome)).Nodup := by
  rw [h.nodup_filter_iff hD]
  have hall := (h.perm hD).filterMap f
  rw [List.filterMap_append] at hall
  constructor
  · intro hmeant a ha
    have hlen := (hmeant.symm.trans hall).length_eq
    rw [List.length_append] at hlen
    have hnil : (repeats R D).filterMap f = [] := List.length_eq_zero_iff.mp (by omega)
    have hnone := List.filterMap_eq_nil_iff.mp hnil a ha
    simp [hnone]
  · intro hnone
    have hnil : (repeats R D).filterMap f = [] :=
      List.filterMap_eq_nil_iff.mpr (fun a ha => by simpa using hnone a ha)
    rwa [hnil, List.append_nil] at hall

/-- What a sum has too much is what the repeats add. -/
theorem sum_eq_add_repeats (h : Enumerates R D) (hD : D.Nodup) (w : α → ℕ) :
    (R.map w).sum = (D.map w).sum + ((repeats R D).map w).sum := by
  rw [((h.perm hD).map w).sum_eq, List.map_append, List.sum_append]

/-- The repeats add nothing exactly when no element with a weight is repeated. -/
theorem sum_repeats_eq_zero_iff (h : Enumerates R D) (hD : D.Nodup) (w : α → ℕ) :
    ((repeats R D).map w).sum = 0 ↔ (R.filter (fun a => decide (0 < w a))).Nodup := by
  rw [h.nodup_filter_iff hD, List.sum_eq_zero_iff]
  simp

end Enumeration
