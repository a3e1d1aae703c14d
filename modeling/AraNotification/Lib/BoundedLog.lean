import Mathlib.Data.List.DropRight
import Mathlib.Tactic.SplitIfs

/-! # Bounded logs with entries that die

A queue of bounded size `N` is meant to hold the last `N` entries of the log of everything
that was appended to it.  When entries also die, and dead ones are cleared away now and then,
the queue holds less: `Retains N dead log stored` says that only dead entries are missing, and
only at the front.

Appending keeps this when the queue drops its first entry for being full (`Retains.push`),
and so does clearing when entries die in the order of the log (`Retains.prune`).  A reader
who skips dead entries sees the last `N` of the log, however often the queue was cleared
(`Retains.filter_live`). -/

namespace BoundedLog

variable {α : Type} {N : ℕ} {dead dead' : α → Bool} {log stored : List α}

/-- The last `N` entries of the log are stored, except for dead ones at the front. -/
def Retains (N : ℕ) (dead : α → Bool) (log stored : List α) : Prop :=
  ∃ gone, log.rtake N = gone ++ stored ∧ ∀ x ∈ gone, dead x = true

theorem length_rtake_le (N : ℕ) (log : List α) : (log.rtake N).length ≤ N := by
  rw [List.rtake, List.length_drop]
  omega

/-- The last `n` of the last `N`. -/
theorem rtake_rtake {n : ℕ} (h : n ≤ N) (log : List α) : (log.rtake N).rtake n = log.rtake n := by
  rw [List.rtake, List.rtake, List.rtake, List.length_drop, List.drop_drop]
  congr 1
  omega

theorem Retains.nil (N : ℕ) (dead : α → Bool) : Retains N dead [] [] :=
  ⟨[], by simp, fun _ h => absurd h List.not_mem_nil⟩

/-- A queue whose entries do not die holds the last entries of the log. -/
theorem retains_false_iff : Retains N (fun _ => false) log stored ↔ stored = log.rtake N := by
  constructor
  · rintro ⟨gone, heq, hgone⟩
    obtain rfl : gone = [] := List.eq_nil_iff_forall_not_mem.mpr (fun x hx => by cases hgone x hx)
    exact heq.symm
  · rintro rfl
    exact ⟨[], rfl, fun _ h => absurd h List.not_mem_nil⟩

/-- A last part of the log that has at least `N` entries, or all, is the last `M` for some
`M ≥ N`. -/
theorem exists_rtake_of_suffix (h : stored <:+ log) (hN : min N log.length ≤ stored.length) :
    ∃ M, N ≤ M ∧ stored = log.rtake M := by
  have hdrop : stored = log.drop (log.length - stored.length) := List.suffix_iff_eq_drop.mp h
  have hle : stored.length ≤ log.length := h.length_le
  refine ⟨max N stored.length, le_max_left _ _, ?_⟩
  rw [List.rtake]
  by_cases hmany : N ≤ stored.length
  · rw [max_eq_right hmany]
    exact hdrop
  · rw [show log.length - max N stored.length = log.length - stored.length by omega]
    exact hdrop

/-- More entries die. -/
theorem Retains.mono (h : Retains N dead log stored)
    (hd : ∀ x ∈ log, dead x = true → dead' x = true) : Retains N dead' log stored := by
  obtain ⟨gone, heq, hgone⟩ := h
  refine ⟨gone, heq, fun x hx => hd x ?_ (hgone x hx)⟩
  have hmem : x ∈ log.rtake N := by
    rw [heq]
    exact List.mem_append_left stored hx
  exact List.mem_of_mem_drop hmem

theorem Retains.suffix (h : Retains N dead log stored) : stored <:+ log := by
  obtain ⟨gone, heq, -⟩ := h
  have hsuffix : stored <:+ log.rtake N := ⟨gone, heq.symm⟩
  exact hsuffix.trans (List.drop_suffix _ _)

theorem Retains.length_le (h : Retains N dead log stored) : stored.length ≤ N := by
  obtain ⟨gone, heq, -⟩ := h
  have hlen := congrArg List.length heq
  have hle := length_rtake_le N log
  rw [List.length_append] at hlen
  omega

/-- Appending to a queue that drops its first entry when it is full. -/
theorem Retains.push (hN : 1 ≤ N) (h : Retains N dead log stored) (x : α) :
    Retains N dead (log ++ [x]) ((if stored.length ≥ N then stored.tail else stored) ++ [x]) := by
  obtain ⟨n, rfl⟩ : ∃ n, N = n + 1 := ⟨N - 1, by omega⟩
  obtain ⟨gone, heq, hgone⟩ := h
  have hlen := congrArg List.length heq
  have hle := length_rtake_le (n + 1) log
  rw [List.length_append] at hlen
  -- What the window was before shows what it is after losing its first place.
  have hwindow : (log ++ [x]).rtake (n + 1) = (gone ++ stored).rtake n ++ [x] := by
    rw [List.rtake_concat_succ, ← heq, rtake_rtake (Nat.le_succ n)]
  split_ifs with hfull
  · obtain rfl : gone = [] := List.length_eq_zero_iff.mp (by omega)
    refine ⟨[], ?_, hgone⟩
    rw [hwindow, List.nil_append, List.nil_append, List.rtake, show stored.length - n = 1 by omega,
      List.drop_one]
  · refine ⟨gone.drop (gone.length + stored.length - n), ?_, fun y hy => ?_⟩
    · rw [hwindow, List.rtake, List.length_append, List.drop_append_of_le_length (by omega),
        List.append_assoc]
    · exact hgone y (List.mem_of_mem_drop hy)

/-- When entries die in the order of a list, clearing the dead ones removes a first part. -/
theorem filter_eq_dropWhile {l : List α} (h : l.Pairwise (fun x y => dead y = true → dead x = true)) :
    l.filter (fun x => !dead x) = l.dropWhile dead := by
  induction l with
  | nil => rfl
  | cons x l ih =>
      rw [List.pairwise_cons] at h
      by_cases hx : dead x = true
      · rw [List.dropWhile_cons_of_pos hx, List.filter_cons_of_neg (by simp [hx]), ih h.2]
      · rw [List.dropWhile_cons_of_neg hx, List.filter_eq_self]
        intro y hy
        rcases List.mem_cons.mp hy with rfl | hy
        · simpa using hx
        · by_contra hdead
          exact hx (h.1 y hy (by simpa using hdead))

/-- Clearing the dead entries, when entries die in the order of the log. -/
theorem Retains.prune (h : Retains N dead log stored)
    (hlog : log.Pairwise (fun x y => dead y = true → dead x = true)) :
    Retains N dead log (stored.filter (fun x => !dead x)) := by
  have hstored := hlog.sublist h.suffix.sublist
  obtain ⟨gone, heq, hgone⟩ := h
  refine ⟨gone ++ stored.takeWhile dead, ?_, fun x hx => ?_⟩
  · rw [filter_eq_dropWhile hstored, List.append_assoc, List.takeWhile_append_dropWhile, heq]
  · rcases List.mem_append.mp hx with hx | hx
    · exact hgone x hx
    · exact List.mem_takeWhile_imp hx

/-- Among the entries that live, nothing of the last `N` is missing. -/
theorem Retains.filter_live (h : Retains N dead log stored) :
    stored.filter (fun x => !dead x) = (log.rtake N).filter (fun x => !dead x) := by
  obtain ⟨gone, heq, hgone⟩ := h
  have hnone : gone.filter (fun x => !dead x) = [] := by
    rw [List.filter_eq_nil_iff]
    intro x hx
    simp [hgone x hx]
  rw [heq, List.filter_append, hnone, List.nil_append]

end BoundedLog
