import Mathlib.Algebra.BigOperators.Group.Finset.Basic
import Mathlib.Algebra.Order.Ring.Nat
import Mathlib.Data.List.Sort

/-! # Ordering, grouping and joining the rows of a query

The parts of an SQL query that go beyond a filter, for rows in any order: `orderBy` sorts them by a
value, `groupCounts` counts them by a key, and `leftJoin` pairs every row with the entries of
another table that are filed under its key.

`orderBy_eq_of_perm` says that rows with different values can be ordered in one way only, and
`leftJoin_groupCounts` that the join with the counts gives every row the size of its group.  The
other lemmas (`sum_count`, `length_eq_dedup`, `foldl_max_eq`) compare what a query adds up over rows
with what is added up over the keys of a map. -/

namespace Grouping

variable {α β κ τ : Type} [DecidableEq κ]

/-- `ORDER BY`; rows with the same value stay as they come. -/
def orderBy [LinearOrder τ] (f : α → τ) (rows : List α) : List α :=
  rows.mergeSort (fun x y => decide (f x ≤ f y))

/-- `COUNT(*)` by group. -/
def groupCounts (key : α → κ) (rows : List α) : List (κ × ℕ) :=
  (rows.map key).dedup.map (fun k => (k, (rows.map key).count k))

/-- The entries of a table under a key. -/
def entriesFor (table : List (κ × β)) (k : κ) : List β :=
  (table.filter (fun entry => decide (entry.1 = k))).map Prod.snd

/-- A row joined with its entries, or alone when it has none. -/
def joinRow (key : α → κ) (table : List (κ × β)) (r : α) : List (α × Option β) :=
  let found := entriesFor table (key r)
  if found.isEmpty then [(r, none)] else found.map (fun b => (r, some b))

/-- `LEFT JOIN` with a table. -/
def leftJoin (key : α → κ) (rows : List α) (table : List (κ × β)) : List (α × Option β) :=
  rows.flatMap (joinRow key table)

/-- Rows that are in order, with different values, are the only ordering of their rows. -/
theorem orderBy_eq_of_perm [LinearOrder τ] {f : α → τ} {rows sorted : List α} (hperm : rows.Perm sorted)
    (hsorted : sorted.Pairwise (fun x y => f x < f y)) : orderBy f rows = sorted := by
  have horder : (orderBy f rows).Pairwise (fun x y => f x ≤ f y) := by
    have htrans : ∀ x y z : α, decide (f x ≤ f y) → decide (f y ≤ f z) → decide (f x ≤ f z) := by
      simpa using fun x y z hxy hyz => le_trans hxy hyz
    have htotal : ∀ x y : α, decide (f x ≤ f y) || decide (f y ≤ f x) := by
      simpa using fun x y => le_total (f x) (f y)
    exact (List.pairwise_mergeSort htrans htotal rows).imp of_decide_eq_true
  have hsame : (orderBy f rows).Perm sorted := (List.mergeSort_perm rows _).trans hperm
  have hvalues : (sorted.map f).Nodup := List.pairwise_map.mpr (hsorted.imp ne_of_lt)
  refine hsame.eq_of_pairwise (fun x y hx hy hxy hyx => ?_) horder (hsorted.imp le_of_lt)
  exact List.inj_on_of_nodup_map hvalues (hsame.subset hx) hy (le_antisymm hxy hyx)

theorem fst_of_mem_joinRow {key : α → κ} {table : List (κ × β)} {r : α} {x : α × Option β}
    (h : x ∈ joinRow key table r) : x.1 = r := by
  unfold joinRow at h
  dsimp only at h
  split_ifs at h
  · rw [List.mem_singleton.mp h]
  · obtain ⟨b, -, rfl⟩ := List.mem_map.mp h
    rfl

theorem filter_joinRow (key : α → κ) (table : List (κ × β)) (p : α → Bool) (r : α) :
    (joinRow key table r).filter (fun x => p x.1) = if p r then joinRow key table r else [] := by
  split_ifs with hr
  · exact List.filter_eq_self.mpr (fun x hx => by rw [fst_of_mem_joinRow hx, hr])
  · exact List.filter_eq_nil_iff.mpr (fun x hx => by rwa [fst_of_mem_joinRow hx])

/-- A condition on the rows can be checked before the join. -/
theorem filter_leftJoin (key : α → κ) (p : α → Bool) (rows : List α) (table : List (κ × β)) :
    (leftJoin key rows table).filter (fun x => p x.1) = leftJoin key (rows.filter p) table := by
  induction rows with
  | nil => rfl
  | cons r rows ih =>
      unfold leftJoin at ih ⊢
      rw [List.flatMap_cons, List.filter_append, filter_joinRow, ih, List.filter_cons]
      split_ifs
      · rw [List.flatMap_cons]
      · rw [List.nil_append]

theorem entriesFor_groupCounts {key : α → κ} {rows : List α} {r : α} (hr : r ∈ rows) :
    entriesFor (groupCounts key rows) (key r) = [(rows.map key).count (key r)] := by
  have hmem : key r ∈ (rows.map key).dedup := List.mem_dedup.mpr (List.mem_map_of_mem hr)
  have hfilter : (rows.map key).dedup.filter (fun k => decide (k = key r)) = [key r] := by
    rw [List.filter_eq, (List.nodup_dedup _).count, if_pos hmem, List.replicate_one]
  rw [entriesFor, groupCounts, List.filter_map]
  simp only [Function.comp_def, hfilter, List.map_cons, List.map_nil]

/-- Joined with the counts, every row comes once and with the size of its group. -/
theorem leftJoin_groupCounts (key : α → κ) (rows : List α) :
    leftJoin key rows (groupCounts key rows) = rows.map (fun r => (r, some ((rows.map key).count (key r)))) := by
  rw [leftJoin, List.map_eq_flatMap]
  refine List.flatMap_congr (fun r hr => ?_)
  rw [joinRow, entriesFor_groupCounts hr]
  rfl

section keys
variable {keys ks : List κ}

/-- One more row adds one to the count of its key. -/
theorem sum_count_cons (k : κ) :
    (keys.map (fun k' => (k :: ks).count k')).sum = (keys.map (fun k' => ks.count k')).sum + keys.count k := by
  induction keys with
  | nil => rfl
  | cons k' keys ih =>
      have hcomm : (k == k') = (k' == k) := Bool.eq_iff_iff.mpr (by rw [beq_iff_eq, beq_iff_eq]; exact eq_comm)
      rw [List.map_cons, List.sum_cons, ih, List.map_cons, List.sum_cons, List.count_cons, List.count_cons, hcomm]
      omega

/-- Counts over keys without repetition add up to all rows. -/
theorem sum_count (hnodup : keys.Nodup) (h : ∀ k ∈ ks, k ∈ keys) :
    (keys.map (fun k => ks.count k)).sum = ks.length := by
  induction ks with
  | nil => simp
  | cons k ks ih =>
      rw [sum_count_cons, ih (fun k' hk' => h k' (List.mem_cons_of_mem k hk')),
        List.count_eq_one_of_mem hnodup (h k List.mem_cons_self), List.length_cons]

/-- Keys without repetition are as many as there are different keys of rows. -/
theorem length_eq_dedup (hnodup : keys.Nodup) (h : ∀ k, k ∈ keys ↔ k ∈ ks) : keys.length = ks.dedup.length := by
  refine ((List.perm_ext_iff_of_nodup hnodup (List.nodup_dedup ks)).mpr (fun k => ?_)).length_eq
  rw [h, List.mem_dedup]

end keys

/-- A maximum is at most a number if all its parts are. -/
theorem foldl_max_le {l : List ℕ} {a b : ℕ} : l.foldl max a ≤ b ↔ a ≤ b ∧ ∀ x ∈ l, x ≤ b := by
  induction l generalizing a with
  | nil => simp
  | cons x l ih =>
      rw [List.foldl_cons, ih, max_le_iff, List.forall_mem_cons, and_assoc]

/-- A maximum depends on the members only. -/
theorem foldl_max_eq {l l' : List ℕ} (h : ∀ x, x ∈ l ↔ x ∈ l') : l.foldl max 0 = l'.foldl max 0 := by
  refine le_antisymm (foldl_max_le.mpr ⟨Nat.zero_le _, fun x hx => ?_⟩)
    (foldl_max_le.mpr ⟨Nat.zero_le _, fun x hx => ?_⟩)
  · exact (foldl_max_le.mp le_rfl).2 x ((h x).mp hx)
  · exact (foldl_max_le.mp le_rfl).2 x ((h x).mpr hx)

/-- `COALESCE(MAX(..), 0)`. -/
theorem max?_getD (l : List ℕ) : l.max?.getD 0 = l.foldl max 0 := by
  cases l with
  | nil => rfl
  | cons x l => rw [List.max?_cons', Option.getD_some, List.foldl_cons, Nat.zero_max]

end Grouping
