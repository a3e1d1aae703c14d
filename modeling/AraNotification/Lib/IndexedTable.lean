import Mathlib.Combinatorics.Enumerative.DoubleCounting
import AraNotification.Lib.InvertedIndex

/-! # Secondary indices of a table

A table is a finite set of rows.  Every row has a name, which is its own, and the keys under which
a secondary index files it: one key in the index of a column, any number of them in the index of a
column of sets.  `Indexes x T name keys` says that `x` files the names of the rows of `T` in this
way.

Everything that is read off an index can then be said of the table: the rows under a key
(`rows_ids`, `length_ids`), the keys in use (`toFinset_keys`, `len_eq`), the entry of a key
(`lookup_length`), and all entries together (`sum_length`, which counts pairs of a row and a key
in two ways). -/

namespace InvertedIndex

variable {κ ι ρ : Type} [DecidableEq κ] [DecidableEq ι]

/-- The index files every row of the table under its keys. -/
def Indexes (x : InvertedIndex κ ι) (T : Finset ρ) (name : ρ → ι) (keys : ρ → Finset κ) : Prop :=
  x.Files (fun k i => ∃ r ∈ T, k ∈ keys r ∧ name r = i)

namespace Indexes
variable {x : InvertedIndex κ ι} {T : Finset ρ} {name : ρ → ι} {keys : ρ → Finset κ}

theorem rows_ids (h : x.Indexes T name keys) (k : κ) :
    (x.ids k).toFinset = (T.filter (fun r => k ∈ keys r)).image name := by
  ext i
  rw [List.mem_toFinset, h.mem_iff]
  simp [and_assoc]

theorem length_ids (h : x.Indexes T name keys) (hname : Set.InjOn name T) (k : κ) :
    (x.ids k).length = (T.filter (fun r => k ∈ keys r)).card := by
  rw [← List.toFinset_card_of_nodup (h.nodup k), h.rows_ids,
    Finset.card_image_of_injOn (hname.mono (Finset.coe_subset.mpr (Finset.filter_subset _ _)))]

omit [DecidableEq ι] in
theorem mem_keys_iff (h : x.Indexes T name keys) (k : κ) : k ∈ x.keys ↔ ∃ r ∈ T, k ∈ keys r := by
  rw [← AList.mem_keys, ← AList.lookup_isSome, Option.isSome_iff_exists]
  constructor
  · rintro ⟨ids, hl⟩
    cases ids with
    | nil => exact absurd hl (h.nonempty k)
    | cons i ids =>
        have hi : i ∈ x.ids k := by
          rw [InvertedIndex.ids, hl]
          exact List.mem_cons_self
        obtain ⟨r, hr, hk, -⟩ := (h.mem_iff k i).mp hi
        exact ⟨r, hr, hk⟩
  · rintro ⟨r, hr, hk⟩
    have hi := (h.mem_iff k (name r)).mpr ⟨r, hr, hk, rfl⟩
    cases hl : x.lookup k with
    | none =>
        rw [InvertedIndex.ids, hl] at hi
        exact absurd hi List.not_mem_nil
    | some ids => exact ⟨ids, rfl⟩

omit [DecidableEq ι] in
theorem toFinset_keys (h : x.Indexes T name keys) : x.keys.toFinset = T.biUnion keys := by
  ext k
  rw [List.mem_toFinset, h.mem_keys_iff, Finset.mem_biUnion]

omit [DecidableEq ι] in
theorem len_eq (h : x.Indexes T name keys) : DashMap.len x = (T.biUnion keys).card := by
  rw [DashMap.len, ← List.toFinset_card_of_nodup x.keys_nodup, h.toFinset_keys]

/-- The entry of a key has a name for each of its rows, and there is none for a key without rows. -/
theorem lookup_length (h : x.Indexes T name keys) (hname : Set.InjOn name T) (k : κ) :
    (x.lookup k).map List.length =
      if k ∈ T.biUnion keys then some (T.filter (fun r => k ∈ keys r)).card else none := by
  have hkey := h.mem_keys_iff k
  rw [← Finset.mem_biUnion, ← AList.mem_keys, ← AList.lookup_isSome] at hkey
  have hlength := h.length_ids hname k
  rw [InvertedIndex.ids] at hlength
  cases hl : x.lookup k with
  | none =>
      rw [hl] at hkey
      rw [if_neg (fun hk => by simpa using hkey.mpr hk)]
      rfl
  | some ids =>
      rw [hl] at hkey hlength
      rw [if_pos (hkey.mp rfl)]
      exact congrArg some hlength

/-- Adding up the entries of an index adds up the keys of the rows. -/
theorem sum_length (h : x.Indexes T name keys) (hname : Set.InjOn name T) :
    ((DashMap.values x).map List.length).sum = ∑ r ∈ T, (keys r).card := by
  have hkeys : (DashMap.values x).map List.length = x.keys.map (fun k => (x.ids k).length) := by
    rw [DashMap.values_eq_map_keys x [], List.map_map]
    rfl
  have hrows : ∀ r ∈ T, (T.biUnion keys).filter (fun k => k ∈ keys r) = keys r := by
    intro r hr
    ext k
    rw [Finset.mem_filter, Finset.mem_biUnion]
    exact ⟨fun hk => hk.2, fun hk => ⟨⟨r, hr, hk⟩, hk⟩⟩
  calc ((DashMap.values x).map List.length).sum
      = ∑ k ∈ x.keys.toFinset, (x.ids k).length := by
        rw [hkeys, List.sum_toFinset _ x.keys_nodup]
    _ = ∑ k ∈ T.biUnion keys, (T.filter (fun r => k ∈ keys r)).card := by
        rw [h.toFinset_keys]
        exact Finset.sum_congr rfl (fun k _ => h.length_ids hname k)
    _ = ∑ r ∈ T, ((T.biUnion keys).filter (fun k => k ∈ keys r)).card :=
        (Finset.sum_card_bipartiteAbove_eq_sum_card_bipartiteBelow (fun r k => k ∈ keys r)).symm
    _ = ∑ r ∈ T, (keys r).card := Finset.sum_congr rfl (fun r hr => by rw [hrows r hr])

end Indexes

end InvertedIndex
