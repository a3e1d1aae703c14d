import Mathlib.Data.List.AList

/-! # Concurrent maps and inverted indices

A concurrent hash map is modelled at its linearisation points: `DashMap κ ν` is a finite
map (`AList`, a list of entries with distinct keys), and every access of the original is
one of `lookup`, `insert`, `erase`, `modify` and `retain`.  The entry list fixes one
iteration order; no result here depends on which.

An *inverted index* files identifiers under keys.  The three updates found in practice are

* `push`: append an identifier to the list of a key, creating the list when it is absent;
* `add`: the same for a set;
* `remove`: drop an identifier from the list of a key and delete the key when nothing is
  left.  It is `discard` (the update under the entry lock) followed by `erase` (a second
  map access), so that the two halves can also be run apart.

`Files x R` says that `x` is exactly the index of the relation `R`: every list enumerates
the identifiers related to its key, without repetition, and no key has an empty list.  The
three updates keep it, with `R` changed at one pair (`Files.push`, `Files.add`,
`Files.remove`, and `Files.removeAll` for a loop over keys). -/

/-- A concurrent hash map at its linearisation points. -/
abbrev DashMap (κ ν : Type) := AList (fun _ : κ => ν)

namespace DashMap

variable {κ ν : Type} [DecidableEq κ]

/-- Number of entries. -/
def len (m : DashMap κ ν) : ℕ := m.keys.length

/-- Update the value of a key through `get_mut`; nothing happens when the key is absent. -/
def modify (m : DashMap κ ν) (k : κ) (f : ν → ν) : DashMap κ ν :=
  match m.lookup k with
  | none => m
  | some v => m.insert k (f v)

/-- Keep the entries that satisfy `f`. -/
def retain (m : DashMap κ ν) (f : ν → Bool) : DashMap κ ν :=
  ⟨m.entries.filter (fun e => f e.2), m.nodupKeys.sublist List.filter_sublist⟩

/-- The values, in iteration order. -/
def values (m : DashMap κ ν) : List ν := m.entries.map (fun e => e.2)

/-- The same keys with other values. -/
def mapValues {ν' : Type} (f : ν → ν') (m : DashMap κ ν) : DashMap κ ν' :=
  ⟨m.entries.map (fun e => ⟨e.1, f e.2⟩), by
    have hkeys : (m.entries.map (fun e => (⟨e.1, f e.2⟩ : (_ : κ) × ν'))).keys = m.entries.keys := by
      simp [List.keys]
    rw [List.NodupKeys, hkeys]
    exact m.nodupKeys⟩

theorem lookup_mapValues {ν' : Type} (f : ν → ν') (m : DashMap κ ν) (k : κ) :
    (DashMap.mapValues f m).lookup k = (m.lookup k).map f := by
  ext v
  rw [← Option.mem_def, AList.mem_lookup_iff, Option.map_eq_some_iff]
  simp only [mapValues, List.mem_map, Sigma.mk.injEq, heq_eq_eq, Sigma.exists, ← AList.mem_lookup_iff,
    Option.mem_def]
  constructor
  · rintro ⟨k, w, h, rfl, rfl⟩
    exact ⟨w, h, rfl⟩
  · rintro ⟨w, h, rfl⟩
    exact ⟨k, w, h, rfl, rfl⟩

theorem lookup_insert (m : DashMap κ ν) (k k' : κ) (v : ν) :
    (AList.insert k v m).lookup k' = if k' = k then some v else m.lookup k' := by
  split_ifs with h
  · subst h; exact AList.lookup_insert m
  · exact AList.lookup_insert_ne h

theorem lookup_erase (m : DashMap κ ν) (k k' : κ) :
    (AList.erase k m).lookup k' = if k' = k then none else m.lookup k' := by
  split_ifs with h
  · subst h; exact AList.lookup_erase _ m
  · exact AList.lookup_erase_ne h

theorem lookup_modify (m : DashMap κ ν) (k k' : κ) (f : ν → ν) :
    (DashMap.modify m k f).lookup k' = if k' = k then (m.lookup k).map f else m.lookup k' := by
  unfold modify
  cases h : m.lookup k with
  | none =>
      split_ifs with hk
      · subst hk; simp [h]
      · rfl
  | some v => simp only [lookup_insert, Option.map_some]

theorem lookup_retain (m : DashMap κ ν) (f : ν → Bool) (k : κ) :
    (DashMap.retain m f).lookup k = (m.lookup k).filter f := by
  ext v
  rw [← Option.mem_def, AList.mem_lookup_iff, Option.filter_eq_some_iff, retain, List.mem_filter,
    ← AList.mem_lookup_iff, Option.mem_def]

theorem len_insert_of_lookup_none {m : DashMap κ ν} {k : κ} (v : ν) (h : m.lookup k = none) :
    DashMap.len (AList.insert k v m) = m.len + 1 := by
  have hk : k ∉ m.keys := AList.lookup_eq_none.mp h
  simp [len, AList.keys_insert, List.erase_of_not_mem hk]

theorem len_erase_le (m : DashMap κ ν) (k : κ) : DashMap.len (AList.erase k m) ≤ m.len := by
  simpa [len, AList.keys_erase] using List.length_erase_le

theorem len_modify (m : DashMap κ ν) (k : κ) (f : ν → ν) : (DashMap.modify m k f).len = m.len := by
  unfold modify
  cases h : m.lookup k with
  | none => rfl
  | some v =>
      have hk : k ∈ m.keys := AList.mem_keys.mp (AList.lookup_isSome.mp (by simp [h]))
      have := List.length_pos_of_mem hk
      simp only [len, AList.keys_insert, List.length_cons, List.length_erase_of_mem hk]
      omega

/-- The values are what is found under the keys. -/
theorem values_eq_map_keys (m : DashMap κ ν) (d : ν) : m.values = m.keys.map (fun k => (m.lookup k).getD d) := by
  rw [values, AList.keys, List.keys, List.map_map]
  refine List.map_congr_left (fun e he => ?_)
  have hl : m.lookup e.1 = some e.2 := AList.mem_lookup_iff.mpr he
  rw [Function.comp_apply, hl, Option.getD_some]

theorem mem_values {m : DashMap κ ν} {v : ν} : v ∈ m.values ↔ ∃ k, m.lookup k = some v := by
  simp only [values, List.mem_map, Sigma.exists, ← AList.mem_lookup_iff, Option.mem_def]
  constructor
  · rintro ⟨k, w, h, rfl⟩
    exact ⟨k, h⟩
  · rintro ⟨k, h⟩
    exact ⟨k, v, h, rfl⟩

/-! ### Counting values -/

section counting
variable {f : ν → Bool}

omit [DecidableEq κ] in
theorem len_eq_countP (m : DashMap κ ν) : m.len = m.values.countP (fun _ => true) := by
  simp [len, values, AList.keys, List.keys]

theorem countP_insert {m : DashMap κ ν} {k : κ} (v : ν) (h : m.lookup k = none) :
    (DashMap.values (AList.insert k v m)).countP f = m.values.countP f + if f v then 1 else 0 := by
  have hk : k ∉ m := AList.lookup_eq_none.mp h
  rw [values, AList.entries_insert_of_notMem hk, List.map_cons, List.countP_cons, values]

theorem countP_erase_le (m : DashMap κ ν) (k : κ) :
    (DashMap.values (AList.erase k m)).countP f ≤ m.values.countP f :=
  ((List.kerase_sublist k m.entries).map _).countP_le

theorem values_insert (m : DashMap κ ν) (k : κ) (v : ν) :
    DashMap.values (AList.insert k v m) = v :: DashMap.values (AList.erase k m) := by
  rw [values, AList.entries_insert]
  rfl

/-- Removing an entry takes its value from the count. -/
theorem countP_erase {m : DashMap κ ν} {k : κ} {v : ν} (h : m.lookup k = some v) :
    (DashMap.values (AList.erase k m)).countP f + (if f v then 1 else 0) = m.values.countP f := by
  have hmem : k ∈ m.entries.keys := AList.lookup_isSome.mp (by simp [h])
  obtain ⟨w, l₁, l₂, hnot, hsplit, herase⟩ := List.exists_of_kerase hmem
  have hw : m.lookup k = some w := by
    rw [← Option.mem_def, AList.mem_lookup_iff, hsplit]
    simp
  obtain rfl : v = w := Option.some.inj (h.symm.trans hw)
  have hentries : (AList.erase k m).entries = l₁ ++ l₂ := herase
  rw [values, values, hentries, hsplit, List.countP_map, List.countP_map, List.countP_append,
    List.countP_append, List.countP_cons]
  simp only [Function.comp_def]
  omega

theorem len_erase_of_lookup_some {m : DashMap κ ν} {k : κ} {v : ν} (h : m.lookup k = some v) :
    DashMap.len (AList.erase k m) + 1 = m.len := by
  rw [len_eq_countP, len_eq_countP]
  simpa using countP_erase (f := fun _ => true) h

theorem len_insert (m : DashMap κ ν) (k : κ) (v : ν) :
    DashMap.len (AList.insert k v m) = if (m.lookup k).isSome then m.len else m.len + 1 := by
  cases h : m.lookup k with
  | none => simpa using len_insert_of_lookup_none v h
  | some w =>
      rw [len_eq_countP, values_insert, List.countP_cons, ← len_eq_countP]
      simpa using len_erase_of_lookup_some h

omit [DecidableEq κ] in
theorem countP_retain (m : DashMap κ ν) (g : ν → Bool) :
    (DashMap.values (DashMap.retain m g)).countP f = m.values.countP (fun v => f v && g v) := by
  rw [values, values, retain, List.countP_map, List.countP_map, List.countP_filter]
  rfl

omit [DecidableEq κ] in
/-- What a sweep keeps and what it drops is all there was. -/
theorem countP_retain_add (m : DashMap κ ν) (g : ν → Bool) :
    (DashMap.values (DashMap.retain m g)).countP f + m.values.countP (fun v => f v && !g v) =
      m.values.countP f := by
  rw [countP_retain]
  induction m.values with
  | nil => rfl
  | cons v l ih =>
      simp only [List.countP_cons]
      cases f v <;> cases g v <;> simp <;> omega

omit [DecidableEq κ] in
theorem len_retain_le (m : DashMap κ ν) (g : ν → Bool) : (DashMap.retain m g).len ≤ m.len := by
  rw [len_eq_countP, len_eq_countP]
  have := countP_retain_add (f := fun _ => true) m g
  omega

/-- An update that does not change whether a value is counted. -/
theorem countP_modify (m : DashMap κ ν) (k : κ) {g : ν → ν} (hg : ∀ v, f (g v) = f v) :
    (DashMap.values (DashMap.modify m k g)).countP f = m.values.countP f := by
  unfold modify
  cases hl : m.lookup k with
  | none => rfl
  | some v =>
      have hmem : k ∈ m.entries.keys := AList.lookup_isSome.mp (by simp [hl])
      obtain ⟨w, l₁, l₂, hnot, hsplit, herase⟩ := List.exists_of_kerase hmem
      have hw : w = v := by
        have hlookup : m.lookup k = some w := by
          rw [← Option.mem_def, AList.mem_lookup_iff, hsplit]
          simp
        exact Option.some.inj (hlookup.symm.trans hl)
      subst hw
      have hbefore : m.values.countP f = (l₁ ++ l₂).countP (fun e => f e.2) + if f w then 1 else 0 := by
        rw [values, hsplit, List.countP_map, List.countP_append, List.countP_cons, List.countP_append]
        simp only [Function.comp_def]
        omega
      rw [hbefore, values, AList.entries_insert, herase, List.countP_map, List.countP_cons]
      simp only [Function.comp_def, hg]

end counting

/-! ### Keys whose value has a property -/

/-- The key is present and its value satisfies `P`. -/
def Sat (m : DashMap κ ν) (P : ν → Prop) (k : κ) : Prop := ∃ v, m.lookup k = some v ∧ P v

instance (m : DashMap κ ν) (P : ν → Prop) [DecidablePred P] (k : κ) : Decidable (DashMap.Sat m P k) :=
  inferInstanceAs (Decidable (∃ v ∈ m.lookup k, P v))

section sat
variable {m : DashMap κ ν} {P : ν → Prop} {k k' : κ}

theorem sat_of_lookup {v : ν} (h : m.lookup k = some v) : DashMap.Sat m P k ↔ P v := by
  simp [Sat, h]

theorem not_sat_of_lookup_none (h : m.lookup k = none) : ¬ DashMap.Sat m P k := by
  simp [Sat, h]

theorem sat_insert {v : ν} (h : m.lookup k = none) :
    DashMap.Sat (AList.insert k v m) P k' ↔ DashMap.Sat m P k' ∨ k' = k ∧ P v := by
  unfold Sat
  rw [lookup_insert]
  by_cases hk : k' = k
  · subst hk; simp [h]
  · simp [hk]

theorem sat_erase : DashMap.Sat (AList.erase k m) P k' ↔ DashMap.Sat m P k' ∧ k' ≠ k := by
  unfold Sat
  rw [lookup_erase]
  by_cases hk : k' = k
  · simp [hk]
  · simp [hk]

theorem sat_modify {f : ν → ν} : DashMap.Sat (DashMap.modify m k f) P k' ↔
    DashMap.Sat m (fun v => if k' = k then P (f v) else P v) k' := by
  unfold Sat
  rw [lookup_modify]
  by_cases hk : k' = k
  · subst hk; simp
  · simp [hk]

theorem sat_modify_of_iff {f : ν → ν} (hf : ∀ v, P (f v) ↔ P v) :
    DashMap.Sat (DashMap.modify m k f) P k' ↔ DashMap.Sat m P k' := by
  simp [sat_modify, hf]

end sat

end DashMap

/-- Every key with the identifiers filed under it. -/
abbrev InvertedIndex (κ ι : Type) := DashMap κ (List ι)

namespace InvertedIndex

variable {κ ι : Type} [DecidableEq κ] [DecidableEq ι]

/-! ### Updates -/

/-- The identifiers filed under `k` (none when the key is absent). -/
def ids (x : InvertedIndex κ ι) (k : κ) : List ι := (x.lookup k).getD []

/-- `entry(k).or_default().push(i)`. -/
def push (x : InvertedIndex κ ι) (k : κ) (i : ι) : InvertedIndex κ ι := x.insert k (x.ids k ++ [i])

/-- `entry(k).or_default().insert(i)` on a set. -/
def add (x : InvertedIndex κ ι) (k : κ) (i : ι) : InvertedIndex κ ι :=
  x.insert k ((x.ids k).insert i)

/-- The `get_mut` block of a removal: the entry of `k`, if there is one, loses `i`. -/
def discard (x : InvertedIndex κ ι) (k : κ) (i : ι) : InvertedIndex κ ι :=
  DashMap.modify x k (fun l => l.filter (· ≠ i))

/-- The key is present with nothing filed under it: what `is_empty` finds in the block. -/
def emptied (x : InvertedIndex κ ι) (k : κ) : Bool := x.lookup k == some []

/-- Removal of `i` under `k`, with the key deleted when its list has become empty. -/
def remove (x : InvertedIndex κ ι) (k : κ) (i : ι) : InvertedIndex κ ι :=
  if (x.discard k i).emptied k then (x.discard k i).erase k else x.discard k i

omit [DecidableEq ι] in
theorem ids_push (x : InvertedIndex κ ι) (k k' : κ) (i : ι) :
    (x.push k i).ids k' = if k' = k then x.ids k ++ [i] else x.ids k' := by
  unfold push
  rw [ids, DashMap.lookup_insert]
  split_ifs <;> rfl

theorem ids_add (x : InvertedIndex κ ι) (k k' : κ) (i : ι) :
    (x.add k i).ids k' = if k' = k then (x.ids k).insert i else x.ids k' := by
  unfold add
  rw [ids, DashMap.lookup_insert]
  split_ifs <;> rfl

omit [DecidableEq ι] in
theorem ids_erase (x : InvertedIndex κ ι) (k k' : κ) :
    InvertedIndex.ids (AList.erase k x) k' = if k' = k then [] else x.ids k' := by
  rw [ids, DashMap.lookup_erase]
  split_ifs <;> rfl

theorem ids_discard (x : InvertedIndex κ ι) (k k' : κ) (i : ι) :
    (x.discard k i).ids k' = if k' = k then (x.ids k).filter (· ≠ i) else x.ids k' := by
  unfold discard
  rw [ids, DashMap.lookup_modify]
  split_ifs with h
  · unfold ids
    cases x.lookup k <;> rfl
  · rfl

theorem mem_ids_discard {x : InvertedIndex κ ι} {k k' : κ} {i j : ι} :
    j ∈ (x.discard k i).ids k' ↔ j ∈ x.ids k' ∧ ¬ (k' = k ∧ j = i) := by
  rw [ids_discard]
  split_ifs with h
  · subst h; simp
  · simp [h]

theorem emptied_iff {x : InvertedIndex κ ι} {k : κ} :
    x.emptied k = true ↔ x.lookup k = some [] := by
  simp [emptied]

theorem ids_of_emptied {x : InvertedIndex κ ι} {k : κ} (h : x.emptied k = true) :
    x.ids k = [] := by
  simp [ids, emptied_iff.mp h]

/-- Deleting an emptied key does not change what is filed. -/
theorem ids_remove (x : InvertedIndex κ ι) (k k' : κ) (i : ι) :
    (x.remove k i).ids k' = (x.discard k i).ids k' := by
  unfold remove
  split_ifs with h
  · rw [ids_erase]
    split_ifs with hk
    · subst hk; rw [ids_of_emptied h]
    · rfl
  · rfl

/-! ### The index of a relation -/

/-- `x` is the index of `R`: each list enumerates the identifiers related to its key, once
each, and no key has an empty list. -/
structure Files (x : InvertedIndex κ ι) (R : κ → ι → Prop) : Prop where
  mem_iff : ∀ k i, i ∈ x.ids k ↔ R k i
  nodup : ∀ k, (x.ids k).Nodup
  nonempty : ∀ k, x.lookup k ≠ some []

namespace Files

variable {x : InvertedIndex κ ι} {R R' : κ → ι → Prop}

omit [DecidableEq ι] in
theorem empty : Files (∅ : InvertedIndex κ ι) (fun _ _ => False) where
  mem_iff k i := by simp [ids]
  nodup k := by simp [ids]
  nonempty k := by simp

omit [DecidableEq ι] in
theorem congr (h : Files x R) (hR : ∀ k i, R k i ↔ R' k i) : Files x R' where
  mem_iff k i := (h.mem_iff k i).trans (hR k i)
  nodup := h.nodup
  nonempty := h.nonempty

omit [DecidableEq ι] in
/-- Indices that file as many identifiers under a key have lists of the same length there. -/
theorem map_length_congr {x' : InvertedIndex κ ι} (h : Files x R) (h' : Files x' R') {k : κ}
    (hk : ∀ i, R k i ↔ R' k i) : (x.lookup k).map List.length = (x'.lookup k).map List.length := by
  have hperm : (x.ids k).Perm (x'.ids k) := by
    refine (List.perm_ext_iff_of_nodup (h.nodup k) (h'.nodup k)).mpr (fun i => ?_)
    rw [h.mem_iff, h'.mem_iff, hk]
  have hempty := h.nonempty k
  have hempty' := h'.nonempty k
  unfold ids at hperm
  cases hl : x.lookup k with
  | none =>
      cases hl' : x'.lookup k with
      | none => rfl
      | some l' =>
          rw [hl, hl', Option.getD_none, Option.getD_some] at hperm
          exact absurd (hl'.trans (congrArg some hperm.symm.eq_nil)) hempty'
  | some l =>
      cases hl' : x'.lookup k with
      | none =>
          rw [hl, hl', Option.getD_none, Option.getD_some] at hperm
          exact absurd (hl.trans (congrArg some hperm.eq_nil)) hempty
      | some l' =>
          rw [hl, hl', Option.getD_some, Option.getD_some] at hperm
          exact congrArg some hperm.length_eq

omit [DecidableEq ι] in
/-- A new identifier may be pushed. -/
theorem push (h : Files x R) {k : κ} {i : ι} (hi : ¬ R k i) :
    Files (x.push k i) (fun k' i' => R k' i' ∨ k' = k ∧ i' = i) where
  mem_iff k' i' := by
    rw [ids_push]
    split_ifs with hk
    · subst hk; simp [h.mem_iff]
    · simp [h.mem_iff, hk]
  nodup k' := by
    rw [ids_push]
    split_ifs with hk
    · rw [List.nodup_append_comm]
      exact List.nodup_cons.mpr ⟨fun hm => hi ((h.mem_iff k i).mp hm), h.nodup k⟩
    · exact h.nodup k'
  nonempty k' := by
    unfold InvertedIndex.push
    rw [DashMap.lookup_insert]
    split_ifs
    · simp
    · exact h.nonempty k'

theorem add (h : Files x R) (k : κ) (i : ι) :
    Files (x.add k i) (fun k' i' => R k' i' ∨ k' = k ∧ i' = i) where
  mem_iff k' i' := by
    rw [ids_add]
    split_ifs with hk
    · subst hk; rw [List.mem_insert_iff, h.mem_iff]; simp [or_comm]
    · simp [h.mem_iff, hk]
  nodup k' := by
    rw [ids_add]
    split_ifs
    · exact (h.nodup k).insert
    · exact h.nodup k'
  nonempty k' := by
    unfold InvertedIndex.add
    rw [DashMap.lookup_insert]
    split_ifs
    · intro he
      have hm : i ∈ (x.ids k).insert i := List.mem_insert_self
      rw [Option.some.inj he] at hm
      cases hm
    · exact h.nonempty k'

theorem remove (h : Files x R) (k : κ) (i : ι) :
    Files (x.remove k i) (fun k' i' => R k' i' ∧ ¬ (k' = k ∧ i' = i)) where
  mem_iff k' i' := by rw [ids_remove, mem_ids_discard, h.mem_iff]
  nodup k' := by
    rw [ids_remove, ids_discard]
    split_ifs
    · exact (h.nodup k).filter _
    · exact h.nodup k'
  nonempty k' := by
    unfold InvertedIndex.remove
    have other : ∀ k', k' ≠ k → (x.discard k i).lookup k' ≠ some [] := by
      intro k' hk
      unfold discard
      rw [DashMap.lookup_modify, if_neg hk]
      exact h.nonempty k'
    split_ifs with he
    · rw [DashMap.lookup_erase]
      split_ifs with hk
      · simp
      · exact other k' hk
    · by_cases hk : k' = k
      · subst hk; exact fun hl => he (emptied_iff.mpr hl)
      · exact other k' hk

/-- Removing `i` under each key of a list. -/
theorem removeAll (i : ι) : ∀ (ks : List κ) {x : InvertedIndex κ ι} {R : κ → ι → Prop}, Files x R →
    Files (ks.foldl (fun y k => y.remove k i) x) (fun k' i' => R k' i' ∧ ¬ (k' ∈ ks ∧ i' = i))
  | [], _, _, h => h.congr (by simp)
  | k :: ks, _, _, h => by
      refine (removeAll i ks (h.remove k i)).congr ?_
      intro k' i'
      simp only [List.mem_cons]
      tauto

end Files

end InvertedIndex
