import AraNotification.Lib.InvertedIndex

/-! # Maps that hold the same in different forms

Two implementations of one component often keep their entries under the same keys and differ in
how an entry is represented.  `Rel r m m'` says that `m` and `m'` have the same keys, with
values that are related by `r`.

* Updates that both make at a key keep the relation (`Rel.insert`, `Rel.erase`), and so do
  deletions of all entries that satisfy a condition, if the two conditions agree on related values
  (`Rel.retain`);
* agreeing conditions hold for the same number of values (`Rel.countP`, `Rel.len`);
* only lookups matter: maps may be replaced by others with the same lookups (`Rel.congr`), such as
  the one that `lookup_foldl_erase` describes.

A step that reads and writes the entry of one key is a function of that entry (`ActsOn`).  On two
maps that agree at the keys with a property it gives the same answer and keeps the agreement when
its key has the property (`ActsOn.agree`), and otherwise it does not touch it (`ActsOn.frame`). -/

namespace DashMap

variable {κ ν ν' : Type} [DecidableEq κ]

/-- The same keys with related values. -/
def Rel (r : ν → ν' → Prop) (m : DashMap κ ν) (m' : DashMap κ ν') : Prop :=
  ∀ k, Option.Rel r (m.lookup k) (m'.lookup k)

section counting
variable {f : ν → Bool} {g : ν' → Bool} {m : DashMap κ ν} {m' : DashMap κ ν'}

omit [DecidableEq κ] in
theorem len_retain (m : DashMap κ ν) (f : ν → Bool) : (DashMap.retain m f).len = m.values.countP f := by
  rw [len_eq_countP, countP_retain]
  simp only [Bool.true_and]

/-- Maps with the same keys have the same number of entries. -/
theorem len_congr (h : ∀ k, (m.lookup k).isSome = (m'.lookup k).isSome) : m.len = m'.len := by
  have hperm : m.keys.Perm m'.keys := by
    refine (List.perm_ext_iff_of_nodup m.keys_nodup m'.keys_nodup).mpr (fun k => ?_)
    rw [← AList.mem_keys, ← AList.mem_keys, ← AList.lookup_isSome, ← AList.lookup_isSome, h k]
  exact hperm.length_eq

theorem countP_congr (h : ∀ k, (m.lookup k).any f = (m'.lookup k).any g) :
    m.values.countP f = m'.values.countP g := by
  rw [← len_retain, ← len_retain]
  refine len_congr (fun k => ?_)
  rw [lookup_retain, lookup_retain, Option.isSome_filter, Option.isSome_filter, h k]

/-- Deleting one key after the other. -/
theorem lookup_foldl_erase (ks : List κ) (m : DashMap κ ν) (k : κ) :
    (ks.foldl (fun m k => AList.erase k m) m).lookup k = if k ∈ ks then none else m.lookup k := by
  induction ks generalizing m with
  | nil => simp
  | cons k' ks ih =>
      rw [List.foldl_cons, ih, lookup_erase]
      by_cases hk : k = k'
      · simp [hk]
      · simp [hk]

end counting

namespace Rel
variable {r : ν → ν' → Prop} {m : DashMap κ ν} {m' : DashMap κ ν'} {f : ν → Bool} {g : ν' → Bool}

/-- A key is in neither map, or has related values in both. -/
theorem lookup_cases (h : Rel r m m') (k : κ) :
    (m.lookup k = none ∧ m'.lookup k = none) ∨
      ∃ v v', m.lookup k = some v ∧ m'.lookup k = some v' ∧ r v v' := by
  have hk := h k
  generalize m.lookup k = o at hk ⊢
  generalize m'.lookup k = o' at hk ⊢
  cases hk with
  | none => exact .inl ⟨rfl, rfl⟩
  | some hv => exact .inr ⟨_, _, rfl, rfl, hv⟩

theorem rel_filter {o : Option ν} {o' : Option ν'} (h : Option.Rel r o o') (hfg : ∀ v v', r v v' → f v = g v') :
    Option.Rel r (o.filter f) (o'.filter g) := by
  cases h with
  | none => exact .none
  | some hv =>
      rw [Option.filter_some, Option.filter_some, hfg _ _ hv]
      split_ifs
      · exact .some hv
      · exact .none

theorem rel_any {o : Option ν} {o' : Option ν'} (h : Option.Rel r o o') (hfg : ∀ v v', r v v' → f v = g v') :
    o.any f = o'.any g := by
  cases h with
  | none => rfl
  | some hv => exact hfg _ _ hv

theorem empty : Rel r (∅ : DashMap κ ν) ∅ := fun _ => .none

theorem congr (h : Rel r m m') {m₁ : DashMap κ ν} {m₁' : DashMap κ ν'} (hl : ∀ k, m₁.lookup k = m.lookup k)
    (hr : ∀ k, m₁'.lookup k = m'.lookup k) : Rel r m₁ m₁' := by
  intro k
  rw [hl k, hr k]
  exact h k

theorem insert (h : Rel r m m') (k : κ) {v : ν} {v' : ν'} (hv : r v v') :
    Rel r (AList.insert k v m) (AList.insert k v' m') := by
  intro k'
  rw [lookup_insert, lookup_insert]
  split_ifs
  · exact .some hv
  · exact h k'

/-- One of the maps may keep a value that is still related. -/
theorem insert_left (h : Rel r m m') {k : κ} {v : ν} {v' : ν'} (hl : m'.lookup k = some v') (hv : r v v') :
    Rel r (AList.insert k v m) m' := by
  intro k'
  rw [lookup_insert]
  split_ifs with hk
  · rw [hk, hl]
    exact .some hv
  · exact h k'

theorem erase (h : Rel r m m') (k : κ) : Rel r (AList.erase k m) (AList.erase k m') := by
  intro k'
  rw [lookup_erase, lookup_erase]
  split_ifs
  · exact .none
  · exact h k'

theorem retain (h : Rel r m m') (hfg : ∀ v v', r v v' → f v = g v') :
    Rel r (DashMap.retain m f) (DashMap.retain m' g) := by
  intro k
  rw [lookup_retain, lookup_retain]
  exact rel_filter (h k) hfg

/-- The second map may lose the same entries key by key. -/
theorem retain_erase (h : Rel r m m') {ks : List κ} (hks : ∀ k, k ∈ ks ↔ (m.lookup k).any f = true) :
    Rel r (DashMap.retain m (fun v => !f v)) (ks.foldl (fun m k => AList.erase k m) m') := by
  intro k
  rw [lookup_retain, lookup_foldl_erase]
  obtain ⟨hl, hl'⟩ | ⟨v, v', hl, hl', hv⟩ := h.lookup_cases k
  · rw [hl, hl', ite_self]
    exact .none
  · have hk := hks k
    rw [hl, Option.any_some] at hk
    rw [hl, hl', Option.filter_some]
    cases hf : f v with
    | true =>
        rw [if_pos (hk.mpr hf)]
        exact .none
    | false =>
        rw [if_neg (fun hmem => absurd (hk.mp hmem) (by simp [hf]))]
        exact .some hv

theorem countP (h : Rel r m m') (hfg : ∀ v v', r v v' → f v = g v') : m.values.countP f = m'.values.countP g := by
  exact countP_congr (fun k => rel_any (h k) hfg)

theorem len (h : Rel r m m') : m.len = m'.len := by
  rw [len_eq_countP, len_eq_countP]
  exact h.countP (fun _ _ _ => rfl)

end Rel

/-! ### Steps on one entry -/

section entries
variable {ο : Type} {m m' : DashMap κ ν} {key : κ} {V : κ → Prop}

/-- The maps have the same entries at the keys with a property. -/
def Agree (V : κ → Prop) (m m' : DashMap κ ν) : Prop := ∀ k, V k → m.lookup k = m'.lookup k

/-- The step answers and writes as `f` does on the entry of `key`. -/
structure ActsOn (key : κ) (step : DashMap κ ν → ο × DashMap κ ν) (f : Option ν → ο × Option ν) : Prop where
  answer : ∀ m, (step m).1 = (f (m.lookup key)).1
  lookup : ∀ m k, (step m).2.lookup k = if k = key then (f (m.lookup key)).2 else m.lookup k

namespace ActsOn
variable {step : DashMap κ ν → ο × DashMap κ ν} {f : Option ν → ο × Option ν}

/-- A step that only reads. -/
theorem read (g : Option ν → ο) (h : ∀ m, step m = (g (m.lookup key), m)) :
    ActsOn key step (fun e => (g e, e)) where
  answer m := by rw [h]
  lookup m k := by
    rw [h]
    split_ifs with hk
    · rw [hk]
    · rfl

/-- Maps that agree at the key give one answer and agree as before. -/
theorem agree (h : ActsOn key step f) (hm : Agree V m m') (hkey : V key) :
    (step m).1 = (step m').1 ∧ Agree V (step m).2 (step m').2 := by
  refine ⟨?_, fun k hk => ?_⟩
  · rw [h.answer, h.answer, hm key hkey]
  · rw [h.lookup, h.lookup, hm key hkey, hm k hk]

/-- A step on a key without the property. -/
theorem frame (h : ActsOn key step f) (hm : Agree V m m') (hkey : ¬ V key) : Agree V (step m).2 m' := by
  intro k hk
  have hne : k ≠ key := fun he => hkey (he ▸ hk)
  rw [h.lookup, if_neg hne, hm k hk]

end ActsOn

/-- The values that satisfy a condition are the same up to order when their entries are. -/
theorem filter_values_perm {f : ν → Bool}
    (h : ∀ k v, f v = true → (m.lookup k = some v ↔ m'.lookup k = some v)) :
    (m.values.filter f).Perm (m'.values.filter f) := by
  have hentries : (m.entries.filter (fun e => f e.2)).Perm (m'.entries.filter (fun e => f e.2)) := by
    refine (List.perm_ext_iff_of_nodup (m.nodupKeys.nodup.filter _) (m'.nodupKeys.nodup.filter _)).mpr ?_
    rintro ⟨k, v⟩
    rw [List.mem_filter, List.mem_filter, ← AList.mem_lookup_iff, ← AList.mem_lookup_iff]
    exact and_congr_left (fun hv => h k v hv)
  have hvalues : ∀ m : DashMap κ ν, m.values.filter f = (m.entries.filter (fun e => f e.2)).map (·.2) :=
    fun m => List.filter_map
  rw [hvalues, hvalues]
  exact hentries.map _

end entries

end DashMap
