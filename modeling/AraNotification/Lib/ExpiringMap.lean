import AraNotification.Lib.InvertedIndex

/-! # Maps whose entries expire

A store like Redis keeps a value under a key, possibly with a deadline, by a global clock.  An
entry whose deadline has come counts as absent, whether or not it is still in the map:
`get m now k` is what a reader sees at `now`.

* `put` writes a value with a deadline of its own (`SET ... EX`);
* `alter` changes what is there and keeps the deadline, and what it creates has none (`SADD`,
  `SREM`, `INCR`);
* `expire` gives an entry a new deadline and says whether there was one (`EXPIRE`).

All of them are described by `get` at the time of the update, and `get_of_le` says that the
passing of time only removes entries. -/

/-- A value, and the time from which on it is gone. -/
structure Expiring (ν : Type) where
  value : ν
  deadline : Option ℕ
deriving DecidableEq, Repr

/-- The deadline has not come. -/
def Expiring.alive {ν : Type} (now : ℕ) (e : Expiring ν) : Bool := e.deadline.all (fun d => decide (now < d))

abbrev ExpiringMap (κ ν : Type) := DashMap κ (Expiring ν)

namespace ExpiringMap

variable {κ ν : Type} [DecidableEq κ]

/-- The entry that a reader sees. -/
def entry (m : ExpiringMap κ ν) (now : ℕ) (k : κ) : Option (Expiring ν) := (m.lookup k).filter (·.alive now)

/-- The value that a reader sees. -/
def get (m : ExpiringMap κ ν) (now : ℕ) (k : κ) : Option ν := (m.entry now k).map (·.value)

def put (m : ExpiringMap κ ν) (k : κ) (v : ν) (deadline : Option ℕ) : ExpiringMap κ ν := m.insert k ⟨v, deadline⟩

/-- Change what is there and keep the deadline; what is made of nothing has none. -/
def alter (m : ExpiringMap κ ν) (now : ℕ) (k : κ) (f : Option ν → Option ν) : ExpiringMap κ ν :=
  match f (m.get now k) with
  | some v => m.insert k ⟨v, (m.entry now k).bind (·.deadline)⟩
  | none => AList.erase k m

/-- Give an entry a new deadline. -/
def expire (m : ExpiringMap κ ν) (now : ℕ) (k : κ) (deadline : ℕ) : Bool × ExpiringMap κ ν :=
  match m.entry now k with
  | some e => (true, m.insert k ⟨e.value, some deadline⟩)
  | none => (false, m)

variable {m : ExpiringMap κ ν} {now : ℕ} {k k' : κ}

theorem entry_of_lookup {e : Expiring ν} (h : m.lookup k = some e) (ha : e.alive now = true) :
    m.entry now k = some e := by
  rw [entry, h, Option.filter_some, if_pos ha]

theorem entry_of_lookup_eq_none (h : m.lookup k = none) : m.entry now k = none := by
  rw [entry, h]
  rfl

theorem lookup_alter (f : Option ν → ν) :
    (m.alter now k (fun v => some (f v))).lookup k' =
      if k' = k then some ⟨f (m.get now k), (m.entry now k).bind (·.deadline)⟩ else m.lookup k' := by
  rw [alter]
  exact DashMap.lookup_insert _ _ _ _

theorem entry_insert (e : Expiring ν) : ExpiringMap.entry (AList.insert k e m) now k' =
    if k' = k then (some e).filter (·.alive now) else m.entry now k' := by
  unfold entry
  rw [DashMap.lookup_insert]
  split_ifs <;> rfl

theorem entry_erase : ExpiringMap.entry (AList.erase k m) now k' = if k' = k then none else m.entry now k' := by
  unfold entry
  rw [DashMap.lookup_erase]
  split_ifs <;> rfl

theorem get_erase : ExpiringMap.get (AList.erase k m) now k' = if k' = k then none else m.get now k' := by
  unfold get
  rw [entry_erase]
  split_ifs <;> rfl

theorem get_put {v : ν} {d : ℕ} (hd : now < d) :
    (m.put k v (some d)).get now k' = if k' = k then some v else m.get now k' := by
  unfold get put
  rw [entry_insert]
  split_ifs
  · simp [Expiring.alive, hd, Option.filter]
  · rfl

theorem alive_alter (v : ν) : Expiring.alive now ⟨v, (m.entry now k).bind (·.deadline)⟩ = true := by
  cases he : m.entry now k with
  | none => rfl
  | some e =>
      rw [entry, Option.filter_eq_some_iff] at he
      exact he.2

theorem get_alter (f : Option ν → Option ν) :
    (m.alter now k f).get now k' = if k' = k then f (m.get now k) else m.get now k' := by
  rw [alter]
  cases hf : f (m.get now k) with
  | none => exact get_erase
  | some v =>
      rw [get, entry_insert, Option.filter_some, if_pos (alive_alter v)]
      split_ifs <;> rfl

theorem get_expire {d : ℕ} (hd : now < d) : (m.expire now k d).2.get now k' = m.get now k' := by
  unfold expire get
  cases he : m.entry now k with
  | none => rfl
  | some e =>
      simp only [entry_insert]
      split_ifs with hk
      · subst hk
        simp [he, Expiring.alive, hd, Option.filter]
      · rfl

theorem expire_fst (d : ℕ) : (m.expire now k d).1 = (m.get now k).isSome := by
  unfold expire get
  cases m.entry now k <;> rfl

/-- Time only removes entries. -/
theorem get_of_le {now' : ℕ} (hle : now ≤ now') {v : ν} (h : m.get now' k = some v) : m.get now k = some v := by
  obtain ⟨e, he, rfl⟩ := Option.map_eq_some_iff.mp h
  obtain ⟨hlookup, halive⟩ := Option.filter_eq_some_iff.mp he
  have hearlier : e.alive now = true := by
    unfold Expiring.alive at halive ⊢
    cases hd : e.deadline with
    | none => rfl
    | some d =>
        simp only [hd, Option.all_some, decide_eq_true_eq] at halive ⊢
        omega
  simp [get, entry, hlookup, hearlier, Option.filter]

end ExpiringMap
