import AraNotification.AckBackends
import AraNotification.Lib.Interleaving

/-! # Concurrent calls of the Redis tracker

Any number of service instances work on the keys of one prefix.  Every Redis command is a
step; it may fail and then has no effect.  A hash whose time to live has run out is seen by no
command.

`acknowledge` reads the hash and deletes it in a second command, `cleanup_expired` reads the
sorted set and deletes one hash after the other, and neither looks at whether its `DEL` has
found anything.  So one notification can be counted twice (`acknowledged_twice`): by two
acknowledgements that both read the hash, by one whose `DEL` fails, by a clean-up that deletes
what an acknowledgement has read or what is no longer there.  And a track is counted by its
last command, after its notification can be acknowledged.

In runs without these (`Orderly`) a notification is acknowledged and expired together no more
often than it was tracked, and the counters say so, unless an `HINCRBY` has failed
(`settled_once`). -/

namespace AraNotification

namespace RedisAckRace

open Interleaving

/-! ### The programs -/

/-- The keys in Redis, and what has been observed: the notifications stored by tracks, those that
acknowledgements and clean-ups have decided to count, those counted as tracked (or not, when
the `HINCRBY` failed) and as acknowledged or expired, and whether an `HINCRBY` has failed. -/
structure Shared where
  store : AckStore
  stored : List Uuid
  acked : List Uuid
  expired : List Uuid
  reported : List Uuid
  counted : List Uuid
  failed : Bool

/-- The calls. -/
inductive Call where
  | track (n : Uuid) (u : String) (conn : Uuid)
  | acknowledge (n : Uuid) (u : String)
  | cleanupExpired

/-- Program counters, named after the command that comes next: four of a track, five of an
acknowledgement, four of a clean-up, which carries what it has still to delete and what it has
deleted. -/
inductive Pc where
  | hset (n : Uuid) (u : String) (conn : Uuid)
  | expire (n : Uuid) (sent : DateTime)
  | zadd (n : Uuid) (sent : DateTime)
  | countTracked (n : Uuid)
  | hget (n : Uuid) (u : String)
  | ackDel (n : Uuid) (latencyMs : ℕ)
  | ackZrem (n : Uuid) (latencyMs : ℕ)
  | countAcked (n : Uuid) (latencyMs : ℕ)
  | countLatency (latencyMs : ℕ)
  | zrange
  | cleanDel (n : Uuid) (todo cleaned : List Uuid)
  | cleanZrem (n : Uuid) (todo cleaned : List Uuid)
  | countExpired (cleaned : List Uuid)

def start : Call → Pc
  | .track n u conn => .hset n u conn
  | .acknowledge n u => .hget n u
  | .cleanupExpired => .zrange

/-- The clock reading of a step, whether its command fails, and the order in which members of
the sorted set are returned. -/
structure Input where
  now : DateTime
  fails : Bool
  order : List Uuid

/-- The members of a result, in the order of the environment. -/
def arrange (inp : Input) (ids : List Uuid) : List Uuid := if inp.order.Perm ids then inp.order else ids

/-- The next notification of a clean-up, or the end of its loop. -/
def sweep (cleaned : List Uuid) : List Uuid → Option Pc
  | n :: todo => some (.cleanDel n todo cleaned)
  | [] => if cleaned = [] then none else some (.countExpired cleaned)

section programs
variable (b : RedisAckBackend) (inp : Input) (s : Shared)

/-- Change the store. -/
def Shared.set (s : Shared) (store : AckStore) : Shared := { s with store := store }

/-- One command; a disabled backend returns at once. -/
def access : Pc → Shared × Option Pc
  | .hset n u conn =>
      if b.config.enabled = false ∨ inp.fails = true then (s, none)
      else
        ({ s with store := s.store.hset n ⟨n, u, conn, inp.now⟩ inp.now, stored := s.stored ++ [n] },
          some (.expire n inp.now))
  | .expire n sent =>
      (if inp.fails then s else s.set (s.store.expire n b.ttl inp.now), some (.zadd n sent))
  | .zadd n sent =>
      (if inp.fails then s else s.set (s.store.zadd n (b.expiryTimestamp sent)), some (.countTracked n))
  | .countTracked n =>
      let s' := { s with reported := s.reported ++ [n] }
      (if inp.fails then { s' with failed := true } else s'.set (s.store.hincrby 1 0 0 0), none)
  | .hget n u =>
      if b.config.enabled = false ∨ inp.fails = true then (s, none)
      else
        match s.store.hget n inp.now with
        | none => (s, none)
        | some p =>
            if p.userId ≠ u then (s, none)
            else ({ s with acked := s.acked ++ [n] }, some (.ackDel n (p.latencyMs inp.now)))
  | .ackDel n latencyMs => (if inp.fails then s else s.set (s.store.del n), some (.ackZrem n latencyMs))
  | .ackZrem n latencyMs => (if inp.fails then s else s.set (s.store.zrem n), some (.countAcked n latencyMs))
  | .countAcked n latencyMs =>
      (if inp.fails then { s with failed := true }
        else { s with store := s.store.hincrby 0 1 0 0, counted := s.counted ++ [n] },
        some (.countLatency latencyMs))
  | .countLatency latencyMs =>
      (if inp.fails then { s with failed := true } else s.set (s.store.hincrby 0 0 0 latencyMs), none)
  | .zrange =>
      if b.config.enabled = false ∨ inp.fails = true then (s, none)
      else (s, sweep [] (arrange inp (s.store.zrangebyscore inp.now)))
  | .cleanDel n todo cleaned =>
      if inp.fails then (s, some (.cleanZrem n todo cleaned))
      else
        ({ s with store := s.store.del n, expired := s.expired ++ [n] },
          some (.cleanZrem n todo (cleaned ++ [n])))
  | .cleanZrem n todo cleaned => (if inp.fails then s else s.set (s.store.zrem n), sweep cleaned todo)
  | .countExpired cleaned =>
      (if inp.fails then { s with failed := true }
        else { s with store := s.store.hincrby 0 0 cleaned.length 0, counted := s.counted ++ cleaned }, none)

end programs

/-- The calls of the tracker as concurrent programs. -/
def system (b : RedisAckBackend) : System Shared Call Input Pc where
  start := start
  step inp s p := some (access b inp s p)

/-- Empty keys with no call running. -/
def initial : Config Shared Pc := ⟨⟨⟨∅, ∅, ⟨0, 0, 0, 0⟩⟩, [], [], [], [], [], false⟩, []⟩

/-! ### A call alone -/

/-- A call that no other interrupts, for at most `k` commands. -/
def runAlone (b : RedisAckBackend) (inp : Input) : ℕ → Shared × Option Pc → Shared × Option Pc
  | 0, r => r
  | _ + 1, (s, none) => (s, none)
  | k + 1, (s, some p) => runAlone b inp k (access b inp s p)

section alone
variable {inp : Input} (hfails : inp.fails = false)
include hfails

/-- The loop of a clean-up, which counts at its end what it has deleted. -/
theorem sweep_alone (b : RedisAckBackend) (cleaned todo : List Uuid) (s : Shared) :
    (runAlone b inp (2 * todo.length + 1) (s, sweep cleaned todo)).1.store =
      (todo.foldl (fun s id => (s.del id).zrem id) s.store).hincrby 0 0 (cleaned.length + todo.length) 0 := by
  induction todo generalizing cleaned s with
  | nil =>
      by_cases hc : cleaned = []
      · subst hc
        rfl
      · simp [sweep, hc, runAlone, access, hfails]
  | cons n todo ih =>
      have hlen : 2 * (n :: todo).length + 1 = (2 * todo.length + 1) + 1 + 1 := by
        rw [List.length_cons]
        omega
      rw [hlen, sweep, runAlone, access, hfails, if_neg Bool.false_ne_true, runAlone, access, hfails,
        if_neg Bool.false_ne_true, ih]
      have hsum : (cleaned ++ [n]).length + todo.length = cleaned.length + (n :: todo).length := by
        simp only [List.length_append, List.length_cons, List.length_nil]
        omega
      rw [hsum]
      rfl

variable {b : RedisAckBackend} (s : Shared) (hs : s.store = b.store)
include hs

/-- A track whose commands succeed is the call of the sequential model. -/
theorem track_alone (n : Uuid) (u : String) (conn : Uuid) :
    (runAlone b inp 4 (s, some (start (.track n u conn)))).1.store = (b.track n u conn inp.now).store := by
  cases henabled : b.config.enabled with
  | false => simp [start, runAlone, access, RedisAckBackend.track, henabled, hs]
  | true => simp [start, runAlone, access, RedisAckBackend.track, henabled, hfails, hs, Shared.set]

/-- So is an acknowledgement, which counts in two commands. -/
theorem acknowledge_alone (n : Uuid) (u : String) :
    (runAlone b inp 5 (s, some (start (.acknowledge n u)))).1.store = (b.acknowledge n u inp.now).2.store := by
  cases henabled : b.config.enabled with
  | false => simp [start, runAlone, access, RedisAckBackend.acknowledge, henabled, hs]
  | true =>
      cases hget : b.store.hget n inp.now with
      | none => simp [start, runAlone, access, RedisAckBackend.acknowledge, henabled, hfails, hs, hget]
      | some e =>
          by_cases hu : e.userId = u
          · simp [start, runAlone, access, RedisAckBackend.acknowledge, henabled, hfails, hs, hget, hu, Shared.set,
              AckStore.hincrby, AckStore.del, AckStore.zrem]
          · simp [start, runAlone, access, RedisAckBackend.acknowledge, henabled, hfails, hs, hget, hu]

/-- And so is a clean-up, in the order in which the sequential model meets the members. -/
theorem cleanupExpired_alone (horder : inp.order = b.store.zrangebyscore inp.now) :
    (runAlone b inp (2 * inp.order.length + 2) (s, some (start .cleanupExpired))).1.store =
      (b.cleanupExpired inp.now).2.store := by
  cases henabled : b.config.enabled with
  | false => simp [start, runAlone, access, RedisAckBackend.cleanupExpired, henabled, hs]
  | true =>
      have harrange : arrange inp (b.store.zrangebyscore inp.now) = inp.order := by
        rw [arrange, if_pos (by rw [horder])]
      have hloop := sweep_alone hfails b [] inp.order s
      rw [hs, List.length_nil, Nat.zero_add] at hloop
      rw [start, runAlone, access, henabled, hfails, if_neg (by simp), hs, harrange, hloop]
      simp only [RedisAckBackend.cleanupExpired, henabled, if_true, horder]

end alone

/-! ### What running calls carry -/

/-- For one notification: an acknowledgement that has read the hash and not yet deleted it, what
is decided and not yet counted, and a track that is stored and not yet counted. -/
structure Load where
  window : ℕ
  uncounted : ℕ
  tracking : ℕ

def load (n : Uuid) : Pc → Load
  | .expire m _ => ⟨0, 0, if m = n then 1 else 0⟩
  | .zadd m _ => ⟨0, 0, if m = n then 1 else 0⟩
  | .countTracked m => ⟨0, 0, if m = n then 1 else 0⟩
  | .ackDel m _ => ⟨if m = n then 1 else 0, if m = n then 1 else 0, 0⟩
  | .ackZrem m _ => ⟨0, if m = n then 1 else 0, 0⟩
  | .countAcked m _ => ⟨0, if m = n then 1 else 0, 0⟩
  | .cleanDel _ _ cleaned => ⟨0, cleaned.count n, 0⟩
  | .cleanZrem _ _ cleaned => ⟨0, cleaned.count n, 0⟩
  | .countExpired cleaned => ⟨0, cleaned.count n, 0⟩
  | _ => ⟨0, 0, 0⟩

/-- The load of a call that may have returned. -/
def loadOf (n : Uuid) (q : Option Pc) : Load := q.elim ⟨0, 0, 0⟩ (load n)

/-- The accounts of one notification: acknowledged or expired, present, stored, counted as one of
the former, counted as tracked. -/
structure Account where
  decided : ℕ
  present : ℕ
  stored : ℕ
  counted : ℕ
  reported : ℕ

def account (n : Uuid) (s : Shared) : Account where
  decided := s.acked.count n + s.expired.count n
  present := if (s.store.pending.lookup n).isSome then 1 else 0
  stored := s.stored.count n
  counted := s.counted.count n
  reported := s.reported.count n

/-- What a step does to the accounts of one notification. -/
inductive DoesAt (n : Uuid) (inp : Input) (s s' : Shared) (p : Pc) (q : Option Pc) : Prop
  | quiet (ha : account n s' = account n s) (hl : loadOf n q = load n p)
  | stored (ha : account n s' = { account n s with stored := (account n s).stored + 1, present := 1 })
      (hp : load n p = ⟨0, 0, 0⟩) (hq : loadOf n q = ⟨0, 0, 1⟩)
  | reported (ha : account n s' = { account n s with reported := (account n s).reported + 1 })
      (hp : load n p = ⟨0, 0, 1⟩) (hq : loadOf n q = ⟨0, 0, 0⟩)
  | acked {u : String} (hpc : p = .hget n u) (hfails : inp.fails = false)
      (hmatch : (s.store.hget n inp.now).any (fun e => decide (e.userId = u)) = true)
      (hpresent : (account n s).present = 1)
      (ha : account n s' = { account n s with decided := (account n s).decided + 1 })
      (hp : load n p = ⟨0, 0, 0⟩) (hq : loadOf n q = ⟨1, 1, 0⟩)
  | deleted (ha : account n s' = { account n s with present := 0 }) (hp : load n p = ⟨1, 1, 0⟩)
      (hq : loadOf n q = ⟨0, 1, 0⟩)
  | kept {latencyMs : ℕ} (hpc : p = .ackDel n latencyMs) (hfails : inp.fails = true)
  | expired {todo cleaned : List Uuid} (hpc : p = .cleanDel n todo cleaned) (hfails : inp.fails = false)
      (ha : account n s' = { account n s with decided := (account n s).decided + 1, present := 0 })
      (hp : load n p = ⟨0, cleaned.count n, 0⟩) (hq : loadOf n q = ⟨0, cleaned.count n + 1, 0⟩)
  | counted {k : ℕ}
      (hpc : (∃ latencyMs, p = .countAcked n latencyMs) ∨ ∃ cleaned, p = .countExpired cleaned ∧ n ∈ cleaned)
      (hfails : inp.fails = false)
      (ha : account n s' = { account n s with counted := (account n s).counted + k })
      (hp : load n p = ⟨0, k, 0⟩) (hq : loadOf n q = ⟨0, 0, 0⟩)
  | uncounted {k : ℕ} (ha : account n s' = account n s) (hp : load n p = ⟨0, k, 0⟩)
      (hq : loadOf n q = ⟨0, 0, 0⟩)

section accounts
variable {n m : Uuid} {s : Shared}

theorem loadOf_sweep (cleaned todo : List Uuid) : loadOf n (sweep cleaned todo) = ⟨0, cleaned.count n, 0⟩ := by
  cases todo with
  | nil =>
      unfold sweep
      split_ifs with h
      · subst h
        rfl
      · rfl
  | cons m todo => rfl

/-- Commands on the sorted set, the counters and times to live leave every account alone. -/
theorem account_set {store : AckStore}
    (h : (store.pending.lookup n).isSome = (s.store.pending.lookup n).isSome) :
    account n (s.set store) = account n s := by
  simp only [account, Shared.set, h]

theorem isSome_lookup_expire (store : AckStore) (seconds : ℤ) (now : DateTime) :
    ((store.expire m seconds now).pending.lookup n).isSome = (store.pending.lookup n).isSome := by
  simp only [AckStore.expire, DashMap.lookup_modify]
  split_ifs with h
  · rw [Option.isSome_map, h]
  · rfl

theorem lookup_hset_of_ne (store : AckStore) (data : PendingAckInfo) (now : DateTime) (h : n ≠ m) :
    (store.hset m data now).pending.lookup n = store.pending.lookup n := by
  rw [AckStore.hset, DashMap.lookup_insert, if_neg h]

theorem lookup_del_of_ne (store : AckStore) (h : n ≠ m) :
    (store.del m).pending.lookup n = store.pending.lookup n := by
  rw [AckStore.del, DashMap.lookup_erase, if_neg h]

end accounts

/-- Every command does one of these to the accounts of a notification. -/
theorem doesAt_access (b : RedisAckBackend) (inp : Input) (s : Shared) (p : Pc) (n : Uuid) :
    DoesAt n inp s (access b inp s p).1 p (access b inp s p).2 := by
  cases p with
  | hset m u conn =>
      simp only [access]
      split_ifs with h
      · exact .quiet rfl rfl
      · by_cases hn : n = m
        · subst hn
          refine .stored ?_ rfl ?_
          · simp [account, AckStore.hset]
          · simp [loadOf, load]
        · refine .quiet ?_ ?_
          · simp [account, lookup_hset_of_ne _ _ _ hn, Ne.symm hn]
          · simp [loadOf, load, Ne.symm hn]
  | expire m sent =>
      refine .quiet ?_ rfl
      simp only [access]
      split_ifs
      · rfl
      · exact account_set (isSome_lookup_expire _ _ _)
  | zadd m sent =>
      refine .quiet ?_ rfl
      simp only [access]
      split_ifs
      · rfl
      · exact account_set rfl
  | countTracked m =>
      by_cases hn : m = n
      · subst hn
        refine .reported ?_ (by simp [load]) rfl
        simp only [access]
        split_ifs <;> simp [account, Shared.set, AckStore.hincrby]
      · refine .quiet ?_ (by simp [access, loadOf, load, hn])
        simp only [access]
        split_ifs <;> simp [account, Shared.set, AckStore.hincrby, hn]
  | hget m u =>
      simp only [access]
      split_ifs with h
      · exact .quiet rfl rfl
      · cases hget : s.store.hget m inp.now with
        | none => exact .quiet rfl rfl
        | some e =>
            dsimp only
            split_ifs with hu
            · exact .quiet rfl rfl
            · by_cases hn : m = n
              · subst hn
                refine .acked rfl (by simpa using (not_or.mp h).2) ?_ ?_ ?_ rfl (by simp [loadOf, load])
                · simpa [hget] using hu
                · simp only [AckStore.hget, Option.map_eq_some_iff, Option.filter_eq_some_iff] at hget
                  obtain ⟨e', ⟨hl, -⟩, -⟩ := hget
                  simp [account, hl]
                · simp [account]
                  omega
              · refine .quiet ?_ (by simp [loadOf, load, hn])
                simp [account, hn]
  | ackDel m latencyMs =>
      by_cases hn : m = n
      · subst hn
        cases hf : inp.fails with
        | true => exact .kept rfl hf
        | false =>
            refine .deleted ?_ (by simp [load]) (by simp [access, loadOf, load])
            simp [access, hf, account, Shared.set, AckStore.del]
      · refine .quiet ?_ (by simp [access, loadOf, load, hn])
        simp only [access]
        split_ifs
        · rfl
        · exact account_set (by rw [lookup_del_of_ne _ (Ne.symm hn)])
  | ackZrem m latencyMs =>
      refine .quiet ?_ rfl
      simp only [access]
      split_ifs
      · rfl
      · exact account_set rfl
  | countAcked m latencyMs =>
      by_cases hn : m = n
      · subst hn
        cases hf : inp.fails with
        | true => exact .uncounted (by simp [access, hf, account]) (by simp [load]; rfl) rfl
        | false =>
            refine .counted (.inl ⟨latencyMs, rfl⟩) hf ?_ (by simp [load]; rfl) rfl
            simp [access, hf, account, AckStore.hincrby]
      · refine .quiet ?_ (by simp [access, loadOf, load, hn])
        simp only [access]
        split_ifs <;> simp [account, AckStore.hincrby, hn]
  | countLatency latencyMs =>
      refine .quiet ?_ rfl
      simp only [access]
      split_ifs
      · rfl
      · exact account_set rfl
  | zrange =>
      simp only [access]
      split_ifs
      · exact .quiet rfl rfl
      · exact .quiet rfl (loadOf_sweep _ _)
  | cleanDel m todo cleaned =>
      cases hf : inp.fails with
      | true => exact .quiet (by simp [access, hf]) (by simp [access, hf, loadOf, load])
      | false =>
          by_cases hn : n = m
          · subst hn
            refine .expired rfl hf ?_ rfl (by simp [access, hf, loadOf, load])
            simp [access, hf, account, AckStore.del]
            omega
          · refine .quiet ?_ (by simp [access, hf, loadOf, load, Ne.symm hn])
            simp [access, hf, account, lookup_del_of_ne _ hn, Ne.symm hn]
  | cleanZrem m todo cleaned =>
      refine .quiet ?_ (loadOf_sweep _ _)
      simp only [access]
      split_ifs
      · rfl
      · exact account_set rfl
  | countExpired cleaned =>
      cases hf : inp.fails with
      | true => exact .uncounted (by simp [access, hf, account]) rfl rfl
      | false =>
          by_cases hn : n ∈ cleaned
          · refine .counted (.inr ⟨cleaned, rfl, hn⟩) hf ?_ rfl rfl
            simp [access, hf, account, AckStore.hincrby]
          · refine .quiet ?_ ?_
            · simp [access, hf, account, AckStore.hincrby, List.count_eq_zero_of_not_mem hn]
            · simp [access, loadOf, load, List.count_eq_zero_of_not_mem hn]

/-! ### Runs in which nothing is counted twice -/

/-- What the running calls carry for a notification. -/
def windows (n : Uuid) (c : Config Shared Pc) : ℕ := carried (fun p => (load n p).window) c
def uncounted (n : Uuid) (c : Config Shared Pc) : ℕ := carried (fun p => (load n p).uncounted) c
def tracking (n : Uuid) (c : Config Shared Pc) : ℕ := carried (fun p => (load n p).tracking) c

/-- The next command of a call: the hash that an acknowledgement reads has not been read by
another one that has still to delete it; its `DEL` does not fail; the hash that a clean-up deletes
is there and has not been read by an acknowledgement; and what is counted as acknowledged or
expired is no longer to be counted as tracked. -/
def InOrder (c : Config Shared Pc) (inp : Input) : Pc → Prop
  | .hget n u => inp.fails = false →
      (c.shared.store.hget n inp.now).any (fun e => decide (e.userId = u)) = true → windows n c = 0
  | .ackDel _ _ => inp.fails = false
  | .cleanDel n _ _ => inp.fails = false → (c.shared.store.pending.lookup n).isSome = true ∧ windows n c = 0
  | .countAcked n _ => inp.fails = false → tracking n c = 0
  | .countExpired cleaned => inp.fails = false → ∀ n ∈ cleaned, tracking n c = 0
  | _ => True

instance (c : Config Shared Pc) (inp : Input) (p : Pc) : Decidable (InOrder c inp p) := by
  unfold InOrder
  split <;> infer_instance

/-- The command of an event is in order. -/
def Orderly (c : Config Shared Pc) : Event Call Input → Prop
  | .call _ => True
  | .run i inp => ∀ p ∈ c.threads[i]?, InOrder c inp p

instance (c : Config Shared Pc) (e : Event Call Input) : Decidable (Orderly c e) := by
  unfold Orderly
  split <;> infer_instance

/-! ### Accounting -/

/-- Apart from what acknowledgements have read, what is decided is not present and was stored;
what is counted was decided, and was counted as tracked. -/
structure Accounted (n : Uuid) (c : Config Shared Pc) : Prop where
  decided_le : (account n c.shared).decided + (account n c.shared).present ≤ (account n c.shared).stored + windows n c
  windows_le : windows n c ≤ (account n c.shared).present
  counted_le : (account n c.shared).counted + uncounted n c ≤ (account n c.shared).decided
  stored_le : (account n c.shared).stored ≤ (account n c.shared).reported + tracking n c
  reported_le : (account n c.shared).counted ≤ (account n c.shared).reported

theorem load_start (n : Uuid) (op : Call) : load n (start op) = ⟨0, 0, 0⟩ := by
  cases op <;> rfl

theorem present_le_one (n : Uuid) (s : Shared) : (account n s).present ≤ 1 := by
  simp only [account]
  split_ifs <;> omega

/-- An event changes what is carried for a notification by the loads of its program counters. -/
theorem next_cases {b : RedisAckBackend} {c c' : Config Shared Pc} {e : Event Call Input}
    (hn : (system b).next c e = some c') (n : Uuid) :
    (c'.shared = c.shared ∧ windows n c' = windows n c ∧ uncounted n c' = uncounted n c ∧
      tracking n c' = tracking n c) ∨
    ∃ i inp p q, e = .run i inp ∧ c.threads[i]? = some p ∧ DoesAt n inp c.shared c'.shared p q ∧
      windows n c' + (load n p).window = windows n c + (loadOf n q).window ∧
      uncounted n c' + (load n p).uncounted = uncounted n c + (loadOf n q).uncounted ∧
      tracking n c' + (load n p).tracking = tracking n c + (loadOf n q).tracking := by
  obtain ⟨op, rfl, hs, hc⟩ | ⟨i, inp, p, s, q, rfl, hp, hstep, hs, hc⟩ := carried_next hn
  · left
    have hstart : load n ((system b).start op) = ⟨0, 0, 0⟩ := load_start n op
    refine ⟨hs, ?_, ?_, ?_⟩
    · rw [windows, hc, hstart]
      rfl
    · rw [uncounted, hc, hstart]
      rfl
    · rw [tracking, hc, hstart]
      rfl
  · right
    have hd := doesAt_access b inp c.shared p n
    rw [Option.some.inj hstep] at hd
    rw [← hs] at hd
    refine ⟨i, inp, p, q, rfl, hp, hd, ?_, ?_, ?_⟩
    · rw [windows, hc (fun p => (load n p).window)]
      cases q <;> rfl
    · rw [uncounted, hc (fun p => (load n p).uncounted)]
      cases q <;> rfl
    · rw [tracking, hc (fun p => (load n p).tracking)]
      cases q <;> rfl

/-- An event in order keeps the accounts. -/
theorem Accounted.next {b : RedisAckBackend} {c c' : Config Shared Pc} {e : Event Call Input} {n : Uuid}
    (h : Accounted n c) (hok : Orderly c e) (hn : (system b).next c e = some c') : Accounted n c' := by
  obtain ⟨hs, hw, hu, ht⟩ | ⟨i, inp, p, q, rfl, hp, hd, hw, hu, ht⟩ := next_cases hn n
  · constructor
    · rw [hs, hw]
      exact h.decided_le
    · rw [hs, hw]
      exact h.windows_le
    · rw [hs, hu]
      exact h.counted_le
    · rw [hs, ht]
      exact h.stored_le
    · rw [hs]
      exact h.reported_le
  · have hin : InOrder c inp p := hok p hp
    obtain ⟨hdecided, hwindows, hcounted, hstored, hreported⟩ := h
    have hone := present_le_one n c.shared
    cases hd with
    | quiet ha hl =>
        rw [hl] at hw hu ht
        constructor <;> rw [ha] <;> omega
    | stored ha hp hq =>
        rw [hp, hq] at hw hu ht
        constructor <;> rw [ha] <;> dsimp only at * <;> omega
    | reported ha hp hq =>
        rw [hp, hq] at hw hu ht
        constructor <;> rw [ha] <;> dsimp only at * <;> omega
    | acked hpc hfails hmatch hpresent ha hp hq =>
        subst hpc
        have hfree : windows n c = 0 := hin hfails hmatch
        rw [hp, hq] at hw hu ht
        constructor <;> rw [ha] <;> dsimp only at * <;> omega
    | deleted ha hp hq =>
        rw [hp, hq] at hw hu ht
        constructor <;> rw [ha] <;> dsimp only at * <;> omega
    | kept hpc hfails =>
        subst hpc
        rw [InOrder, hfails] at hin
        cases hin
    | expired hpc hfails ha hp hq =>
        subst hpc
        obtain ⟨hthere, hfree⟩ := hin hfails
        have hpresent : (account n c.shared).present = 1 := if_pos hthere
        rw [hp, hq] at hw hu ht
        constructor <;> rw [ha] <;> dsimp only at * <;> omega
    | counted hpc hfails ha hp hq =>
        have htracked : tracking n c = 0 := by
          obtain ⟨latencyMs, rfl⟩ | ⟨cleaned, rfl, hmem⟩ := hpc
          · exact hin hfails
          · exact hin hfails n hmem
        rw [hp, hq] at hw hu ht
        constructor <;> rw [ha] <;> dsimp only at * <;> omega
    | uncounted ha hp hq =>
        rw [hp, hq] at hw hu ht
        constructor <;> rw [ha] <;> dsimp only at * <;> omega

theorem accounted_of_reaches {b : RedisAckBackend} {c : Config Shared Pc}
    (h : Reaches (system b) Orderly initial c) (n : Uuid) : Accounted n c := by
  refine h.invariant ?_ (fun _ _ _ _ hc hok hn => hc.next hok hn)
  constructor <;> exact Nat.zero_le _

/-! ### The counters -/

/-- The counters say how many notifications were counted, those of tracks as long as no `HINCRBY`
has failed. -/
structure Totalled (s : Shared) : Prop where
  settled : s.store.stats.totalAcked + s.store.stats.totalExpired = s.counted.length
  tracked : s.failed = false → s.store.stats.totalTracked = s.reported.length

theorem Totalled.access {s : Shared} (h : Totalled s) (b : RedisAckBackend) (inp : Input) (p : Pc) :
    Totalled (access b inp s p).1 := by
  obtain ⟨hsettled, htracked⟩ := h
  -- commands that touch neither the counters nor the lists behind them
  have quiet : ∀ s' : Shared, s'.store.stats = s.store.stats → s'.counted = s.counted →
      s'.reported = s.reported → (s'.failed = false → s.failed = false) → Totalled s' := by
    intro s' hstats hcounted hreported hfailed
    refine ⟨?_, fun hf => ?_⟩
    · rw [hstats, hcounted, hsettled]
    · rw [hstats, hreported, htracked (hfailed hf)]
  cases p with
  | countTracked n =>
      simp only [RedisAckRace.access]
      split_ifs
      · exact ⟨hsettled, fun hf => Bool.noConfusion hf⟩
      · refine ⟨hsettled, fun hf => ?_⟩
        simp [Shared.set, AckStore.hincrby, htracked hf]
  | countAcked n latencyMs =>
      simp only [RedisAckRace.access]
      split_ifs
      · exact ⟨hsettled, fun hf => Bool.noConfusion hf⟩
      · refine ⟨?_, fun hf => htracked hf⟩
        simp only [AckStore.hincrby, List.length_append, List.length_singleton]
        omega
  | countExpired cleaned =>
      simp only [RedisAckRace.access]
      split_ifs
      · exact ⟨hsettled, fun hf => Bool.noConfusion hf⟩
      · refine ⟨?_, fun hf => htracked hf⟩
        simp only [AckStore.hincrby, List.length_append]
        omega
  | countLatency latencyMs =>
      simp only [RedisAckRace.access]
      split_ifs
      · exact ⟨hsettled, fun hf => Bool.noConfusion hf⟩
      · exact ⟨hsettled, htracked⟩
  | hget n u =>
      simp only [RedisAckRace.access]
      split_ifs
      · exact quiet s rfl rfl rfl id
      · cases s.store.hget n inp.now with
        | none => exact quiet s rfl rfl rfl id
        | some e =>
            dsimp only
            split_ifs <;> exact quiet _ rfl rfl rfl id
  | _ =>
      simp only [RedisAckRace.access]
      split_ifs <;> exact quiet _ rfl rfl rfl id

theorem totalled_of_reaches {b : RedisAckBackend} {ok : Config Shared Pc → Event Call Input → Prop}
    {c : Config Shared Pc} (h : Reaches (system b) ok initial c) : Totalled c.shared := by
  refine h.shared_invariant ⟨rfl, fun _ => rfl⟩ ?_
  intro c i inp p s q _ hc _ _ hs
  have hnext := hc.access b inp p
  rw [Option.some.inj hs] at hnext
  exact hnext

/-- **Acknowledgements in Redis are counted at most once** in orderly runs: a notification has
been acknowledged and expired together no more often than it was tracked, and the counters say so
as long as no `HINCRBY` has failed. -/
theorem settled_once {b : RedisAckBackend} {c : Config Shared Pc} (h : Reaches (system b) Orderly initial c) :
    (∀ n, c.shared.acked.count n + c.shared.expired.count n ≤ c.shared.stored.count n) ∧
      (c.shared.failed = false → c.shared.store.stats.totalAcked + c.shared.store.stats.totalExpired ≤
        c.shared.store.stats.totalTracked) := by
  refine ⟨fun n => ?_, fun hf => ?_⟩
  · obtain ⟨hdecided, hwindows, -, -, -⟩ := accounted_of_reaches h n
    have hle : (account n c.shared).decided ≤ (account n c.shared).stored := by omega
    exact hle
  · obtain ⟨hsettled, htracked⟩ := totalled_of_reaches h
    have hsub : c.shared.counted.Subperm c.shared.reported :=
      List.subperm_ext_iff.mpr (fun n _ => (accounted_of_reaches h n).reported_le)
    rw [hsettled, htracked hf]
    exact hsub.length_le

/-! ### Schedules -/

section examples

def redisBackend : RedisAckBackend := .new ⟨true, 30, 60⟩

/-- A call that runs `k` commands, all successful, while no other call runs. -/
def alone (op : Call) (k : ℕ) (now : DateTime) : List (Event Call Input) :=
  .call op :: List.replicate k (.run 0 ⟨now, false, []⟩)

/-- Two notifications; one is acknowledged, one expires. -/
theorem settled_once_in_turn :
    ∃ c, Reaches (system redisBackend) Orderly initial c ∧ c.shared.acked = [7] ∧ c.shared.expired = [8] ∧
      (∀ n, c.shared.acked.count n + c.shared.expired.count n ≤ c.shared.stored.count n) ∧
      c.shared.store.stats.totalAcked + c.shared.store.stats.totalExpired ≤ c.shared.store.stats.totalTracked := by
  have hseen : ((system redisBackend).play Orderly initial
      (alone (.track 7 "alice" 1) 4 0 ++ alone (.track 8 "bob" 2) 4 0 ++ alone (.acknowledge 7 "alice") 5 0 ++
        alone .cleanupExpired 4 (60 * nanosPerSecond))).any
      (fun c => decide (c.shared.acked = [7] ∧ c.shared.expired = [8] ∧ c.shared.failed = false)) = true := by
    decide +kernel
  obtain ⟨c, hr, hc⟩ := exists_reaches_of_play hseen
  obtain ⟨hacked, hexpired, hf⟩ := of_decide_eq_true hc
  obtain ⟨hcount, htotal⟩ := settled_once hr
  exact ⟨c, hr, hacked, hexpired, hcount, htotal hf⟩

/-- Two acknowledgements read the hash before either deletes it: both succeed and are counted. -/
theorem acknowledged_twice :
    ¬ ∀ (b : RedisAckBackend) (c : Config Shared Pc), Reaches (system b) (fun _ _ => True) initial c →
        (∀ n, c.shared.stored.count n = 1 → c.shared.acked.count n + c.shared.expired.count n ≤ 1) ∧
          (c.shared.failed = false → c.shared.store.stats.totalAcked + c.shared.store.stats.totalExpired ≤
            c.shared.store.stats.totalTracked) := by
  intro hall
  have hseen : ((system redisBackend).play (fun _ _ => True) initial
      (alone (.track 7 "alice" 1) 4 0 ++ [.call (.acknowledge 7 "alice"), .call (.acknowledge 7 "alice"),
        .run 0 ⟨0, false, []⟩, .run 1 ⟨0, false, []⟩] ++ List.replicate 8 (.run 0 ⟨0, false, []⟩))).any
      (fun c => decide (c.threads.length = 0 ∧ c.shared.stored.count 7 = 1 ∧ c.shared.acked.count 7 = 2)) = true := by
    decide +kernel
  obtain ⟨c, hr, hc⟩ := exists_reaches_of_play hseen
  obtain ⟨-, hstored, hacked⟩ := of_decide_eq_true hc
  have hle := (hall redisBackend c hr).1 7 hstored
  omega

end examples

end RedisAckRace

end AraNotification
