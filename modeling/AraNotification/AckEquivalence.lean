import AraNotification.AckBackends
import AraNotification.Lib.RelatedMaps
import AraNotification.Lib.Runs

/-! # Three trackers for one

The three backends are meant to be interchangeable.  They are run on the same calls, one after
the other, with one clock that the service and the stores read at whole seconds (`Tick`).

They keep the same notifications with the same users and deadlines, each in its own form, as long
as every call is `Portable`.  A track of a notification that is pending makes the in-memory and
the Redis backend forget the earlier one, while PostgreSQL keeps its row, so it must be for the
same user and in the same second.  The deadline of a track must be a `DateTime` (otherwise
PostgreSQL's backend panics) that is not before the epoch (otherwise Redis never finds it).  And
whoever has to acknowledge must do so before the hash in Redis is gone, a minute after the
deadline; the two others wait for a clean-up.

In runs of such calls all answers agree (`answers_agree`); without this they need not
(`answers_differ`). -/

namespace AraNotification

/-! ### Calls at whole seconds -/

/-- A call at a whole second of the one clock. -/
structure Tick where
  seconds : ℤ
  call : AckCall
deriving DecidableEq, Repr

def Tick.now (i : Tick) : DateTime := .fromTimestamp i.seconds

def Tick.input (i : Tick) : AckInput := ⟨i.call, i.now, i.now⟩

def MemoryAckBackend.tick (b : MemoryAckBackend) (i : Tick) : AckReply × MemoryAckBackend := b.answer i.input
def PostgresAckBackend.tick (b : PostgresAckBackend) (i : Tick) : AckReply × PostgresAckBackend := b.answer i.input
def RedisAckBackend.tick (b : RedisAckBackend) (i : Tick) : AckReply × RedisAckBackend := b.answer i.input

/-- Calls that the backends understand alike, by what is pending in memory. -/
def Portable (b : MemoryAckBackend) (i : Tick) : Prop :=
  b.config.enabled = true →
    match i.call with
    | .track n u _ =>
        (∀ e ∈ b.pending.lookup n, e.userId = u ∧ e.sentAt = i.now) ∧
          (expiresAt i.now b.config.timeoutSeconds).isSome = true ∧
          0 ≤ i.seconds + asI64 b.config.timeoutSeconds
    | .acknowledge n u =>
        ∀ e ∈ b.pending.lookup n, e.userId = u →
          i.now < e.sentAt + (asI64 b.config.timeoutSeconds + 60) * nanosPerSecond
    | _ => True

instance (b : MemoryAckBackend) (i : Tick) : Decidable (Portable b i) := by
  unfold Portable
  split <;> infer_instance

section seconds

theorem fromTimestamp_le_iff {s t : ℤ} : DateTime.fromTimestamp s ≤ DateTime.fromTimestamp t ↔ s ≤ t := by
  constructor
  · exact fun h => Int.le_of_mul_le_mul_right h (by decide)
  · exact fun h => Int.mul_le_mul_of_nonneg_right h (by decide)

theorem timestamp_fromTimestamp (s : ℤ) : DateTime.timestamp (.fromTimestamp s) = s :=
  Int.mul_ediv_cancel s (by decide)

theorem numSeconds_fromTimestamp (s t : ℤ) :
    Duration.numSeconds (DateTime.fromTimestamp t - DateTime.fromTimestamp s) = t - s := by
  rw [DateTime.fromTimestamp, DateTime.fromTimestamp, ← Int.sub_mul]
  exact Int.mul_tdiv_cancel _ (by decide)

/-- An entry has expired when the clock has reached its deadline. -/
theorem isExpired_fromTimestamp {e : PendingAckInfo} {s : ℤ} (he : e.sentAt = .fromTimestamp s) (t : ℤ)
    (timeoutSeconds : ℕ) :
    e.isExpired (.fromTimestamp t) timeoutSeconds = decide (s + asI64 timeoutSeconds ≤ t) := by
  rw [PendingAckInfo.isExpired, he, numSeconds_fromTimestamp]
  exact decide_eq_decide.mpr ⟨fun h => by omega, fun h => by omega⟩

theorem expiresAt_fromTimestamp {s : ℤ} {timeoutSeconds : ℕ} {expiry : DateTime}
    (h : expiresAt (.fromTimestamp s) timeoutSeconds = some expiry) :
    expiry = .fromTimestamp (s + asI64 timeoutSeconds) := by
  unfold expiresAt Duration.seconds at h
  obtain ⟨d, hd, hexpiry⟩ := Option.bind_eq_some_iff.mp h
  split_ifs at hd hexpiry
  cases hd
  cases hexpiry
  rw [DateTime.fromTimestamp, DateTime.fromTimestamp, ← Int.add_mul]

end seconds

/-! ### What the calls do -/

namespace PostgresAckBackend
variable {b : PostgresAckBackend} (henabled : b.config.enabled = true) (now : DateTime)
include henabled

/-- A track inserts a row or leaves the one that is there. -/
theorem track_cases (n : Uuid) (u : String) (c : Uuid) {expiry : DateTime}
    (hexpiry : expiresAt now b.config.timeoutSeconds = some expiry) :
    ∃ db, b.track n u c now now = some { b with db := db } ∧
      db.pendingAcks = (b.db.insertPending n ⟨b.tenantId, u, c, now, expiry⟩).pendingAcks := by
  rw [track, if_pos henabled, hexpiry]
  exact ⟨_, rfl, rfl⟩

theorem acknowledge_cases (n : Uuid) (u : String) :
    ((b.db.pendingAcks.lookup n).any (fun row => decide (row.userId = u ∧ row.tenantId = b.tenantId)) = true ∧
      ∃ ackStats, b.acknowledge n u now = (true, { b with db := ⟨b.db.pendingAcks.erase n, ackStats⟩ })) ∨
    ((b.db.pendingAcks.lookup n).any (fun row => decide (row.userId = u ∧ row.tenantId = b.tenantId)) = false ∧
      b.acknowledge n u now = (false, b)) := by
  rw [acknowledge, if_pos henabled, AckTables.deletePending]
  cases hl : b.db.pendingAcks.lookup n with
  | none => exact .inr ⟨rfl, rfl⟩
  | some row =>
      dsimp only
      by_cases hrow : row.userId = u ∧ row.tenantId = b.tenantId
      · rw [if_pos hrow]
        exact .inl ⟨decide_eq_true hrow, _, rfl⟩
      · rw [if_neg hrow]
        exact .inr ⟨decide_eq_false hrow, rfl⟩

theorem cleanupExpired_eq :
    ∃ db, b.cleanupExpired now = (b.db.pendingAcks.values.countP (AckTables.expired b.tenantId now),
        { b with db := db }) ∧
      db.pendingAcks = DashMap.retain b.db.pendingAcks (fun row => !AckTables.expired b.tenantId now row) := by
  rw [cleanupExpired, if_pos henabled]
  refine ⟨_, rfl, ?_⟩
  split_ifs <;> rfl

end PostgresAckBackend

namespace RedisAckBackend
variable {b : RedisAckBackend} (henabled : b.config.enabled = true) (now : DateTime)

/-- A hash that has just been set is alive, whatever time to live it had. -/
theorem hset_alive (s : AckStore) (n : Uuid) (data : PendingAckInfo) :
    ∃ h, (s.hset n data now).pending.lookup n = some h ∧ h.data = data ∧ h.alive now = true := by
  refine ⟨_, AList.lookup_insert _, rfl, ?_⟩
  rw [PendingHash.alive]
  cases hf : (s.pending.lookup n).filter (·.alive now) with
  | none => rfl
  | some h => exact (Option.filter_eq_some_iff.mp hf).2

include henabled

theorem track_eq (n : Uuid) (u : String) (c : Uuid) :
    ∃ store, b.track n u c now = { b with store := store } ∧
      (∀ k, store.pending.lookup k =
        (b.store.pending.insert n ⟨⟨n, u, c, now⟩, some (now + b.ttl * nanosPerSecond)⟩).lookup k) ∧
      store.timeout = b.store.timeout.insert n (b.expiryTimestamp now) := by
  rw [track, if_pos henabled]
  refine ⟨_, rfl, fun k => ?_, rfl⟩
  obtain ⟨h, hl, hdata, halive⟩ := hset_alive now b.store n ⟨n, u, c, now⟩
  simp only [AckStore.hincrby, AckStore.zadd, AckStore.expire, DashMap.lookup_modify, hl, DashMap.lookup_insert,
    Option.map_some, halive, if_true]
  split_ifs with hk
  · rw [hdata]
  · rw [AckStore.hset, DashMap.lookup_insert, if_neg hk]

theorem acknowledge_cases (n : Uuid) (u : String) :
    ((b.store.hget n now).any (fun e => decide (e.userId = u)) = true ∧
      ∃ stats, b.acknowledge n u now =
        (true, ⟨b.config, b.store.pending.erase n, b.store.timeout.erase n, stats⟩)) ∨
    ((b.store.hget n now).any (fun e => decide (e.userId = u)) = false ∧ b.acknowledge n u now = (false, b)) := by
  rw [acknowledge, if_pos henabled]
  cases b.store.hget n now with
  | none => exact .inr ⟨rfl, rfl⟩
  | some e =>
      by_cases hu : e.userId = u
      · exact .inl ⟨by simp [hu], _, by simp [hu]; rfl⟩
      · exact .inr ⟨by simp [hu], by simp [hu]⟩

/-- A clean-up deletes the hashes and the members that it finds. -/
theorem cleanupExpired_eq :
    ∃ store, b.cleanupExpired now = ((b.store.zrangebyscore now).length, { b with store := store }) ∧
      store.pending = (b.store.zrangebyscore now).foldl (fun m k => AList.erase k m) b.store.pending ∧
      store.timeout = (b.store.zrangebyscore now).foldl (fun m k => AList.erase k m) b.store.timeout := by
  have hfold : ∀ (ids : List Uuid) (s : AckStore), ids.foldl (fun s id => (s.del id).zrem id) s =
      ⟨ids.foldl (fun m k => AList.erase k m) s.pending, ids.foldl (fun m k => AList.erase k m) s.timeout,
        s.stats⟩ := by
    intro ids
    induction ids with
    | nil => exact fun _ => rfl
    | cons id ids ih => exact fun s => ih _
  rw [cleanupExpired, if_pos henabled]
  dsimp only
  rw [hfold]
  exact ⟨_, rfl, rfl, rfl⟩

end RedisAckBackend

/-! ### PostgreSQL -/

/-- The row of an entry; a track that was repeated may have brought another connection. -/
structure RowOf (config : AckConfig) (tenantId : String) (e : PendingAckInfo) (row : PendingAckRow) : Prop where
  tenant : row.tenantId = tenantId
  user : row.userId = e.userId
  sent : row.sentAt = e.sentAt
  expires : ∃ s, e.sentAt = .fromTimestamp s ∧ row.expiresAt = .fromTimestamp (s + asI64 config.timeoutSeconds)

/-- A row has expired when its entry has. -/
theorem RowOf.expired {config : AckConfig} {tenantId : String} {e : PendingAckInfo} {row : PendingAckRow}
    (h : RowOf config tenantId e row) (t : ℤ) :
    e.isExpired (.fromTimestamp t) config.timeoutSeconds = AckTables.expired tenantId (.fromTimestamp t) row := by
  obtain ⟨s, hsent, hexpires⟩ := h.expires
  rw [isExpired_fromTimestamp hsent, AckTables.expired, h.tenant, hexpires]
  simp only [fromTimestamp_le_iff, decide_true, Bool.true_and]

namespace PostgresAckBackend

/-- The table has the rows of the entries in memory. -/
structure Mirrors (config : AckConfig) (tenantId : String) (m : MemoryAckBackend) (b : PostgresAckBackend) :
    Prop where
  memory : m.config = config
  config_eq : b.config = config
  tenant : b.tenantId = tenantId
  rows : DashMap.Rel (RowOf config tenantId) m.pending b.db.pendingAcks

namespace Mirrors
variable {config : AckConfig} {tenantId : String} {m : MemoryAckBackend} {b : PostgresAckBackend}

theorem new (config : AckConfig) (tenantId : String) :
    Mirrors config tenantId (.new config) (.new config tenantId) :=
  ⟨rfl, rfl, rfl, .empty⟩

theorem track (h : Mirrors config tenantId m b) {i : Tick} {n : Uuid} {u : String} {c : Uuid}
    (hcall : i.call = .track n u c) (hok : Portable m i) :
    ∃ b', b.track n u c i.now i.now = some b' ∧ Mirrors config tenantId (m.track n u c i.now) b' := by
  obtain ⟨hm, hb, ht, hrows⟩ := h
  cases henabled : config.enabled with
  | false => exact ⟨b, by simp [PostgresAckBackend.track, hb, henabled], by
      simpa [MemoryAckBackend.track, hm, henabled] using ⟨hm, hb, ht, hrows⟩⟩
  | true =>
      have hportable := hok (hm ▸ henabled)
      rw [hcall, hm] at hportable
      obtain ⟨hpending, hdeadline, -⟩ := hportable
      obtain ⟨expiry, hexpiry⟩ := Option.isSome_iff_exists.mp hdeadline
      obtain ⟨db, heq, hdb⟩ := track_cases (b := b) (hb ▸ henabled) i.now n u c (hb ▸ hexpiry)
      refine ⟨_, heq, by rw [MemoryAckBackend.config_track, hm], hb, ht, ?_⟩
      rw [MemoryAckBackend.track_pending (hm ▸ henabled)]
      dsimp only
      rw [hdb, AckTables.insertPending]
      obtain ⟨-, hl'⟩ | ⟨e, row, hl, hl', hrow⟩ := hrows.lookup_cases n
      · rw [hl']
        exact hrows.insert n ⟨ht, rfl, rfl, i.seconds, rfl, expiresAt_fromTimestamp hexpiry⟩
      · -- the row stays, and the new entry is like the old one
        obtain ⟨hu, hsent⟩ := hpending e hl
        rw [hl']
        refine hrows.insert_left hl' ⟨hrow.tenant, hrow.user.trans hu, hrow.sent.trans hsent, ?_⟩
        obtain ⟨s, hs, hexpires⟩ := hrow.expires
        exact ⟨s, hsent.symm.trans hs, hexpires⟩

theorem acknowledge (h : Mirrors config tenantId m b) (n : Uuid) (u : String) (now : DateTime) :
    (m.acknowledge n u now).1 = (b.acknowledge n u now).1 ∧
      Mirrors config tenantId (m.acknowledge n u now).2 (b.acknowledge n u now).2 := by
  obtain ⟨hm, hb, ht, hrows⟩ := h
  cases henabled : config.enabled with
  | false => simpa [MemoryAckBackend.acknowledge, PostgresAckBackend.acknowledge, hm, hb, henabled] using
      ⟨hm, hb, ht, hrows⟩
  | true =>
      have hany := DashMap.Rel.rel_any (f := fun e => decide (e.userId = u))
        (g := fun row => decide (row.userId = u ∧ row.tenantId = b.tenantId)) (hrows n)
        (fun e row hrow => by rw [hrow.user, hrow.tenant, ht]; simp)
      obtain ⟨hf, stats, heq⟩ | ⟨hf, pending, heq, hsame⟩ :=
        MemoryAckBackend.acknowledge_cases (hm ▸ henabled) now n u
      · obtain ⟨-, ackStats, heq'⟩ | ⟨hg, -⟩ := acknowledge_cases (b := b) (hb ▸ henabled) now n u
        · rw [heq, heq']
          exact ⟨rfl, hm, hb, ht, hrows.erase n⟩
        · rw [hf, hg] at hany
          cases hany
      · obtain ⟨hg, -⟩ | ⟨-, heq'⟩ := acknowledge_cases (b := b) (hb ▸ henabled) now n u
        · rw [hf, hg] at hany
          cases hany
        · rw [heq, heq']
          exact ⟨rfl, hm, hb, ht, hrows.congr hsame (fun _ => rfl)⟩

theorem cleanupExpired (h : Mirrors config tenantId m b) (t : ℤ) :
    (m.cleanupExpired (.fromTimestamp t)).1 = (b.cleanupExpired (.fromTimestamp t)).1 ∧
      Mirrors config tenantId (m.cleanupExpired (.fromTimestamp t)).2 (b.cleanupExpired (.fromTimestamp t)).2 := by
  obtain ⟨hm, hb, rfl, hrows⟩ := h
  cases henabled : config.enabled with
  | false => simpa [MemoryAckBackend.cleanupExpired, PostgresAckBackend.cleanupExpired, hm, hb, henabled] using
      ⟨hm, hb, rfl, hrows⟩
  | true =>
      obtain ⟨db, heq, hdb⟩ := cleanupExpired_eq (b := b) (hb ▸ henabled) (.fromTimestamp t)
      rw [heq, MemoryAckBackend.cleanupExpired_count (hm ▸ henabled), hm]
      refine ⟨hrows.countP (fun e row hrow => hrow.expired t), ?_, hb, rfl, ?_⟩
      · rw [MemoryAckBackend.config_cleanupExpired, hm]
      · rw [MemoryAckBackend.cleanupExpired_pending (hm ▸ henabled), hm]
        dsimp only
        rw [hdb]
        exact hrows.retain (fun e row hrow => by rw [hrow.expired t])

theorem pendingCount (h : Mirrors config tenantId m b) : m.pendingCount = b.pendingCount := by
  obtain ⟨hm, hb, rfl, hrows⟩ := h
  rw [MemoryAckBackend.pendingCount, DashMap.len_eq_countP]
  exact hrows.countP (fun e row hrow => by simp [hrow.tenant])

/-- Each portable call has the same answer and keeps the table as the entries in memory. -/
theorem tick (h : Mirrors config tenantId m b) {i : Tick} (hok : Portable m i) :
    (m.tick i).1 = (b.tick i).1 ∧ Mirrors config tenantId (m.tick i).2 (b.tick i).2 := by
  unfold MemoryAckBackend.tick PostgresAckBackend.tick MemoryAckBackend.answer PostgresAckBackend.answer
  dsimp only [Tick.input]
  cases hcall : i.call with
  | track n u c =>
      obtain ⟨b', heq, hnext⟩ := h.track hcall hok
      dsimp only
      rw [heq]
      exact ⟨rfl, hnext⟩
  | acknowledge n u =>
      obtain ⟨hvalid, hnext⟩ := h.acknowledge n u i.now
      exact ⟨congrArg _ hvalid, hnext⟩
  | cleanupExpired =>
      obtain ⟨hcount, hnext⟩ := h.cleanupExpired i.seconds
      exact ⟨congrArg _ hcount, hnext⟩
  | pendingCount => exact ⟨congrArg _ h.pendingCount, h⟩

end Mirrors

end PostgresAckBackend

/-! ### Redis -/

/-- The hash of an entry. -/
def HashOf (config : AckConfig) (e : PendingAckInfo) (h : PendingHash) : Prop :=
  h = ⟨e, some (e.sentAt + (asI64 config.timeoutSeconds + 60) * nanosPerSecond)⟩

/-- The score of an entry. -/
def ScoreOf (config : AckConfig) (e : PendingAckInfo) (score : ℤ) : Prop :=
  0 ≤ score ∧ ∃ s, e.sentAt = .fromTimestamp s ∧ score = s + asI64 config.timeoutSeconds

/-- A score is found when its entry has expired. -/
theorem ScoreOf.found {config : AckConfig} {e : PendingAckInfo} {score : ℤ} (h : ScoreOf config e score) (t : ℤ) :
    e.isExpired (.fromTimestamp t) config.timeoutSeconds =
      decide (0 ≤ score ∧ score ≤ DateTime.timestamp (.fromTimestamp t)) := by
  obtain ⟨hnonneg, s, hsent, rfl⟩ := h
  rw [isExpired_fromTimestamp hsent, timestamp_fromTimestamp]
  simp only [hnonneg, true_and]

namespace AckStore
variable (s : AckStore) (now : DateTime)

theorem length_zrangebyscore : (s.zrangebyscore now).length =
    s.timeout.values.countP (fun score => decide (0 ≤ score ∧ score ≤ now.timestamp)) := by
  rw [zrangebyscore, List.length_map, DashMap.values, List.countP_map, List.countP_eq_length_filter]
  rfl

theorem mem_zrangebyscore (n : Uuid) : n ∈ s.zrangebyscore now ↔
    (s.timeout.lookup n).any (fun score => decide (0 ≤ score ∧ score ≤ now.timestamp)) = true := by
  have hkeys : s.zrangebyscore now =
      (DashMap.retain s.timeout (fun score => decide (0 ≤ score ∧ score ≤ now.timestamp))).keys := rfl
  rw [hkeys, ← AList.mem_keys, ← AList.lookup_isSome, DashMap.lookup_retain, Option.isSome_filter]

end AckStore

namespace RedisAckBackend

/-- The hashes and the scores are those of the entries in memory. -/
structure Mirrors (config : AckConfig) (m : MemoryAckBackend) (b : RedisAckBackend) : Prop where
  memory : m.config = config
  config_eq : b.config = config
  hashes : DashMap.Rel (HashOf config) m.pending b.store.pending
  scores : DashMap.Rel (ScoreOf config) m.pending b.store.timeout

namespace Mirrors
variable {config : AckConfig} {m : MemoryAckBackend} {b : RedisAckBackend}

theorem new (config : AckConfig) : Mirrors config (.new config) (.new config) := ⟨rfl, rfl, .empty, .empty⟩

theorem track (h : Mirrors config m b) {i : Tick} {n : Uuid} {u : String} {c : Uuid}
    (hcall : i.call = .track n u c) (hok : Portable m i) :
    Mirrors config (m.track n u c i.now) (b.track n u c i.now) := by
  obtain ⟨hm, hb, hhashes, hscores⟩ := h
  cases henabled : config.enabled with
  | false => simpa [MemoryAckBackend.track, RedisAckBackend.track, hm, hb, henabled] using
      ⟨hm, hb, hhashes, hscores⟩
  | true =>
      have hportable := hok (hm ▸ henabled)
      rw [hcall, hm] at hportable
      obtain ⟨-, -, hnonneg⟩ := hportable
      obtain ⟨store, heq, hpending, htimeout⟩ := track_eq (b := b) (hb ▸ henabled) i.now n u c
      rw [heq]
      refine ⟨by rw [MemoryAckBackend.config_track, hm], hb, ?_, ?_⟩
      · rw [MemoryAckBackend.track_pending (hm ▸ henabled)]
        refine (hhashes.insert n ?_).congr (fun _ => rfl) hpending
        rw [HashOf, ttl, hb]
      · rw [MemoryAckBackend.track_pending (hm ▸ henabled)]
        dsimp only
        rw [htimeout]
        refine hscores.insert n ?_
        rw [expiryTimestamp, hb, Tick.now, timestamp_fromTimestamp]
        exact ⟨hnonneg, i.seconds, rfl, rfl⟩

theorem acknowledge (h : Mirrors config m b) {i : Tick} {n : Uuid} {u : String} (hcall : i.call = .acknowledge n u)
    (hok : Portable m i) :
    (m.acknowledge n u i.now).1 = (b.acknowledge n u i.now).1 ∧
      Mirrors config (m.acknowledge n u i.now).2 (b.acknowledge n u i.now).2 := by
  obtain ⟨hm, hb, hhashes, hscores⟩ := h
  cases henabled : config.enabled with
  | false => simpa [MemoryAckBackend.acknowledge, RedisAckBackend.acknowledge, hm, hb, henabled] using
      ⟨hm, hb, hhashes, hscores⟩
  | true =>
      have hportable := hok (hm ▸ henabled)
      rw [hcall, hm] at hportable
      have hany : (m.pending.lookup n).any (fun e => decide (e.userId = u)) =
          (b.store.hget n i.now).any (fun e => decide (e.userId = u)) := by
        rw [AckStore.hget]
        obtain ⟨hl, hl'⟩ | ⟨e, hash, hl, hl', rfl⟩ := hhashes.lookup_cases n
        · rw [hl, hl']
          rfl
        · rw [hl, hl', Option.filter_some, PendingHash.alive]
          by_cases hu : e.userId = u
          · simp [hu, hportable e hl hu]
          · split_ifs <;> simp [hu]
      obtain ⟨hf, stats, heq⟩ | ⟨hf, pending, heq, hsame⟩ :=
        MemoryAckBackend.acknowledge_cases (hm ▸ henabled) i.now n u
      · obtain ⟨-, stats', heq'⟩ | ⟨hg, -⟩ := acknowledge_cases (b := b) (hb ▸ henabled) i.now n u
        · rw [heq, heq']
          exact ⟨rfl, hm, hb, hhashes.erase n, hscores.erase n⟩
        · rw [hf, hg] at hany
          cases hany
      · obtain ⟨hg, -⟩ | ⟨-, heq'⟩ := acknowledge_cases (b := b) (hb ▸ henabled) i.now n u
        · rw [hf, hg] at hany
          cases hany
        · rw [heq, heq']
          exact ⟨rfl, hm, hb, hhashes.congr hsame (fun _ => rfl), hscores.congr hsame (fun _ => rfl)⟩

theorem cleanupExpired (h : Mirrors config m b) (t : ℤ) :
    (m.cleanupExpired (.fromTimestamp t)).1 = (b.cleanupExpired (.fromTimestamp t)).1 ∧
      Mirrors config (m.cleanupExpired (.fromTimestamp t)).2 (b.cleanupExpired (.fromTimestamp t)).2 := by
  obtain ⟨hm, hb, hhashes, hscores⟩ := h
  cases henabled : config.enabled with
  | false => simpa [MemoryAckBackend.cleanupExpired, RedisAckBackend.cleanupExpired, hm, hb, henabled] using
      ⟨hm, hb, hhashes, hscores⟩
  | true =>
      obtain ⟨store, heq, hpending, htimeout⟩ := cleanupExpired_eq (b := b) (hb ▸ henabled) (.fromTimestamp t)
      have hfound : ∀ k, k ∈ b.store.zrangebyscore (.fromTimestamp t) ↔
          (m.pending.lookup k).any (fun e => e.isExpired (.fromTimestamp t) config.timeoutSeconds) = true := by
        intro k
        rw [AckStore.mem_zrangebyscore, DashMap.Rel.rel_any (hscores k) (fun e score hscore => hscore.found t)]
      rw [heq, MemoryAckBackend.cleanupExpired_count (hm ▸ henabled), hm, AckStore.length_zrangebyscore]
      refine ⟨hscores.countP (fun e score hscore => hscore.found t), ?_, hb, ?_, ?_⟩
      · rw [MemoryAckBackend.config_cleanupExpired, hm]
      · rw [MemoryAckBackend.cleanupExpired_pending (hm ▸ henabled), hm]
        dsimp only
        rw [hpending]
        exact hhashes.retain_erase hfound
      · rw [MemoryAckBackend.cleanupExpired_pending (hm ▸ henabled), hm]
        dsimp only
        rw [htimeout]
        exact hscores.retain_erase hfound

/-- Each portable call has the same answer and keeps the keys as the entries in memory. -/
theorem tick (h : Mirrors config m b) {i : Tick} (hok : Portable m i) :
    (m.tick i).1 = (b.tick i).1 ∧ Mirrors config (m.tick i).2 (b.tick i).2 := by
  unfold MemoryAckBackend.tick RedisAckBackend.tick MemoryAckBackend.answer RedisAckBackend.answer
  dsimp only [Tick.input]
  cases hcall : i.call with
  | track n u c => exact ⟨rfl, h.track hcall hok⟩
  | acknowledge n u =>
      obtain ⟨hvalid, hnext⟩ := h.acknowledge hcall hok
      exact ⟨congrArg _ hvalid, hnext⟩
  | cleanupExpired =>
      obtain ⟨hcount, hnext⟩ := h.cleanupExpired i.seconds
      exact ⟨congrArg _ hcount, hnext⟩
  | pendingCount => exact ⟨congrArg _ h.scores.len, h⟩

end Mirrors

end RedisAckBackend

/-! ### Whole histories -/

/-- **The backends are interchangeable** on portable calls: over a whole history, whatever the
users, connections and notifications, the three give the same answers. -/
theorem answers_agree {config : AckConfig} {tenantId : String} {t : ℤ} {is : List Tick}
    (hclock : Runs.Clocked Tick.seconds t is)
    (hok : Runs.Admissible MemoryAckBackend.tick Portable (.new config) is) :
    Runs.outputs MemoryAckBackend.tick (.new config) is =
        Runs.outputs PostgresAckBackend.tick (.new config tenantId) is ∧
      Runs.outputs MemoryAckBackend.tick (.new config) is = Runs.outputs RedisAckBackend.tick (.new config) is := by
  constructor
  · exact Runs.outputs_eq_of_simulation (R := fun _ => PostgresAckBackend.Mirrors config tenantId) (.new _ _)
      hclock hok (fun _ _ _ _ h _ hok => h.tick hok)
  · exact Runs.outputs_eq_of_simulation (R := fun _ => RedisAckBackend.Mirrors config) (.new _) hclock hok
      (fun _ _ _ _ h _ hok => h.tick hok)

section examples

def halfMinute : AckConfig := ⟨true, 30, 60⟩

/-- One notification is acknowledged, by the wrong user first, another one expires. -/
def portableCalls : List Tick :=
  [⟨0, .track 7 "alice" 1⟩, ⟨0, .track 8 "bob" 2⟩, ⟨5, .acknowledge 7 "bob"⟩, ⟨5, .acknowledge 7 "alice"⟩,
    ⟨29, .cleanupExpired⟩, ⟨30, .pendingCount⟩, ⟨30, .cleanupExpired⟩, ⟨31, .pendingCount⟩]

theorem answers_agree_portable :
    Runs.outputs MemoryAckBackend.tick (.new halfMinute) portableCalls =
        [.tracked, .tracked, .acknowledged false, .acknowledged true, .expired 0, .pending 1, .expired 1,
          .pending 0] ∧
      Runs.outputs MemoryAckBackend.tick (.new halfMinute) portableCalls =
        Runs.outputs PostgresAckBackend.tick (.new halfMinute "acme") portableCalls ∧
      Runs.outputs MemoryAckBackend.tick (.new halfMinute) portableCalls =
        Runs.outputs RedisAckBackend.tick (.new halfMinute) portableCalls :=
  ⟨by decide +kernel, answers_agree (t := 0) (by decide +kernel) (by decide +kernel)⟩

/-- A notification tracked for `alice` and then for `bob` is still `alice`'s in PostgreSQL only. -/
theorem answers_differ :
    ¬ ∀ (config : AckConfig) (tenantId : String) (t : ℤ) (is : List Tick), Runs.Clocked Tick.seconds t is →
        Runs.outputs MemoryAckBackend.tick (.new config) is =
            Runs.outputs PostgresAckBackend.tick (.new config tenantId) is ∧
          Runs.outputs MemoryAckBackend.tick (.new config) is = Runs.outputs RedisAckBackend.tick (.new config) is := by
  intro hall
  have hagree := (hall halfMinute "acme" 0
    [⟨0, .track 7 "alice" 1⟩, ⟨0, .track 7 "bob" 2⟩, ⟨0, .acknowledge 7 "alice"⟩] (by decide +kernel)).1
  revert hagree
  decide +kernel

end examples

end AraNotification
