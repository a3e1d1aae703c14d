import AraNotification.AckBackends
import AraNotification.Lib.Runs

/-! # The accounts of acknowledgements

A tracker counts what it has tracked, what was acknowledged and what has expired, and reports
with them the number of pending entries.  Every tracked notification should be in exactly one
of the three other numbers (`Balanced`).

An acknowledgement moves one entry from pending to acknowledged and a clean-up moves some to
expired.  A track adds one to the first number, but an entry only if its notification was not
pending: the in-memory backend replaces the entry, the table keeps the old row.  So the
accounts are short by the number of repeated tracks (`Excess`), and balance after a sequence
of calls exactly when there was none (`balanced_iff`). -/

namespace AraNotification

namespace AckBackendStats

/-- Every tracked notification is acknowledged, expired or pending. -/
def Balanced (s : AckBackendStats) : Prop := s.totalTracked = s.totalAcked + s.totalExpired + s.pendingCount

/-- More has been tracked than is accounted for. -/
def Excess (s : AckBackendStats) (e : ℕ) : Prop :=
  s.totalTracked = s.totalAcked + s.totalExpired + s.pendingCount + e

instance (s : AckBackendStats) : Decidable s.Balanced := inferInstanceAs (Decidable (_ = _))

end AckBackendStats

/-- When each repeated track adds one to the excess and no other call changes it, the accounts
balance at the end exactly when there was no excess and no repeated track. -/
theorem balanced_final_iff {σ : Type} {step : σ → AckInput → AckReply × σ} {stats : σ → AckBackendStats}
    {repeated : σ → AckInput → Bool}
    (hstep : ∀ s i e, (stats s).Excess e → (stats (step s i).2).Excess (e + if repeated s i then 1 else 0))
    (calls : List AckInput) {s : σ} {e : ℕ} (he : (stats s).Excess e) :
    (stats (Runs.final step s calls)).Balanced ↔
      e = 0 ∧ Runs.Admissible step (fun s i => repeated s i = false) s calls := by
  induction calls generalizing s e with
  | nil =>
      unfold AckBackendStats.Excess at he
      unfold AckBackendStats.Balanced
      simp only [Runs.final, Runs.Admissible, and_true]
      omega
  | cons i calls ih =>
      rw [Runs.final, ih (hstep s i e he), Runs.Admissible]
      cases repeated s i with
      | false => simp
      | true => simp

/-! ### The in-memory backend -/

namespace MemoryAckBackend
variable {b : MemoryAckBackend} {e : ℕ}

/-- A track of a notification that is pending. -/
def repeats (b : MemoryAckBackend) (i : AckInput) : Bool :=
  match i.call with
  | .track n _ _ => b.config.enabled && (b.pending.lookup n).isSome
  | _ => false

theorem excess_track (he : b.backendStats.Excess e) (n : Uuid) (u : String) (c : Uuid) (now : DateTime) :
    (b.track n u c now).backendStats.Excess
      (e + if b.config.enabled && (b.pending.lookup n).isSome then 1 else 0) := by
  unfold AckBackendStats.Excess backendStats pendingCount at he ⊢
  unfold track
  dsimp only at he
  cases henabled : b.config.enabled with
  | false => simpa using he
  | true =>
      simp only [if_true, Bool.true_and]
      rw [DashMap.len_insert]
      split_ifs
      · omega
      · omega

theorem excess_acknowledge (he : b.backendStats.Excess e) (n : Uuid) (u : String) (now : DateTime) :
    (b.acknowledge n u now).2.backendStats.Excess e := by
  unfold AckBackendStats.Excess backendStats pendingCount at he ⊢
  unfold acknowledge
  dsimp only at he
  split_ifs
  · cases hl : b.pending.lookup n with
    | none => exact he
    | some p =>
        have hlen := DashMap.len_erase_of_lookup_some hl
        dsimp only
        split_ifs
        · -- the entry of another user is put back
          have hback : DashMap.len (AList.insert n p (AList.erase n b.pending)) = b.pending.len := by
            rw [DashMap.len_insert, AList.lookup_erase]
            exact hlen
          dsimp only
          rw [hback]
          exact he
        · dsimp only
          omega
  · exact he

theorem excess_cleanupExpired (he : b.backendStats.Excess e) (now : DateTime) :
    (b.cleanupExpired now).2.backendStats.Excess e := by
  unfold AckBackendStats.Excess backendStats pendingCount at he ⊢
  unfold cleanupExpired
  dsimp only at he
  split_ifs
  · have hle := DashMap.len_retain_le b.pending (fun p => !p.isExpired now b.config.timeoutSeconds)
    dsimp only
    omega
  · exact he

theorem excess_answer (b : MemoryAckBackend) (i : AckInput) (e : ℕ) (he : b.backendStats.Excess e) :
    (b.answer i).2.backendStats.Excess (e + if b.repeats i then 1 else 0) := by
  obtain ⟨call, now, dbNow⟩ := i
  cases call with
  | track n u c => exact excess_track he n u c now
  | acknowledge n u => exact excess_acknowledge he n u now
  | cleanupExpired => exact excess_cleanupExpired he now
  | pendingCount => exact he

end MemoryAckBackend

/-! ### The PostgreSQL backend -/

namespace PostgresAckBackend
variable {b : PostgresAckBackend} {e : ℕ}

/-- A track, with a deadline in range, of a notification that has a row, of whichever tenant. -/
def repeats (b : PostgresAckBackend) (i : AckInput) : Bool :=
  match i.call with
  | .track n _ _ =>
      b.config.enabled && (expiresAt i.now b.config.timeoutSeconds).isSome &&
        (b.db.pendingAcks.lookup n).isSome
  | _ => false

/-- The counters after an update of the statistics. -/
theorem stats_upsert (b : PostgresAckBackend) (db : AckTables) (hs : db.ackStats = b.db.ackStats)
    (tracked acked expired latencyMs : ℕ) :
    stats { b with db := db.upsertAckStats b.tenantId tracked acked expired latencyMs } =
      ⟨b.stats.totalTracked + tracked, b.stats.totalAcked + acked, b.stats.totalExpired + expired,
        db.countPending b.tenantId⟩ := by
  unfold stats AckTables.upsertAckStats pendingCount AckTables.countPending
  dsimp only
  rw [DashMap.lookup_insert, if_pos rfl, hs]
  rfl

theorem countPending_insertPending (db : AckTables) (n : Uuid) (row : PendingAckRow) :
    (db.insertPending n row).countPending row.tenantId =
      db.countPending row.tenantId + if (db.pendingAcks.lookup n).isSome then 0 else 1 := by
  unfold AckTables.insertPending AckTables.countPending
  cases h : db.pendingAcks.lookup n with
  | some _ => rfl
  | none =>
      rw [DashMap.countP_insert row h]
      simp

theorem excess_track {b' : PostgresAckBackend} (he : b.stats.Excess e) {n : Uuid} {u : String} {c : Uuid}
    {now dbNow : DateTime} (h : b.track n u c now dbNow = some b') :
    b'.stats.Excess (e + if b.config.enabled && (expiresAt now b.config.timeoutSeconds).isSome &&
      (b.db.pendingAcks.lookup n).isSome then 1 else 0) := by
  unfold track at h
  cases henabled : b.config.enabled with
  | false =>
      rw [henabled] at h
      simp only [Bool.false_eq_true, if_false, Option.some.injEq] at h
      subst h
      simpa using he
  | true =>
      rw [henabled, if_pos rfl] at h
      obtain ⟨expiry, hexpiry, rfl⟩ := Option.map_eq_some_iff.mp h
      have hrows := countPending_insertPending b.db n ⟨b.tenantId, u, c, dbNow, expiry⟩
      have hstats : (b.db.insertPending n ⟨b.tenantId, u, c, dbNow, expiry⟩).ackStats = b.db.ackStats := by
        unfold AckTables.insertPending
        split <;> rfl
      rw [stats_upsert b _ hstats, hexpiry]
      unfold AckBackendStats.Excess at he ⊢
      simp only [Bool.true_and, Option.isSome_some] at hrows ⊢
      rw [hrows]
      unfold stats pendingCount at he
      dsimp only [stats] at he ⊢
      split_ifs at hrows ⊢ <;> omega

theorem excess_acknowledge (he : b.stats.Excess e) (n : Uuid) (u : String) (now : DateTime) :
    (b.acknowledge n u now).2.stats.Excess e := by
  unfold acknowledge
  split_ifs
  · unfold AckTables.deletePending
    cases hl : b.db.pendingAcks.lookup n with
    | none => exact he
    | some row =>
        dsimp only
        by_cases hrow : row.userId = u ∧ row.tenantId = b.tenantId
        · rw [if_pos hrow]
          dsimp only
          rw [stats_upsert b { b.db with pendingAcks := b.db.pendingAcks.erase n } rfl]
          have hcount := DashMap.countP_erase (f := fun r : PendingAckRow => decide (r.tenantId = b.tenantId)) hl
          simp only [hrow.2, decide_true, if_true] at hcount
          unfold AckBackendStats.Excess stats pendingCount AckTables.countPending at *
          dsimp only at *
          omega
        · rw [if_neg hrow]
          exact he
  · exact he

theorem excess_cleanupExpired (he : b.stats.Excess e) (dbNow : DateTime) :
    (b.cleanupExpired dbNow).2.stats.Excess e := by
  unfold cleanupExpired
  split_ifs
  · unfold AckTables.deleteExpired
    have hcount := DashMap.countP_retain_add
      (f := fun r : PendingAckRow => decide (r.tenantId = b.tenantId)) b.db.pendingAcks
      (fun row => !AckTables.expired b.tenantId dbNow row)
    have hexpired : (fun r : PendingAckRow => decide (r.tenantId = b.tenantId) &&
        !!AckTables.expired b.tenantId dbNow r) = AckTables.expired b.tenantId dbNow := by
      funext r
      by_cases hr : r.tenantId = b.tenantId <;> simp [AckTables.expired, hr]
    rw [hexpired] at hcount
    obtain ⟨kept, hkept⟩ : ∃ kept, DashMap.retain b.db.pendingAcks
        (fun row => !AckTables.expired b.tenantId dbNow row) = kept := ⟨_, rfl⟩
    rw [hkept] at hcount
    dsimp only
    rw [hkept]
    split_ifs
    · rw [stats_upsert b ⟨kept, b.db.ackStats⟩ rfl]
      unfold AckBackendStats.Excess stats pendingCount AckTables.countPending at *
      dsimp only at *
      omega
    · unfold AckBackendStats.Excess stats pendingCount AckTables.countPending at *
      dsimp only at *
      omega
  · exact he

theorem excess_answer (b : PostgresAckBackend) (i : AckInput) (e : ℕ) (he : b.stats.Excess e) :
    (b.answer i).2.stats.Excess (e + if b.repeats i then 1 else 0) := by
  obtain ⟨call, now, dbNow⟩ := i
  cases call with
  | track n u c =>
      simp only [answer, repeats]
      cases htrack : b.track n u c now dbNow with
      | some b' => exact excess_track he htrack
      | none =>
          have hpanic : expiresAt now b.config.timeoutSeconds = none := by
            unfold track at htrack
            split_ifs at htrack
            exact Option.map_eq_none_iff.mp htrack
          simpa [hpanic] using he
  | acknowledge n u => exact excess_acknowledge he n u now
  | cleanupExpired => exact excess_cleanupExpired he dbNow
  | pendingCount => exact he

end PostgresAckBackend

/-- **The accounts balance exactly when no notification was tracked while it was pending.**  For
both backends, any calls with any clock readings, from any states in which the accounts
balance. -/
theorem balanced_iff {m : MemoryAckBackend} {p : PostgresAckBackend} (hm : m.backendStats.Balanced)
    (hp : p.stats.Balanced) (calls : List AckInput) :
    ((Runs.final MemoryAckBackend.answer m calls).backendStats.Balanced ↔
      Runs.Admissible MemoryAckBackend.answer (fun b i => b.repeats i = false) m calls) ∧
    ((Runs.final PostgresAckBackend.answer p calls).stats.Balanced ↔
      Runs.Admissible PostgresAckBackend.answer (fun b i => b.repeats i = false) p calls) := by
  constructor
  · simpa using balanced_final_iff MemoryAckBackend.excess_answer calls (e := 0) hm
  · simpa using balanced_final_iff PostgresAckBackend.excess_answer calls (e := 0) hp

/-! ### One notification on two connections -/

section examples

/-- The dispatcher tracks a notification once for each connection that took it. -/
def fanOut : List AckInput :=
  [⟨.track 7 "alice" 1, 0, 0⟩, ⟨.track 7 "alice" 2, 0, 0⟩, ⟨.acknowledge 7 "alice", 0, 0⟩]

def trackerConfig : AckConfig := ⟨true, 30, 60⟩

/-- Two notifications for two users, one of which is acknowledged and one expires. -/
theorem balanced_two_users :
    let calls : List AckInput :=
      [⟨.track 7 "alice" 1, 0, 0⟩, ⟨.track 8 "bob" 2, 0, 0⟩, ⟨.acknowledge 7 "bob", 0, 0⟩,
        ⟨.acknowledge 7 "alice", 0, 0⟩, ⟨.cleanupExpired, 30000000000, 30000000000⟩]
    (Runs.final MemoryAckBackend.answer (.new trackerConfig) calls).backendStats.Balanced ∧
      (Runs.final PostgresAckBackend.answer (.new trackerConfig "default") calls).stats.Balanced := by
  intro calls
  have hiff := balanced_iff (m := .new trackerConfig) (p := .new trackerConfig "default") rfl rfl calls
  refine ⟨hiff.1.mpr ?_, hiff.2.mpr ?_⟩
  · decide
  · decide

/-- After the acknowledgement one tracked notification is in no account. -/
theorem fanOut_not_balanced :
    ¬ ((∀ (config : AckConfig) (calls : List AckInput),
        (Runs.final MemoryAckBackend.answer (.new config) calls).backendStats.Balanced) ∧
      ∀ (config : AckConfig) (tenantId : String) (calls : List AckInput),
        (Runs.final PostgresAckBackend.answer (.new config tenantId) calls).stats.Balanced) := by
  rintro ⟨hmemory, -⟩
  exact absurd (hmemory trackerConfig fanOut) (by decide)

end examples

end AraNotification
