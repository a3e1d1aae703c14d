import AraNotification.Lib.InvertedIndex
import AraNotification.Basic

/-! # The in-memory tracker of acknowledgements

`MemoryAckBackend` keeps, for every notification that was put on a connection, one pending
entry with the user who has to acknowledge it.  A later `track` of the same notification
replaces the entry.  `acknowledge` takes the entry out and puts it back when the
acknowledging user is another one.  `cleanupExpired` removes the entries that have been
pending for longer than the timeout.  Clock readings are arguments. -/

namespace AraNotification

/-- Configuration for ACK tracking. -/
structure AckConfig where
  enabled : Bool
  timeoutSeconds : ℕ
  cleanupIntervalSeconds : ℕ
deriving DecidableEq, Repr

/-- Information about a pending ACK. -/
structure PendingAckInfo where
  notificationId : Uuid
  userId : String
  connectionId : Uuid
  sentAt : DateTime
deriving DecidableEq, Repr

/-- Check if this pending ACK has expired based on the given timeout. -/
def PendingAckInfo.isExpired (p : PendingAckInfo) (now : DateTime) (timeoutSeconds : ℕ) : Bool :=
  decide (Duration.numSeconds (now - p.sentAt) ≥ asI64 timeoutSeconds)

/-- Latency in milliseconds since the notification was sent. -/
def PendingAckInfo.latencyMs (p : PendingAckInfo) (now : DateTime) : ℕ :=
  (max (Int.tdiv (now - p.sentAt) 1000000) 0).toNat

/-- Statistics for ACK tracking. -/
structure AckStats where
  totalTracked : ℕ
  totalAcked : ℕ
  totalExpired : ℕ
  totalLatencyMs : ℕ
deriving DecidableEq, Repr

/-- In-memory ACK tracking backend. -/
structure MemoryAckBackend where
  config : AckConfig
  pending : DashMap Uuid PendingAckInfo
  stats : AckStats

namespace MemoryAckBackend

def new (config : AckConfig) : MemoryAckBackend := ⟨config, ∅, ⟨0, 0, 0, 0⟩⟩

variable (b : MemoryAckBackend)

/-- Track a notification that was put on a connection. -/
def track (notificationId : Uuid) (userId : String) (connectionId : Uuid) (now : DateTime) :
    MemoryAckBackend :=
  if b.config.enabled then
    { b with
      pending := b.pending.insert notificationId ⟨notificationId, userId, connectionId, now⟩
      stats := { b.stats with totalTracked := b.stats.totalTracked + 1 } }
  else b

/-- Acknowledge a notification; `false` for an unknown one or another user's. -/
def acknowledge (notificationId : Uuid) (userId : String) (now : DateTime) :
    Bool × MemoryAckBackend :=
  if b.config.enabled then
    match b.pending.lookup notificationId with
    | none => (false, b)
    | some p =>
        if p.userId ≠ userId then
          (false, { b with
            pending := AList.insert notificationId p (b.pending.erase notificationId) })
        else
          (true, { b with
            pending := b.pending.erase notificationId
            stats := { b.stats with
              totalAcked := b.stats.totalAcked + 1
              totalLatencyMs := b.stats.totalLatencyMs + p.latencyMs now } })
  else (false, b)

/-- Remove expired pending ACKs; the number of entries removed. -/
def cleanupExpired (now : DateTime) : ℕ × MemoryAckBackend :=
  if b.config.enabled then
    let retained := DashMap.retain b.pending (fun p => !p.isExpired now b.config.timeoutSeconds)
    let expired := b.pending.len - retained.len
    (expired, { b with
      pending := retained
      stats := { b.stats with totalExpired := b.stats.totalExpired + expired } })
  else (0, b)

/-! ### Pending entries -/

section pending
variable {b : MemoryAckBackend} {n n' : Uuid} {u : String} {id : Uuid} {now : DateTime}

@[simp] theorem config_track : (b.track n u id now).config = b.config := by
  unfold track
  split_ifs <;> rfl

@[simp] theorem config_acknowledge : (b.acknowledge n u now).2.config = b.config := by
  unfold acknowledge
  split_ifs
  · split
    · rfl
    · split_ifs <;> rfl
  · rfl

@[simp] theorem config_cleanupExpired : (b.cleanupExpired now).2.config = b.config := by
  unfold cleanupExpired
  split_ifs <;> rfl

section calls
variable (henabled : b.config.enabled = true) (now : DateTime)
include henabled

theorem track_pending (n : Uuid) (u : String) (c : Uuid) :
    (b.track n u c now).pending = b.pending.insert n ⟨n, u, c, now⟩ := by
  rw [track, if_pos henabled]

/-- An acknowledgement by the user of an entry takes it out; another one changes nothing. -/
theorem acknowledge_cases (n : Uuid) (u : String) :
    ((b.pending.lookup n).any (fun e => decide (e.userId = u)) = true ∧
      ∃ stats, b.acknowledge n u now = (true, ⟨b.config, b.pending.erase n, stats⟩)) ∨
    ((b.pending.lookup n).any (fun e => decide (e.userId = u)) = false ∧
      ∃ pending, b.acknowledge n u now = (false, ⟨b.config, pending, b.stats⟩) ∧
        ∀ k, pending.lookup k = b.pending.lookup k) := by
  rw [acknowledge, if_pos henabled]
  cases hl : b.pending.lookup n with
  | none => exact .inr ⟨rfl, b.pending, rfl, fun _ => rfl⟩
  | some e =>
      by_cases hu : e.userId = u
      · exact .inl ⟨by simp [hu], _, by simp only [hu, ne_eq, not_true_eq_false, if_false]; rfl⟩
      · refine .inr ⟨by simp [hu], AList.insert n e (b.pending.erase n), by simp [hu], fun k => ?_⟩
        rw [DashMap.lookup_insert, DashMap.lookup_erase]
        split_ifs with hk
        · rw [hk, hl]
        · rfl

theorem cleanupExpired_pending :
    (b.cleanupExpired now).2.pending =
      DashMap.retain b.pending (fun e => !e.isExpired now b.config.timeoutSeconds) := by
  rw [cleanupExpired, if_pos henabled]

theorem cleanupExpired_count :
    (b.cleanupExpired now).1 = b.pending.values.countP (fun e => e.isExpired now b.config.timeoutSeconds) := by
  have hsum := DashMap.countP_retain_add (f := fun _ => true) b.pending
    (fun e => !e.isExpired now b.config.timeoutSeconds)
  simp only [← DashMap.len_eq_countP, Bool.true_and, Bool.not_not] at hsum
  rw [cleanupExpired, if_pos henabled]
  dsimp only
  omega

end calls

theorem pending_track (h : b.config.enabled = true) :
    (b.track n u id now).pending.lookup n' =
      if n' = n then some ⟨n, u, id, now⟩ else b.pending.lookup n' := by
  rw [track_pending h]
  exact DashMap.lookup_insert _ _ _ _

/-- An acknowledgement takes out the entry of its notification when it is for its user. -/
theorem pending_acknowledge (h : b.config.enabled = true) :
    (b.acknowledge n u now).2.pending.lookup n' =
      if n' = n then (b.pending.lookup n).filter (fun p => decide (p.userId ≠ u))
      else b.pending.lookup n' := by
  obtain ⟨hfound, stats, heq⟩ | ⟨hfound, pending, heq, hsame⟩ := acknowledge_cases h now n u
  · rw [heq, DashMap.lookup_erase]
    split_ifs
    · cases hl : b.pending.lookup n with
      | none => rfl
      | some p =>
          have hu : p.userId = u := by simpa [hl] using hfound
          rw [Option.filter_some, if_neg (by simp [hu])]
    · rfl
  · rw [heq, hsame]
    split_ifs with hn
    · rw [hn]
      cases hl : b.pending.lookup n with
      | none => rfl
      | some p =>
          have hu : p.userId ≠ u := by simpa [hl] using hfound
          rw [Option.filter_some, if_pos (by simp [hu])]
    · rfl

/-- An acknowledgement succeeds when the entry of its notification is for its user. -/
theorem acknowledge_eq_true_iff (h : b.config.enabled = true) :
    (b.acknowledge n u now).1 = true ↔ ∃ p, b.pending.lookup n = some p ∧ p.userId = u := by
  obtain ⟨hfound, stats, heq⟩ | ⟨hfound, pending, heq, -⟩ := acknowledge_cases h now n u
  · simpa [heq, Option.any_eq_true] using hfound
  · simpa [heq, Option.any_eq_false] using hfound

theorem pending_cleanupExpired (h : b.config.enabled = true) :
    (b.cleanupExpired now).2.pending.lookup n =
      (b.pending.lookup n).filter (fun p => !p.isExpired now b.config.timeoutSeconds) := by
  rw [cleanupExpired_pending h]
  exact DashMap.lookup_retain _ _ _

end pending

end MemoryAckBackend

end AraNotification
