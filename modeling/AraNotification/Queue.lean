import AraNotification.Lib.InvertedIndex
import AraNotification.Notification

/-! # The in-memory queue of offline messages

`MemoryQueueBackend` keeps a bounded queue of messages for every key.  `enqueue` drops the
oldest message of a full queue before it appends the new one; `drain` takes the whole queue
of a key and returns the messages that have not outlived the queue's own TTL.  The
identifier and the clock readings that the original draws are arguments; all messages of one
`drain` are compared with the same reading.

`cleanupExpired` goes through the keys present at its start and removes the expired messages
of each, and the key itself when none is left.  `clearUserQueue` removes a key with its
messages.

`messages` is what is stored under a key.  The operations are described by their effect on
it, which is all that later modules use. -/

namespace AraNotification

/-- Configuration for the message queue. -/
structure QueueConfig where
  enabled : Bool
  maxQueueSizePerUser : ℕ
  messageTtlSeconds : ℕ
  cleanupIntervalSeconds : ℕ
deriving DecidableEq, Repr

/-- `QueueConfig::default`. -/
def QueueConfig.default : QueueConfig where
  enabled := false
  maxQueueSizePerUser := 100
  messageTtlSeconds := 3600
  cleanupIntervalSeconds := 300

/-- A message stored in the queue. -/
structure StoredMessage where
  id : Uuid
  event : NotificationEvent
  queuedAt : DateTime
  attempts : ℕ
deriving Repr

namespace StoredMessage

def new (id : Uuid) (now : DateTime) (event : NotificationEvent) : StoredMessage where
  id := id
  event := event
  queuedAt := now
  attempts := 0

/-- Check if the message has expired based on the given TTL. -/
def isExpired (m : StoredMessage) (now : DateTime) (ttlSeconds : ℕ) : Bool :=
  decide (Duration.numSeconds (now - m.queuedAt) ≥ asI64 ttlSeconds)

/-- Messages expire in the order in which they were queued, and stay expired. -/
theorem isExpired_mono {m m' : StoredMessage} {now now' : DateTime} {ttlSeconds : ℕ}
    (hq : m.queuedAt ≤ m'.queuedAt) (hn : now' ≤ now) (h : m'.isExpired now' ttlSeconds = true) :
    m.isExpired now ttlSeconds = true := by
  rw [isExpired, decide_eq_true_eq] at h ⊢
  have hage : now' - m'.queuedAt ≤ now - m.queuedAt := sub_le_sub hn hq
  exact le_trans h (Duration.numSeconds_mono hage)

end StoredMessage

/-- Result of a drain. -/
structure DrainResult where
  messages : List StoredMessage
  expired : ℕ
deriving Repr

/-- `DrainResult::default`. -/
def DrainResult.empty : DrainResult := ⟨[], 0⟩

/-- The errors of the in-memory backend. -/
inductive QueueBackendError where
  | disabled
deriving DecidableEq, Repr

/-- In-memory message queue backend. -/
structure MemoryQueueBackend where
  queues : DashMap String (List StoredMessage)
  config : QueueConfig

namespace MemoryQueueBackend

def new (config : QueueConfig) : MemoryQueueBackend := ⟨∅, config⟩

variable (q : MemoryQueueBackend)

def isEnabled : Bool := q.config.enabled

/-- What is stored under a key. -/
def messages (key : String) : List StoredMessage := (q.queues.lookup key).getD []

/-- Append to a queue of bounded size, dropping the oldest message when it is full. -/
def pushBack (bound : ℕ) (queue : List StoredMessage) (m : StoredMessage) : List StoredMessage :=
  (if queue.length ≥ bound then queue.tail else queue) ++ [m]

/-- Store a message for an offline user. -/
def enqueue (key : String) (m : StoredMessage) : Except QueueBackendError Unit × MemoryQueueBackend :=
  if q.config.enabled then
    (.ok (), { q with
      queues := q.queues.insert key (pushBack q.config.maxQueueSizePerUser (q.messages key) m) })
  else (.error .disabled, q)

/-- The update of one queue under its entry lock by an enqueue: append, dropping the oldest
message when it is full. -/
def appendEntry (key : String) (m : StoredMessage) : MemoryQueueBackend :=
  { q with queues := q.queues.insert key (pushBack q.config.maxQueueSizePerUser (q.messages key) m) }

/-- Take all messages of a user; those that have expired are only counted. -/
def drain (key : String) (now : DateTime) : DrainResult × MemoryQueueBackend :=
  if q.config.enabled then
    match q.queues.lookup key with
    | none => (.empty, q)
    | some queue =>
        (⟨queue.filter (fun m => !m.isExpired now q.config.messageTtlSeconds),
          (queue.filter (fun m => m.isExpired now q.config.messageTtlSeconds)).length⟩,
        { q with queues := q.queues.erase key })
  else (.empty, q)

/-- Look at the first messages of a user without taking them. -/
def peek (key : String) (limit : ℕ) : List StoredMessage :=
  if q.config.enabled then (q.messages key).take limit else []

/-- Number of messages stored for a user. -/
def queueSize (key : String) : ℕ := (q.messages key).length

/-- The update of one queue under its entry lock: expired messages go. -/
def retainEntry (now : DateTime) (key : String) : MemoryQueueBackend :=
  { q with queues := q.queues.modify key (·.filter (fun m => !m.isExpired now q.config.messageTtlSeconds)) }

/-- Remove a key with whatever is stored under it. -/
def removeKey (key : String) : MemoryQueueBackend := { q with queues := q.queues.erase key }

/-- Remove the expired messages under one key, and the key when none is left; the number of
messages removed. -/
def retainKey (now : DateTime) (key : String) : ℕ × MemoryQueueBackend :=
  match q.queues.lookup key with
  | none => (0, q)
  | some queue =>
      let retained := q.retainEntry now key
      (queue.length - retained.queueSize key,
        if retained.queueSize key = 0 then retained.removeKey key else retained)

/-- Remove expired messages under the given keys. -/
def retainKeys (now : DateTime) (keys : List String) : ℕ × MemoryQueueBackend :=
  keys.foldl (fun r key => (r.1 + (r.2.retainKey now key).1, (r.2.retainKey now key).2)) (0, q)

/-- Remove expired messages from all queues; the number of messages removed. -/
def cleanupExpired (now : DateTime) : ℕ × MemoryQueueBackend := q.retainKeys now q.queues.keys

/-- Remove all messages of a user; the number of messages removed. -/
def clearUserQueue (key : String) : ℕ × MemoryQueueBackend :=
  match q.queues.lookup key with
  | none => (0, q)
  | some queue => (queue.length, q.removeKey key)

/-! ### What the operations store -/

section stored
variable {q : MemoryQueueBackend} {key : String} {m : StoredMessage} {now : DateTime}

theorem messages_new (config : QueueConfig) (key : String) : (new config).messages key = [] := rfl

@[simp] theorem config_enqueue : (q.enqueue key m).2.config = q.config := by
  unfold enqueue
  split_ifs <;> rfl

@[simp] theorem config_drain : (q.drain key now).2.config = q.config := by
  unfold drain
  split_ifs
  · cases q.queues.lookup key <;> rfl
  · rfl

theorem messages_appendEntry (key' : String) :
    (q.appendEntry key m).messages key' =
      if key' = key then pushBack q.config.maxQueueSizePerUser (q.messages key) m
      else q.messages key' := by
  simp only [appendEntry, messages, DashMap.lookup_insert]
  split_ifs <;> simp

theorem enqueue_eq (h : q.config.enabled = true) : q.enqueue key m = (.ok (), q.appendEntry key m) := by
  rw [enqueue, if_pos h, appendEntry]

theorem messages_enqueue (h : q.config.enabled = true) (key' : String) :
    (q.enqueue key m).2.messages key' =
      if key' = key then pushBack q.config.maxQueueSizePerUser (q.messages key) m
      else q.messages key' := by
  rw [enqueue_eq h]
  exact messages_appendEntry key'

theorem messages_removeKey (key' : String) :
    (q.removeKey key).messages key' = if key' = key then [] else q.messages key' := by
  simp only [removeKey, messages, DashMap.lookup_erase]
  split_ifs <;> simp

theorem messages_eq_nil_of_lookup (h : q.queues.lookup key = none) : q.messages key = [] := by
  rw [messages, h, Option.getD_none]

theorem messages_drain (h : q.config.enabled = true) (key' : String) :
    (q.drain key now).2.messages key' = if key' = key then [] else q.messages key' := by
  rw [drain, if_pos h]
  cases hl : q.queues.lookup key with
  | none =>
      split_ifs with hk
      · rw [hk]
        exact messages_eq_nil_of_lookup hl
      · rfl
  | some queue => exact messages_removeKey key'

/-- A drain returns the stored messages that have not expired, in their order. -/
theorem drained_messages (h : q.config.enabled = true) :
    (q.drain key now).1.messages =
      (q.messages key).filter (fun m => !m.isExpired now q.config.messageTtlSeconds) := by
  rw [drain, if_pos h, messages]
  cases q.queues.lookup key <;> simp [DrainResult.empty]

/-- Every stored message is returned or counted as expired. -/
theorem drained_expired (h : q.config.enabled = true) :
    (q.drain key now).1.messages.length + (q.drain key now).1.expired = (q.messages key).length := by
  rw [drain, if_pos h, messages]
  cases q.queues.lookup key with
  | none => rfl
  | some queue =>
      have hsplit := List.length_eq_length_filter_add
        (l := queue) (fun m => m.isExpired now q.config.messageTtlSeconds)
      simp only [Option.getD_some]
      omega

/-- What a drain returns was stored and has not outlived the TTL of the queue. -/
theorem mem_drain {x : StoredMessage} (h : x ∈ (q.drain key now).1.messages) :
    x ∈ q.messages key ∧ x.isExpired now q.config.messageTtlSeconds = false := by
  by_cases hq : q.config.enabled = true
  · rw [drained_messages hq, List.mem_filter] at h
    simpa using h
  · rw [drain, if_neg hq] at h
    simp [DrainResult.empty] at h

theorem messages_retainEntry (key' : String) :
    (q.retainEntry now key).messages key' =
      if key' = key then (q.messages key).filter (fun m => !m.isExpired now q.config.messageTtlSeconds)
      else q.messages key' := by
  simp only [retainEntry, messages, DashMap.lookup_modify]
  split_ifs with hk
  · cases q.queues.lookup key <;> rfl
  · rfl

theorem messages_retainKey (key' : String) :
    (q.retainKey now key).2.messages key' =
      if key' = key then (q.messages key).filter (fun m => !m.isExpired now q.config.messageTtlSeconds)
      else q.messages key' := by
  rw [← messages_retainEntry]
  unfold retainKey
  cases hl : q.queues.lookup key with
  | none =>
      rw [messages_retainEntry]
      split_ifs with hk
      · rw [hk, messages_eq_nil_of_lookup hl, List.filter_nil]
      · rfl
  | some queue =>
      simp only
      split_ifs with hempty
      · rw [messages_removeKey]
        split_ifs with hk
        · rw [hk]
          exact (List.length_eq_zero_iff.mp hempty).symm
        · rfl
      · rfl

@[simp] theorem config_retainKey : (q.retainKey now key).2.config = q.config := by
  unfold retainKey
  cases q.queues.lookup key with
  | none => rfl
  | some queue =>
      simp only
      split_ifs <;> rfl

/-- The counts aside, the keys are retained one after the other. -/
theorem retainKeys_eq (keys : List String) :
    (q.retainKeys now keys).2 = keys.foldl (fun q key => (q.retainKey now key).2) q := by
  have hgen : ∀ r : ℕ × MemoryQueueBackend,
      (keys.foldl (fun r key => (r.1 + (r.2.retainKey now key).1, (r.2.retainKey now key).2)) r).2 =
        keys.foldl (fun q key => (q.retainKey now key).2) r.2 := by
    induction keys with
    | nil => exact fun _ => rfl
    | cons key keys ih =>
        intro r
        rw [List.foldl_cons, ih, List.foldl_cons]
  exact hgen (0, q)

@[simp] theorem config_retainKeys (keys : List String) :
    (q.retainKeys now keys).2.config = q.config := by
  rw [retainKeys_eq]
  induction keys generalizing q with
  | nil => rfl
  | cons key keys ih => rw [List.foldl_cons, ih, config_retainKey]

theorem messages_retainKeys (keys : List String) (key' : String) :
    (q.retainKeys now keys).2.messages key' =
      if key' ∈ keys then (q.messages key').filter (fun m => !m.isExpired now q.config.messageTtlSeconds)
      else q.messages key' := by
  rw [retainKeys_eq]
  induction keys generalizing q with
  | nil => simp
  | cons key keys ih =>
      rw [List.foldl_cons, ih, config_retainKey, messages_retainKey]
      by_cases hk : key' = key
      · subst hk
        rw [if_pos rfl, if_pos List.mem_cons_self, List.filter_filter]
        simp
      · simp [hk]

/-- Clean-up removes exactly the expired messages, under every key. -/
theorem messages_cleanupExpired (key' : String) :
    (q.cleanupExpired now).2.messages key' =
      (q.messages key').filter (fun m => !m.isExpired now q.config.messageTtlSeconds) := by
  rw [cleanupExpired, messages_retainKeys]
  split_ifs with hk
  · rfl
  · rw [messages_eq_nil_of_lookup (AList.lookup_eq_none.mpr hk), List.filter_nil]

@[simp] theorem config_cleanupExpired : (q.cleanupExpired now).2.config = q.config :=
  config_retainKeys _

@[simp] theorem config_clearUserQueue : (q.clearUserQueue key).2.config = q.config := by
  unfold clearUserQueue
  cases q.queues.lookup key <;> rfl

theorem messages_clearUserQueue (key' : String) :
    (q.clearUserQueue key).2.messages key' = if key' = key then [] else q.messages key' := by
  unfold clearUserQueue
  cases hl : q.queues.lookup key with
  | none =>
      split_ifs with hk
      · rw [hk]
        exact messages_eq_nil_of_lookup hl
      · rfl
  | some queue => exact messages_removeKey key'

/-- A bounded append keeps a part of the queue, in its order, and adds the new message. -/
theorem pushBack_sublist (bound : ℕ) (queue : List StoredMessage) (m : StoredMessage) :
    (pushBack bound queue m).Sublist (queue ++ [m]) := by
  unfold pushBack
  split_ifs
  · exact (List.tail_sublist queue).append (List.Sublist.refl _)
  · exact List.Sublist.refl _

end stored

end MemoryQueueBackend

end AraNotification
