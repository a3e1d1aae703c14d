import AraNotification.Lib.BoundedLog
import AraNotification.Queue

/-! # The in-memory queue as a bounded log

What is drained for a user does not depend on how often the queue was cleaned up or on what
happened to other users: it is read off the list of messages enqueued for the user since
the last drain (`pending`), cut down to its last `maxQueueSizePerUser` messages and to those
that have not expired.

The stored queue is not this list.  It may have lost expired messages to the clean-up, and
the invariant (`Logged`) says that it has lost nothing else: since clock readings do not
decrease, messages expire in the order in which they were enqueued, so what is missing from
the last messages is a first part of them, all of it expired. -/

namespace AraNotification

open BoundedLog

/-- A call of the queue backend and the clock reading at which it is made. -/
inductive QueueCall where
  | enqueue (key : String) (id : Uuid) (now : DateTime) (event : NotificationEvent)
  | drain (key : String) (now : DateTime)
  | peek (key : String) (limit : ℕ) (now : DateTime)
  | cleanupExpired (now : DateTime)
  | clearUserQueue (key : String) (now : DateTime)

namespace QueueCall

/-- The clock reading of a call. -/
def now : QueueCall → DateTime
  | enqueue _ _ now _ | drain _ now | peek _ _ now | cleanupExpired now | clearUserQueue _ now => now

/-- The call is one for the given user. -/
def isFor (key : String) : QueueCall → Bool
  | enqueue key' .. | drain key' .. | peek key' .. | clearUserQueue key' .. => decide (key' = key)
  | cleanupExpired _ => false

/-- What has been enqueued for a user since the last drain or clear, after one more call. -/
def record (key : String) (log : List StoredMessage) : QueueCall → List StoredMessage
  | enqueue key' id now event => if key' = key then log ++ [.new id now event] else log
  | drain key' _ | clearUserQueue key' _ => if key' = key then [] else log
  | peek .. | cleanupExpired _ => log

end QueueCall

namespace MemoryQueueBackend

/-- The backend after a call. -/
def perform (q : MemoryQueueBackend) : QueueCall → MemoryQueueBackend
  | .enqueue key id now event => (q.enqueue key (.new id now event)).2
  | .drain key now => (q.drain key now).2
  | .peek .. => q
  | .cleanupExpired now => (q.cleanupExpired now).2
  | .clearUserQueue key _ => (q.clearUserQueue key).2

/-- The backend after a sequence of calls. -/
def after (config : QueueConfig) (calls : List QueueCall) : MemoryQueueBackend :=
  calls.foldl perform (new config)

end MemoryQueueBackend

/-- The messages enqueued for a user since the last drain or clear of this user. -/
def pending (key : String) (calls : List QueueCall) : List StoredMessage :=
  calls.foldl (QueueCall.record key) []

/-- Clock readings do not decrease, and the last one is at most `t`. -/
def Clocked (calls : List QueueCall) (t : DateTime) : Prop :=
  (calls.map QueueCall.now ++ [t]).Pairwise (· ≤ ·)

instance (calls : List QueueCall) (t : DateTime) : Decidable (Clocked calls t) :=
  inferInstanceAs (Decidable (List.Pairwise _ _))

/-! ### The invariant -/

/-- At time `t` the stored messages are the last ones of the log, less expired ones. -/
structure Logged (config : QueueConfig) (t : DateTime) (log stored : List StoredMessage) : Prop where
  sorted : log.Pairwise (fun m m' => m.queuedAt ≤ m'.queuedAt)
  past : ∀ m ∈ log, m.queuedAt ≤ t
  retains : Retains config.maxQueueSizePerUser (·.isExpired t config.messageTtlSeconds) log stored

section logged
variable {config : QueueConfig} {t t' : DateTime} {log stored : List StoredMessage}

theorem Logged.nil (config : QueueConfig) (t : DateTime) : Logged config t [] [] :=
  ⟨List.Pairwise.nil, fun _ h => absurd h List.not_mem_nil, Retains.nil _ _⟩

/-- Time passes. -/
theorem Logged.later (h : Logged config t log stored) (ht : t ≤ t') : Logged config t' log stored where
  sorted := h.sorted
  past := fun m hm => (h.past m hm).trans ht
  retains := h.retains.mono (fun _ _ hx => StoredMessage.isExpired_mono le_rfl ht hx)

theorem Logged.push (h : Logged config t log stored) (hN : 1 ≤ config.maxQueueSizePerUser)
    (id : Uuid) (event : NotificationEvent) :
    Logged config t (log ++ [.new id t event])
      (MemoryQueueBackend.pushBack config.maxQueueSizePerUser stored (.new id t event)) where
  sorted := by
    rw [List.pairwise_append]
    refine ⟨h.sorted, List.pairwise_singleton _ _, fun m hm m' hm' => ?_⟩
    rw [List.mem_singleton.mp hm']
    exact h.past m hm
  past := by
    intro m hm
    rw [List.mem_append, List.mem_singleton] at hm
    rcases hm with hm | rfl
    · exact h.past m hm
    · exact le_rfl
  retains := h.retains.push hN _

/-- The messages of the log expire in its order. -/
theorem Logged.prune (h : Logged config t log stored) :
    Logged config t log (stored.filter (fun m => !m.isExpired t config.messageTtlSeconds)) where
  sorted := h.sorted
  past := h.past
  retains := h.retains.prune (h.sorted.imp (fun hq he => StoredMessage.isExpired_mono hq le_rfl he))

end logged

/-! ### Runs -/

section runs
variable {config : QueueConfig} {calls : List QueueCall} {t : DateTime}

theorem after_concat (c : QueueCall) :
    MemoryQueueBackend.after config (calls ++ [c]) = (MemoryQueueBackend.after config calls).perform c := by
  rw [MemoryQueueBackend.after, List.foldl_concat, MemoryQueueBackend.after]

theorem pending_concat (key : String) (c : QueueCall) :
    pending key (calls ++ [c]) = c.record key (pending key calls) := by
  rw [pending, List.foldl_concat, pending]

theorem config_perform (q : MemoryQueueBackend) (c : QueueCall) : (q.perform c).config = q.config := by
  cases c <;> simp [MemoryQueueBackend.perform]

theorem config_after : (MemoryQueueBackend.after config calls).config = config := by
  induction calls using List.reverseRecOn with
  | nil => rfl
  | append_singleton calls c ih => rw [after_concat, config_perform, ih]

theorem clocked_concat {c : QueueCall} (h : Clocked (calls ++ [c]) t) :
    Clocked calls c.now ∧ c.now ≤ t := by
  rw [Clocked, List.map_append, List.map_singleton, List.pairwise_append] at h
  exact ⟨h.1, h.2.2 c.now (by simp) t List.mem_cons_self⟩

/-- One call keeps the invariant of every user. -/
theorem Logged.perform {q : MemoryQueueBackend} {key : String} {log : List StoredMessage}
    {c : QueueCall} (hq : q.config = config) (he : config.enabled = true)
    (hN : 1 ≤ config.maxQueueSizePerUser) (h : Logged config c.now log (q.messages key)) :
    Logged config c.now (c.record key log) ((q.perform c).messages key) := by
  subst hq
  cases c with
  | enqueue key' id now event =>
      simp only [QueueCall.record, MemoryQueueBackend.perform]
      rw [MemoryQueueBackend.messages_enqueue he]
      by_cases hk : key' = key
      · rw [if_pos hk, if_pos hk.symm, hk]
        exact h.push hN id event
      · rw [if_neg hk, if_neg (Ne.symm hk)]
        exact h
  | drain key' now =>
      simp only [QueueCall.record, MemoryQueueBackend.perform]
      rw [MemoryQueueBackend.messages_drain he]
      by_cases hk : key' = key
      · rw [if_pos hk, if_pos hk.symm]
        exact Logged.nil _ _
      · rw [if_neg hk, if_neg (Ne.symm hk)]
        exact h
  | peek key' limit now => exact h
  | cleanupExpired now =>
      simp only [QueueCall.record, MemoryQueueBackend.perform]
      rw [MemoryQueueBackend.messages_cleanupExpired]
      exact h.prune
  | clearUserQueue key' now =>
      simp only [QueueCall.record, MemoryQueueBackend.perform]
      rw [MemoryQueueBackend.messages_clearUserQueue]
      by_cases hk : key' = key
      · rw [if_pos hk, if_pos hk.symm]
        exact Logged.nil _ _
      · rw [if_neg hk, if_neg (Ne.symm hk)]
        exact h

/-- After every sequence of calls the invariant holds. -/
theorem logged_after (he : config.enabled = true) (hN : 1 ≤ config.maxQueueSizePerUser)
    (hc : Clocked calls t) (key : String) :
    Logged config t (pending key calls) ((MemoryQueueBackend.after config calls).messages key) := by
  induction calls using List.reverseRecOn generalizing t with
  | nil => exact Logged.nil config t
  | append_singleton calls c ih =>
      obtain ⟨hcalls, hct⟩ := clocked_concat hc
      have hstep := (ih hcalls).perform config_after he hN
      rw [pending_concat, after_concat]
      exact hstep.later hct

/-- Calls for other users and clean-ups leave no trace in the log of a user. -/
theorem pending_filter (key : String) :
    pending key (calls.filter (QueueCall.isFor key)) = pending key calls := by
  induction calls using List.reverseRecOn with
  | nil => rfl
  | append_singleton calls c ih =>
      rw [pending_concat, List.filter_append, ← ih]
      by_cases hf : c.isFor key = true
      · rw [List.filter_cons_of_pos hf, List.filter_nil, pending_concat]
      · rw [List.filter_cons_of_neg hf, List.filter_nil, List.append_nil]
        cases c with
        | cleanupExpired now => rfl
        | peek key' limit now => rfl
        | enqueue key' id now event =>
            have hk : ¬ key' = key := by simpa [QueueCall.isFor] using hf
            rw [QueueCall.record, if_neg hk]
        | drain key' now =>
            have hk : ¬ key' = key := by simpa [QueueCall.isFor] using hf
            rw [QueueCall.record, if_neg hk]
        | clearUserQueue key' now =>
            have hk : ¬ key' = key := by simpa [QueueCall.isFor] using hf
            rw [QueueCall.record, if_neg hk]

/-- What a drain returns, from the log. -/
theorem drained_after (he : config.enabled = true) (hN : 1 ≤ config.maxQueueSizePerUser)
    (hc : Clocked calls t) (key : String) :
    ((MemoryQueueBackend.after config calls).drain key t).1.messages =
      ((pending key calls).rtake config.maxQueueSizePerUser).filter
        (fun m => !m.isExpired t config.messageTtlSeconds) := by
  have henabled : (MemoryQueueBackend.after config calls).config.enabled = true := by
    rw [config_after]
    exact he
  rw [MemoryQueueBackend.drained_messages henabled, config_after]
  exact (logged_after he hN hc key).retains.filter_live

/-- **The in-memory queue is a bounded FIFO log.**  A drain returns the unexpired ones of the
last messages enqueued for the user, in order, leaves nothing stored and counts the rest as
expired; other users' calls and clean-ups make no difference to it; and the bound on the
number of stored messages holds. -/
theorem queue_refines_log (he : config.enabled = true) (hN : 1 ≤ config.maxQueueSizePerUser)
    (hc : Clocked calls t) (key : String) :
    let q := MemoryQueueBackend.after config calls
    (q.drain key t).1.messages =
        ((pending key calls).rtake config.maxQueueSizePerUser).filter
          (fun m => !m.isExpired t config.messageTtlSeconds) ∧
      (q.drain key t).2.messages key = [] ∧
      (q.drain key t).1.messages.length + (q.drain key t).1.expired = q.queueSize key ∧
      (∀ calls', Clocked calls' t →
        calls'.filter (QueueCall.isFor key) = calls.filter (QueueCall.isFor key) →
        ((MemoryQueueBackend.after config calls').drain key t).1.messages = (q.drain key t).1.messages) ∧
      q.queueSize key ≤ config.maxQueueSizePerUser := by
  intro q
  have henabled : q.config.enabled = true := by
    rw [show q.config = config from config_after]
    exact he
  refine ⟨drained_after he hN hc key, ?_, MemoryQueueBackend.drained_expired henabled, ?_, ?_⟩
  · rw [MemoryQueueBackend.messages_drain henabled, if_pos rfl]
  · intro calls' hc' hfilter
    rw [drained_after he hN hc' key, drained_after he hN hc key, ← pending_filter key, hfilter,
      pending_filter key]
  · exact (logged_after he hN hc key).retains.length_le

/-- An event that is kept for users who are offline. -/
def reminder : NotificationEvent :=
  ⟨3, 0, "task.reminder", .null, ⟨"http-api", .normal, none, none, none⟩⟩

/-- Three messages go through a queue for two, and one of the two kept expires before the
drain. -/
theorem queue_refines_log_of_three :
    let config : QueueConfig := ⟨true, 2, 1, 300⟩
    let calls : List QueueCall :=
      [.enqueue "alice" 1 0 reminder, .enqueue "alice" 2 0 reminder, .enqueue "bob" 3 5 reminder,
        .cleanupExpired 6, .enqueue "alice" 4 1000000000 reminder]
    Clocked calls 1000000001 ∧
      ((MemoryQueueBackend.after config calls).drain "alice" 1000000001).1.messages =
        [.new 4 1000000000 reminder] := by
  intro config calls
  have hc : Clocked calls 1000000001 := by decide
  refine ⟨hc, ?_⟩
  have hdrain := (queue_refines_log (show config.enabled = true from rfl) (by decide) hc "alice").1
  rw [hdrain]
  rfl

end runs

end AraNotification
