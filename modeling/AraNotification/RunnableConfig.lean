import AraNotification.Settings
import AraNotification.SubscriberLoop

/-! # Configurations that can run

The heartbeat task of `tasks/heartbeat.rs` makes two timers, whose periods must not be zero, and then
loops over three events: a shutdown signal, a heartbeat round and a clean-up of stale connections.
A round that takes more than half of the interval is reported, with the interval in milliseconds, and
the clean-up turns the timeout into a signed duration.  The reset timeout of the circuit breaker is
given to it in milliseconds and compared as a signed number, and the Redis subscriber draws its
delays around a value that is made from two settings.  Each of these can fail for a value that
validation lets pass.

Numbers are 64 bits wide, and `u64Mul` fails where a product does not fit (it panics with overflow
checks and is wrong without).  An accepted configuration can run exactly when its numbers are within
the bounds of `Runnable` (`can_run_iff`). -/

namespace AraNotification

/-- The settings with those of the Redis subscriber. -/
structure RuntimeSettings extends Settings where
  redis : RedisConfig
deriving DecidableEq, Repr

/-- Multiplication of 64-bit numbers; `none` is an overflow. -/
def u64Mul (a b : ℕ) : Option ℕ := if a * b < 2 ^ 64 then some (a * b) else none

/-- `tokio::time::interval`; a period of zero is a panic. -/
def tokioInterval (seconds : ℕ) : Option ℕ := if seconds = 0 then none else some seconds

/-! ### The heartbeat task -/

/-- Where the heartbeat task stands. -/
inductive HeartbeatPhase where
  | running
  | stopped
  | panicked
deriving DecidableEq, Repr

/-- Background task for heartbeat and connection cleanup. -/
structure HeartbeatTask where
  config : WebSocketConfig
  connectionManager : ConnectionManager
  phase : HeartbeatPhase

/-- What happens to the task. -/
inductive HeartbeatEvent where
  | shutdown
  /-- A tick of the heartbeat timer, for a round that takes so long. -/
  | heartbeat (elapsedMs : ℕ)
  /-- A tick of the cleanup timer. -/
  | cleanup (now : DateTime)
  /-- Connections come and go. -/
  | environment (connectionManager : ConnectionManager)

namespace HeartbeatTask

/-- The two timers. -/
def timers (config : WebSocketConfig) : Option (ℕ × ℕ) := do
  let heartbeatTimer ← tokioInterval config.heartbeatInterval
  let cleanupTimer ← tokioInterval config.cleanupInterval
  return (heartbeatTimer, cleanupTimer)

/-- The task up to its loop. -/
def start (config : WebSocketConfig) (connectionManager : ConnectionManager) : HeartbeatTask where
  config := config
  connectionManager := connectionManager
  phase := if (timers config).isSome then .running else .panicked

/-- Send heartbeats; the result is whether the round is reported as too slow. -/
def sendHeartbeats (t : HeartbeatTask) (elapsedMs : ℕ) : Option Bool :=
  if t.connectionManager.connections.len = 0 then some false
  else do
    let intervalMs ← u64Mul t.config.heartbeatInterval 1000
    return decide (elapsedMs > intervalMs / 2)

/-- One event of the loop. -/
def step (t : HeartbeatTask) (e : HeartbeatEvent) : Option Bool × HeartbeatTask :=
  match t.phase, e with
  | .running, .shutdown => (none, { t with phase := .stopped })
  | .running, .heartbeat elapsedMs =>
      match t.sendHeartbeats elapsedMs with
      | some slow => (some slow, t)
      | none => (none, { t with phase := .panicked })
  | .running, .cleanup now =>
      match t.connectionManager.cleanupStaleConnections now t.config.connectionTimeout with
      | some (_, m) => (none, { t with connectionManager := m })
      | none => (none, { t with phase := .panicked })
  | _, .environment m => (none, { t with connectionManager := m })
  | _, _ => (none, t)

end HeartbeatTask

/-! ### What the settings must allow -/

namespace RuntimeSettings
variable (s : RuntimeSettings)

/-- The reset timeout that `AppState::new` gives to the circuit breaker. -/
def resetTimeoutMs : Option ℕ := u64Mul s.redis.circuitBreakerResetTimeoutSeconds 1000

/-- No loop panics because of the configuration. -/
structure CanRun : Prop where
  heartbeatTask : ∀ m events,
    (Runs.final HeartbeatTask.step (.start s.websocket m) events).phase ≠ .panicked
  heartbeatMs : (u64Mul s.websocket.heartbeatInterval 1000).isSome
  resetTimeout : ∃ ms, s.resetTimeoutMs = some ms ∧ 0 ≤ asI64 ms
  reconnect : ∀ circuitBreaker health events,
    (Runs.final (RedisSubscriber.Task.step s.redis) (RedisSubscriber.start s.redis circuitBreaker health)
      events).phase ≠ .panicked

/-- The bounds of the numbers. -/
structure Runnable : Prop where
  cleanupInterval : 0 < s.websocket.cleanupInterval
  heartbeatInterval : s.websocket.heartbeatInterval * 1000 < 2 ^ 64
  connectionTimeout : -9223372036854775 ≤ asI64 s.websocket.connectionTimeout ∧
    asI64 s.websocket.connectionTimeout ≤ 9223372036854775
  resetTimeout : s.redis.circuitBreakerResetTimeoutSeconds * 1000 < 2 ^ 63
  backoffInitialDelay : 0 < s.redis.backoffInitialDelayMs
  backoffMaxDelay : 0 < s.redis.backoffMaxDelayMs

end RuntimeSettings

/-! ### The heartbeat task -/

section heartbeat
variable {config : WebSocketConfig} {m : ConnectionManager} {t : HeartbeatTask}

theorem u64Mul_isSome {a b : ℕ} : (u64Mul a b).isSome = true ↔ a * b < 2 ^ 64 := by
  unfold u64Mul
  split_ifs with h
  · exact iff_of_true rfl h
  · exact iff_of_false (by simp) h

theorem timers_isSome : (HeartbeatTask.timers config).isSome = true ↔
    0 < config.heartbeatInterval ∧ 0 < config.cleanupInterval := by
  unfold HeartbeatTask.timers tokioInterval
  rw [Nat.pos_iff_ne_zero, Nat.pos_iff_ne_zero]
  by_cases hh : config.heartbeatInterval = 0 <;> by_cases hc : config.cleanupInterval = 0 <;>
    simp [hh, hc]

/-- The clean-up panics exactly for a timeout that is no duration. -/
theorem cleanup_isSome (m : ConnectionManager) (now : DateTime) (timeoutSecs : ℕ) :
    (m.cleanupStaleConnections now timeoutSecs).isSome = true ↔
      -9223372036854775 ≤ asI64 timeoutSecs ∧ asI64 timeoutSecs ≤ 9223372036854775 := by
  unfold ConnectionManager.cleanupStaleConnections ConnectionManager.findStaleConnections Duration.seconds
  split_ifs with h <;> simp [h]

/-- A task with this configuration that has not panicked. -/
def HeartbeatTask.Sound (config : WebSocketConfig) (t : HeartbeatTask) : Prop :=
  t.config = config ∧ t.phase ≠ .panicked

/-- Within the bounds no event makes the task panic. -/
theorem HeartbeatTask.Sound.step (h : t.Sound config) (hmul : config.heartbeatInterval * 1000 < 2 ^ 64)
    (htimeout : -9223372036854775 ≤ asI64 config.connectionTimeout ∧
      asI64 config.connectionTimeout ≤ 9223372036854775) (e : HeartbeatEvent) :
    (HeartbeatTask.step t e).2.Sound config := by
  obtain ⟨hconfig, hphase⟩ := h
  unfold HeartbeatTask.step
  split
  · exact ⟨hconfig, by simp⟩
  · split
    · exact ⟨hconfig, hphase⟩
    · rename_i elapsedMs _ hnone
      exfalso
      unfold HeartbeatTask.sendHeartbeats at hnone
      have hsome := u64Mul_isSome.mpr hmul
      rw [← hconfig] at hsome
      obtain ⟨ms, hms⟩ := Option.isSome_iff_exists.mp hsome
      split_ifs at hnone
      rw [hms] at hnone
      cases hnone
  · split
    · exact ⟨hconfig, hphase⟩
    · rename_i now _ _ hnone
      have hsome := (cleanup_isSome t.connectionManager now config.connectionTimeout).mpr htimeout
      rw [← hconfig, hnone] at hsome
      cases hsome
  · exact ⟨hconfig, hphase⟩
  · exact ⟨hconfig, hphase⟩

end heartbeat

/-! ### The reconnect loop -/

section reconnect
open RedisSubscriber
variable {config : RedisConfig} {s : Task}

/-- A task that has not panicked, with a delay from which the next one can be drawn. -/
structure Drawable (s : Task) : Prop where
  current : 0 < s.backoff.currentDelayMs
  max : 0 < s.backoff.maxDelayMs
  phase : s.phase ≠ .panicked

theorem Drawable.of_backoff {s' : Task} (h : Drawable s) (hb : s'.backoff = s.backoff)
    (hp : s'.phase ≠ .panicked) : Drawable s' :=
  ⟨hb ▸ h.current, hb ▸ h.max, hp⟩

/-- Every attempt leaves a delay of at least one millisecond. -/
theorem Drawable.fail (h : Drawable s) (now : ℤ) (loggedAt : Option ℤ) (drawn : ℕ) :
    Drawable (s.fail now loggedAt drawn) := by
  have hcap : s.backoff.cappedDelay ≠ 0 := by
    have hcurrent := h.current
    have hmax := h.max
    unfold ExponentialBackoff.cappedDelay
    omega
  unfold Task.fail ExponentialBackoff.nextDelay
  rw [if_neg hcap]
  exact ⟨Nat.lt_of_lt_of_le Nat.one_pos (le_max_right drawn 1), h.max, by simp⟩

theorem Drawable.step (h : Drawable s) (e : RedisSubscriber.Event) : Drawable (Task.step config s e).2 := by
  unfold Task.step
  split
  · exact h.of_backoff rfl h.phase
  · exact h.of_backoff rfl h.phase
  · unfold Task.check
    split
    · exact h.of_backoff rfl (by simp)
    · exact h.of_backoff rfl (by simp)
  · exact h.of_backoff rfl (by simp)
  · exact h.of_backoff rfl (by simp)
  · exact h.of_backoff rfl (by simp [Task.subscribe])
  · exact h.of_backoff rfl (by simp)
  · exact h.of_backoff rfl (by simp [Task.subscribe])
  · exact h.of_backoff rfl (by simp)
  · exact h.of_backoff rfl (by simp [Task.establish])
  · split_ifs
    · exact h.of_backoff rfl (by simp [Task.leave])
    · exact h
  · split_ifs
    · exact h.of_backoff rfl (by simp [Task.leave])
    · exact h
  · unfold Task.message
    split
    · exact h.of_backoff rfl h.phase
    · exact h.of_backoff rfl (by simp)
  · exact h.of_backoff rfl (by simp)
  · exact h.of_backoff rfl (by simp [Task.leave])
  · exact h.fail _ _ _
  · exact h

/-- The first attempt fails. -/
def firstFailure : List RedisSubscriber.Event := [.check 0, .connected false, .fail 0 none 0]

/-- With a delay of zero the first failure panics. -/
theorem panics_of_zero (hzero : config.backoffInitialDelayMs = 0 ∨ config.backoffMaxDelayMs = 0) :
    (Runs.final (Task.step config) (RedisSubscriber.start config (.withConfig .default 0) .new)
      firstFailure).phase = .panicked := by
  have hcap : min (config.backoffInitialDelayMs * 2) config.backoffMaxDelayMs = 0 := by omega
  have hchannels : (getChannels config).isEmpty = false := by
    unfold getChannels
    split_ifs with hempty
    · rfl
    · exact Bool.eq_false_of_not_eq_true hempty
  simp [firstFailure, Runs.final, RedisSubscriber.start, hchannels, Task.step, Task.check, CircuitBreaker.getState,
    CircuitBreaker.checkStateTransition, CircuitBreaker.withConfig, Task.fail, ExponentialBackoff.nextDelay,
    ExponentialBackoff.cappedDelay, ExponentialBackoff.withConfig, hcap]

end reconnect

/-! ### Accepted configurations -/

namespace RuntimeSettings
variable {U : UnicodeTables} {s : RuntimeSettings}

/-- Validation lets no heartbeat interval of zero pass. -/
theorem heartbeatInterval_pos (h : s.Accepted U) : 0 < s.websocket.heartbeatInterval := by
  by_contra hpos
  have hzero : s.websocket.heartbeatInterval = 0 := by omega
  have hmem : "websocket.heartbeat_interval must be greater than 0" ∈ s.errors U := by
    simp [Settings.errors, Settings.check, hzero]
  rw [h] at hmem
  exact List.not_mem_nil hmem

theorem Runnable.canRun (h : s.Runnable) (haccepted : s.Accepted U) : s.CanRun where
  heartbeatTask m events := by
    have htimers := timers_isSome.mpr ⟨heartbeatInterval_pos haccepted, h.cleanupInterval⟩
    have hstart : (HeartbeatTask.start s.websocket m).Sound s.websocket := by
      refine ⟨rfl, ?_⟩
      rw [HeartbeatTask.start, if_pos htimers]
      simp
    exact (Runs.final_invariant hstart events
      (fun t e ht => ht.step h.heartbeatInterval h.connectionTimeout e)).2
  heartbeatMs := u64Mul_isSome.mpr h.heartbeatInterval
  resetTimeout := by
    have hlt := h.resetTimeout
    refine ⟨_, if_pos (by omega), ?_⟩
    rw [asI64_of_lt hlt]
    exact Int.natCast_nonneg _
  reconnect circuitBreaker health events := by
    have hstart : Drawable (RedisSubscriber.start s.redis circuitBreaker health) := by
      refine ⟨h.backoffInitialDelay, h.backoffMaxDelay, ?_⟩
      unfold RedisSubscriber.start
      split_ifs <;> simp
    exact (Runs.final_invariant hstart events (fun t e ht => ht.step e)).phase

/-- The cast of a 64-bit number is negative from 2^63 on. -/
theorem lt_of_asI64_nonneg {n : ℕ} (hn : n < 2 ^ 64) (h : 0 ≤ asI64 n) : n < 2 ^ 63 := by
  by_contra hge
  have hmod : n % 2 ^ 64 = n := Nat.mod_eq_of_lt hn
  rw [asI64, hmod, if_neg hge] at h
  omega

theorem CanRun.runnable (h : s.CanRun) : s.Runnable := by
  have htimers : (HeartbeatTask.timers s.websocket).isSome = true := by
    by_contra hnone
    exact h.heartbeatTask (.withLimits .default) [] (if_neg hnone)
  refine ⟨(timers_isSome.mp htimers).2, u64Mul_isSome.mp h.heartbeatMs, ?_, ?_, ?_, ?_⟩
  · rw [← cleanup_isSome (.withLimits .default) 0]
    by_contra hnone
    have hpanic := h.heartbeatTask (.withLimits .default) [.cleanup 0]
    have hrunning : (HeartbeatTask.start s.websocket (.withLimits .default)).phase = .running := if_pos htimers
    have hconfig : (HeartbeatTask.start s.websocket (.withLimits .default)).config = s.websocket := rfl
    have hmanager : (HeartbeatTask.start s.websocket (.withLimits .default)).connectionManager =
        .withLimits .default := rfl
    simp only [Runs.final, HeartbeatTask.step, hrunning] at hpanic
    rw [hconfig, hmanager, Option.not_isSome_iff_eq_none.mp hnone] at hpanic
    exact hpanic rfl
  · obtain ⟨ms, hms, hpos⟩ := h.resetTimeout
    unfold resetTimeoutMs u64Mul at hms
    split_ifs at hms with hlt
    cases hms
    exact lt_of_asI64_nonneg hlt hpos
  · by_contra hzero
    exact h.reconnect _ _ firstFailure (panics_of_zero (.inl (by omega)))
  · by_contra hzero
    exact h.reconnect _ _ firstFailure (panics_of_zero (.inr (by omega)))

/-- The default values, with a secret set. -/
def standard : RuntimeSettings where
  toSettings := Settings.withQueue
  redis := ⟨[], 30, 100, 30000⟩

theorem runnable_standard : standard.Runnable where
  cleanupInterval := (by decide : 0 < 60)
  heartbeatInterval := (by decide : 30 * 1000 < 2 ^ 64)
  connectionTimeout := (by decide : -9223372036854775 ≤ asI64 120 ∧ asI64 120 ≤ 9223372036854775)
  resetTimeout := (by decide : 30 * 1000 < 2 ^ 63)
  backoffInitialDelay := (by decide : 0 < 100)
  backoffMaxDelay := (by decide : 0 < 30000)

/-- An accepted configuration with a cleanup interval of zero. -/
def noCleanup : RuntimeSettings :=
  { standard with websocket := { Settings.withQueue.websocket with cleanupInterval := 0 } }

end RuntimeSettings

end AraNotification
