import AraNotification.Lifecycle
import AraNotification.RateLimiter

/-! # Expired state stays

`main` starts three background tasks: the Redis subscriber, the heartbeat task with its two
timers, and in a cluster the subscriber for routed messages.  None of them calls
`cleanup_expired` of the acknowledgement tracker or of the queue, or `cleanup_stale` of the
rate limiter, and nothing else does: the settings for these clean-ups have no effect.

`Server` is the service with its in-memory backends under a clock.  Programs, requests and
timers read the same clock, and time does not go past the next tick of a timer
(`Server.next`).  What the subscribers and the HTTP handlers do are dispatches.

Time can always go on while no client does anything (`exists_later`), so whatever is stored
grows older than any bound.  The three maps hold only recent entries in every reachable state
exactly when tracking, queue and rate limiting are all disabled (`bounded_iff`).  The clean-ups
that nothing calls would restore the bounds at any moment (`bounded_cleanUp`). -/

namespace AraNotification

open Interleaving

/-! ### Settings and timers -/

structure RatelimitSettings where
  enabled : Bool
  httpRequestsPerSecond : ℕ
  httpBurstSize : ℕ
  wsConnectionsPerMinute : ℕ
  cleanupIntervalSeconds : ℕ
deriving DecidableEq, Repr

/-- The settings with those of the rate limiter. -/
structure ServerSettings extends Settings where
  ratelimit : RatelimitSettings
deriving DecidableEq, Repr

/-- The configuration that `AppState::new` gives to the rate limiter. -/
def ServerSettings.rateLimitConfig (settings : ServerSettings) : RateLimitConfig where
  enabled := settings.ratelimit.enabled
  httpRequestsPerSecond := settings.ratelimit.httpRequestsPerSecond
  httpBurstSize := settings.ratelimit.httpBurstSize
  wsConnectionsPerMinute := settings.ratelimit.wsConnectionsPerMinute
  bucketTtlSeconds := 300

/-- The default values, with a secret set and the queue switched on. -/
def ServerSettings.withQueue : ServerSettings where
  toSettings := .withQueue
  ratelimit := ⟨false, 100, 200, 10, 60⟩

/-- A timer whose first tick has been taken.  It ticks again at `due`, and then with its period. -/
structure Interval where
  period : ℕ
  period_pos : 0 < period
  due : DateTime

namespace Interval

/-- `tokio::time::interval` and its first tick; a period of zero is a panic. -/
def new (now : DateTime) (seconds : ℕ) : Option Interval :=
  if h : 0 < seconds then some ⟨seconds, h, now + seconds * nanosPerSecond⟩ else none

def tick (i : Interval) : Interval := { i with due := i.due + i.period * nanosPerSecond }

theorem due_lt_due_tick (i : Interval) : i.due < i.tick.due := by
  have hpos : (0 : ℤ) < i.period := Int.natCast_pos.mpr i.period_pos
  exact lt_add_of_pos_right _ (mul_pos hpos (by decide))

end Interval

/-- The timers of `HeartbeatTask::run`. -/
structure HeartbeatTimers where
  heartbeatTimer : Interval
  cleanupTimer : Interval

/-! ### The server -/

/-- The service at a moment: its clock, its programs with what they share, the rate limiter, and
the heartbeat task while it runs. -/
structure Server where
  now : DateTime
  programs : Config Service Pc
  rateLimiter : RateLimiter
  heartbeatTask : Option HeartbeatTimers

/-- What can happen next. -/
inductive ServerEvent where
  | program (e : Event ServiceCall Input)
  | checkHttp (key : Option String) (ip : IpAddr)
  | checkIp (ip : IpAddr)
  | heartbeatTick
  | cleanupTick
  | advance (t : DateTime)

/-- Clients and triggers connect and dispatch, and every step reads the clock of the server. -/
def Timely (now : DateTime) : Event ServiceCall Input → Prop
  | .call (.dispatch _) | .call (.connect _ _) => True
  | .call .heartbeat | .call .cleanup => False
  | .run _ inp => inp.now = now

instance (now : DateTime) (e : Event ServiceCall Input) : Decidable (Timely now e) := by
  obtain ⟨⟨⟩⟩ | ⟨_, inp⟩ := e <;> dsimp only [Timely] <;> infer_instance

namespace Server

/-- `AppState::new` and the start of the background tasks. -/
def new (settings : ServerSettings) (now : DateTime) : Server where
  now := now
  programs := initial settings.toSettings
  rateLimiter := .new settings.rateLimitConfig
  heartbeatTask := do
    let heartbeatTimer ← Interval.new now settings.websocket.heartbeatInterval
    let cleanupTimer ← Interval.new now settings.websocket.cleanupInterval
    return ⟨heartbeatTimer, cleanupTimer⟩

variable (U : UnicodeTables) (settings : ServerSettings) (s : Server)

/-- The clock in milliseconds. -/
def millis : ℤ := s.now / 1000000

/-- A check of the rate limiter reads the clock three times. -/
def readings : Readings := ⟨s.millis, s.millis, s.millis⟩

/-- No timer ticks before `t`. -/
def Undue (t : DateTime) : Prop :=
  ∀ timers ∈ s.heartbeatTask, t ≤ timers.heartbeatTimer.due ∧ t ≤ timers.cleanupTimer.due

instance (t : DateTime) : Decidable (s.Undue t) :=
  inferInstanceAs (Decidable (∀ timers ∈ s.heartbeatTask, _))

/-- A tick starts a program. -/
def spawn (call : ServiceCall) (timers : HeartbeatTimers) : Server :=
  { s with
    programs := ⟨s.programs.shared, s.programs.threads ++ [start call]⟩
    heartbeatTask := some timers }

/-- The server after an event; `none` when the event is not possible now. -/
def next : ServerEvent → Option Server
  | .program e =>
      if Legal s.programs e ∧ Timely s.now e then
        ((system U settings.toSettings).next s.programs e).map (fun c => { s with programs := c })
      else none
  | .checkHttp key ip => some { s with rateLimiter := (s.rateLimiter.checkHttp s.readings key ip).2 }
  | .checkIp ip => some { s with rateLimiter := (s.rateLimiter.checkIp s.readings ip).2 }
  | .heartbeatTick =>
      match s.heartbeatTask with
      | none => none
      | some timers =>
          if timers.heartbeatTimer.due ≤ s.now then
            some (s.spawn .heartbeat { timers with heartbeatTimer := timers.heartbeatTimer.tick })
          else none
  | .cleanupTick =>
      match s.heartbeatTask with
      | none => none
      | some timers =>
          if timers.cleanupTimer.due ≤ s.now then
            -- a timeout that is no duration ends the task
            if (Duration.seconds (asI64 settings.websocket.connectionTimeout)).isSome then
              some (s.spawn .cleanup { timers with cleanupTimer := timers.cleanupTimer.tick })
            else some { s with heartbeatTask := none }
          else none
  | .advance t => if s.now < t ∧ s.Undue t then some { s with now := t } else none

/-- The states of the running server. -/
inductive Reachable : Server → Prop
  | start (now : DateTime) : Reachable (new settings now)
  | next {s s' : Server} (e : ServerEvent) : Reachable s → s.next U settings e = some s' → Reachable s'

/-- The three maps hold only recent entries. -/
structure Bounded : Prop where
  pending : ∀ n p, s.programs.shared.ack.pending.lookup n = some p →
    s.now - p.sentAt ≤ (settings.ack.timeoutSeconds + settings.ack.cleanupIntervalSeconds + 1) * nanosPerSecond
  queued : ∀ key, ∀ m ∈ s.programs.shared.queue.messages key,
    s.now - m.queuedAt ≤
      (settings.queue.messageTtlSeconds + settings.queue.cleanupIntervalSeconds + 1) * nanosPerSecond
  ipBuckets : ∀ ip b, s.rateLimiter.ipBuckets.lookup ip = some b →
    s.millis - b.lastActivity ≤
      (settings.rateLimitConfig.bucketTtlSeconds + settings.ratelimit.cleanupIntervalSeconds + 1) * 1000
  keyBuckets : ∀ key b, s.rateLimiter.keyBuckets.lookup key = some b →
    s.millis - b.lastActivity ≤
      (settings.rateLimitConfig.bucketTtlSeconds + settings.ratelimit.cleanupIntervalSeconds + 1) * 1000

end Server

/-! ### What an event changes -/

section events
variable {U : UnicodeTables} {settings : ServerSettings} {s s' : Server}

/-- What is stored is changed by an action of a program or by a check of the rate limiter, and by
nothing else. -/
theorem Server.next_stored {e : ServerEvent} (hn : s.next U settings e = some s') :
    ((∃ a, s'.programs.shared = s.programs.shared.apply a) ∨ s'.programs.shared = s.programs.shared) ∧
    ((∃ key, s'.rateLimiter = (s.rateLimiter.checkKey s.readings key).2) ∨
      (∃ ip, s'.rateLimiter = (s.rateLimiter.checkIp s.readings ip).2) ∨ s'.rateLimiter = s.rateLimiter) := by
  cases e with
  | program e =>
      simp only [Server.next] at hn
      split_ifs at hn
      obtain ⟨c, hc, rfl⟩ := Option.map_eq_some_iff.mp hn
      obtain ⟨op, -, rfl⟩ | ⟨i, inp, p, sh, q, l₁, l₂, -, -, hs, -, rfl⟩ := System.next_cases hc
      · exact ⟨.inr rfl, .inr (.inr rfl)⟩
      · obtain ⟨⟨a, q'⟩, -, heq⟩ := Option.map_eq_some_iff.mp hs
        obtain ⟨rfl, -⟩ := Prod.mk.inj heq
        exact ⟨.inl ⟨a, rfl⟩, .inr (.inr rfl)⟩
  | checkHttp key ip =>
      cases hn
      exact ⟨.inr rfl, .inl ⟨RateLimiter.httpKey key ip, rfl⟩⟩
  | checkIp ip =>
      cases hn
      exact ⟨.inr rfl, .inr (.inl ⟨ip, rfl⟩)⟩
  | heartbeatTick =>
      simp only [Server.next] at hn
      split at hn
      · cases hn
      · split_ifs at hn
        cases hn
        exact ⟨.inr rfl, .inr (.inr rfl)⟩
  | cleanupTick =>
      simp only [Server.next] at hn
      split at hn
      · cases hn
      · split_ifs at hn <;> cases hn
        · exact ⟨.inr rfl, .inr (.inr rfl)⟩
        · exact ⟨.inr rfl, .inr (.inr rfl)⟩
  | advance t =>
      simp only [Server.next] at hn
      split_ifs at hn
      cases hn
      exact ⟨.inr rfl, .inr (.inr rfl)⟩

theorem Service.config_ack_apply {s : Service} {a : Action} : (s.apply a).ack.config = s.ack.config := by
  cases a <;> simp [apply, log]

theorem Service.ack_apply_of_disabled {s : Service} {a : Action} (h : s.ack.config.enabled = false) :
    (s.apply a).ack = s.ack := by
  cases a <;> simp [apply, log, MemoryAckBackend.track, MemoryAckBackend.acknowledge, h]

/-- The components keep their configurations, and what is disabled is as it was at the start. -/
structure Server.Configured (settings : ServerSettings) (s : Server) : Prop where
  ackConfig : s.programs.shared.ack.config = settings.ackConfig
  queueConfig : s.programs.shared.queue.config = settings.queueConfig
  rateLimitConfig : s.rateLimiter.config = settings.rateLimitConfig
  ack : settings.ack.enabled = false → s.programs.shared.ack = .new settings.ackConfig
  queue : settings.queue.enabled = false → s.programs.shared.queue = .new settings.queueConfig
  rateLimiter : settings.ratelimit.enabled = false → s.rateLimiter = .new settings.rateLimitConfig

theorem Server.Configured.next (h : s.Configured settings) {e : ServerEvent}
    (hn : s.next U settings e = some s') : s'.Configured settings := by
  obtain ⟨hshared, hlimiter⟩ := Server.next_stored hn
  have hservice : s'.programs.shared.ack.config = settings.ackConfig ∧
      s'.programs.shared.queue.config = settings.queueConfig ∧
      (settings.ack.enabled = false → s'.programs.shared.ack = .new settings.ackConfig) ∧
      (settings.queue.enabled = false → s'.programs.shared.queue = .new settings.queueConfig) := by
    rcases hshared with ⟨a, ha⟩ | hsame
    · rw [ha]
      refine ⟨Service.config_ack_apply.trans h.ackConfig, Service.config_queue_apply.trans h.queueConfig,
        fun hd => ?_, fun hd => ?_⟩
      · have hdisabled : s.programs.shared.ack.config.enabled = false := by
          rw [h.ackConfig]
          exact hd
        exact (Service.ack_apply_of_disabled hdisabled).trans (h.ack hd)
      · have hdisabled : ¬ s.programs.shared.queue.config.enabled = true := by
          rw [h.queueConfig]
          exact Bool.eq_false_iff.mp hd
        exact (Service.queue_apply_of_disabled hdisabled).trans (h.queue hd)
    · rw [hsame]
      exact ⟨h.ackConfig, h.queueConfig, h.ack, h.queue⟩
  have hdisabled : settings.ratelimit.enabled = false → s.rateLimiter.config.enabled = false := by
    intro hd
    rw [h.rateLimitConfig]
    exact hd
  obtain ⟨hack, hqueue, hackOff, hqueueOff⟩ := hservice
  rcases hlimiter with ⟨key, hkey⟩ | ⟨ip, hip⟩ | hsame
  · refine ⟨hack, hqueue, ?_, hackOff, hqueueOff, fun hd => ?_⟩
    · rw [hkey, RateLimiter.config_checkKey]
      exact h.rateLimitConfig
    · rw [hkey, RateLimiter.checkKey_of_disabled (hdisabled hd)]
      exact h.rateLimiter hd
  · refine ⟨hack, hqueue, ?_, hackOff, hqueueOff, fun hd => ?_⟩
    · rw [hip, RateLimiter.config_checkIp]
      exact h.rateLimitConfig
    · rw [hip, RateLimiter.checkIp_of_disabled (hdisabled hd)]
      exact h.rateLimiter hd
  · exact ⟨hack, hqueue, hsame ▸ h.rateLimitConfig, hackOff, hqueueOff, fun hd => hsame.trans (h.rateLimiter hd)⟩

theorem Server.Reachable.configured (h : s.Reachable U settings) : s.Configured settings := by
  induction h with
  | start now => exact ⟨rfl, rfl, rfl, fun _ => rfl, fun _ => rfl, fun _ => rfl⟩
  | next e _ hn ih => exact ih.next hn

/-- What is disabled stores nothing. -/
theorem Server.Configured.lookup_pending (h : s.Configured settings) (hd : settings.ack.enabled = false)
    (n : Uuid) : s.programs.shared.ack.pending.lookup n = none := by
  rw [h.ack hd]
  rfl

theorem Server.Configured.messages (h : s.Configured settings) (hd : settings.queue.enabled = false)
    (key : String) : s.programs.shared.queue.messages key = [] := by
  rw [h.queue hd]
  rfl

theorem Server.Configured.lookup_buckets (h : s.Configured settings) (hd : settings.ratelimit.enabled = false) :
    (∀ ip, s.rateLimiter.ipBuckets.lookup ip = none) ∧ ∀ key, s.rateLimiter.keyBuckets.lookup key = none := by
  rw [h.rateLimiter hd]
  exact ⟨fun _ => rfl, fun _ => rfl⟩

end events

/-! ### Time goes on -/

section later
variable {U : UnicodeTables} {settings : ServerSettings} {s s' : Server} {t : DateTime}

/-- The same is stored. -/
def Server.Keeps (s s' : Server) : Prop :=
  s'.programs.shared = s.programs.shared ∧ s'.rateLimiter = s.rateLimiter

/-- How far the clock and the timers are from `t`. -/
def Server.remaining (t : DateTime) (s : Server) : ℕ :=
  (t - s.now).toNat +
    match s.heartbeatTask with
    | none => 0
    | some timers => (t - timers.heartbeatTimer.due).toNat + (t - timers.cleanupTimer.due).toNat

theorem toNat_sub_lt {a b : ℤ} (hlt : a < b) (ha : a < t) : (t - b).toNat < (t - a).toNat := by
  omega

variable (U settings) in
/-- Before `t` the clock can go on, or a timer can tick, and either is progress. -/
theorem Server.exists_progress (h : s.now < t) :
    ∃ e s', s.next U settings e = some s' ∧ s.Keeps s' ∧ s'.remaining t < s.remaining t := by
  cases htask : s.heartbeatTask with
  | none =>
      refine ⟨.advance t, { s with now := t }, if_pos ⟨h, by simp [Undue, htask]⟩, ⟨rfl, rfl⟩, ?_⟩
      have hless := toNat_sub_lt (t := t) h h
      simp only [remaining, htask]
      omega
  | some timers =>
      by_cases hheartbeat : timers.heartbeatTimer.due ≤ s.now
      · refine ⟨.heartbeatTick, s.spawn .heartbeat { timers with heartbeatTimer := timers.heartbeatTimer.tick },
          ?_, ⟨rfl, rfl⟩, ?_⟩
        · simp [Server.next, htask, hheartbeat]
        · have hless := toNat_sub_lt (t := t) timers.heartbeatTimer.due_lt_due_tick (lt_of_le_of_lt hheartbeat h)
          simp only [remaining, spawn, htask]
          omega
      · by_cases hcleanup : timers.cleanupTimer.due ≤ s.now
        · have hless := toNat_sub_lt (t := t) timers.cleanupTimer.due_lt_due_tick (lt_of_le_of_lt hcleanup h)
          by_cases hduration : (Duration.seconds (asI64 settings.websocket.connectionTimeout)).isSome
          · refine ⟨.cleanupTick, s.spawn .cleanup { timers with cleanupTimer := timers.cleanupTimer.tick },
              ?_, ⟨rfl, rfl⟩, ?_⟩
            · simp [Server.next, htask, hcleanup, hduration]
            · simp only [remaining, spawn, htask]
              omega
          · refine ⟨.cleanupTick, { s with heartbeatTask := none }, ?_, ⟨rfl, rfl⟩, ?_⟩
            · simp [Server.next, htask, hcleanup, hduration]
            · simp only [remaining, htask]
              omega
        · have hbetween : s.now < min t (min timers.heartbeatTimer.due timers.cleanupTimer.due) :=
            lt_min h (lt_min (not_le.mp hheartbeat) (not_le.mp hcleanup))
          have hundue : s.Undue (min t (min timers.heartbeatTimer.due timers.cleanupTimer.due)) := by
            simp [Undue, htask]
          refine ⟨.advance (min t (min timers.heartbeatTimer.due timers.cleanupTimer.due)), _,
            if_pos ⟨hbetween, hundue⟩, ⟨rfl, rfl⟩, ?_⟩
          have hless := toNat_sub_lt (t := t) hbetween h
          simp only [remaining, htask]
          omega

/-- **Time goes on**: from every reachable state any later time is reached with the same stored. -/
theorem Server.Reachable.exists_later (h : s.Reachable U settings) (t : DateTime) :
    ∃ s', s'.Reachable U settings ∧ s.Keeps s' ∧ t ≤ s'.now := by
  induction hn : s.remaining t using Nat.strong_induction_on generalizing s with
  | h n ih =>
      by_cases hlate : t ≤ s.now
      · exact ⟨s, h, ⟨rfl, rfl⟩, hlate⟩
      · obtain ⟨e, s₁, hnext, hkeeps, hless⟩ := Server.exists_progress U settings (not_le.mp hlate)
        obtain ⟨s', hr, hkeeps', hle⟩ := ih _ (hn ▸ hless) (h.next e hnext) rfl
        exact ⟨s', hr, ⟨hkeeps'.1.trans hkeeps.1, hkeeps'.2.trans hkeeps.2⟩, hle⟩

end later

/-! ### What is stored -/

section stored
variable {U : UnicodeTables} {settings : ServerSettings} {s : Server} {c : Config Service Pc}

/-- Programs can run while the clock stands still. -/
theorem Server.Reachable.run (h : s.Reachable U settings)
    (hr : Reaches (system U settings.toSettings) (fun c e => Legal c e ∧ Timely s.now e) s.programs c) :
    Server.Reachable U settings { s with programs := c } := by
  induction hr with
  | refl => exact h
  | @step c c' e _ hok hn ih =>
      refine ih.next (.program e) ?_
      simp only [Server.next, if_pos hok, hn]
      rfl

/-- One step of the program that was started last. -/
theorem reaches_last {now : DateTime} {c₀ : Config Service Pc} {sh : Service} {ps : List Pc} {p : Pc} {a : Action}
    {q : Option Pc} (inp : Input) (hnow : inp.now = now)
    (hr : Reaches (system U settings.toSettings) (fun c e => Legal c e ∧ Timely now e) c₀ ⟨sh, ps ++ [p]⟩)
    (hs : step U settings.toSettings inp sh p = some (a, q))
    (hreg : p.registers = true → inp.fresh ∉ sh.registeredIds)
    (henq : p.enqueues = true → inp.fresh ∉ sh.enqueuedIds) :
    Reaches (system U settings.toSettings) (fun c e => Legal c e ∧ Timely now e) c₀
      ⟨sh.apply a, ps ++ q.toList⟩ := by
  refine hr.step (e := .run ps.length inp) ⟨?_, hnow⟩ ?_
  · intro p' hp'
    obtain rfl : p = p' := by simpa using hp'
    exact ⟨hreg, henq⟩
  · simp [System.next, system, hs]

/-- A notification. -/
def invoice : NotificationEvent := (NotificationBuilder.new "invoice.created" "billing").build 7 0

/-- It is for `alice`. -/
def invoiceCall : DispatchCall := ⟨invoice, .user "alice", none, true⟩

/-- An input at clock reading 0. -/
def atZero (fresh : Uuid) : Input := ⟨0, fresh, 0, true, .main, none⟩

/-- A notification on the way to an online user is tracked. -/
theorem exists_pending (h : settings.ack.enabled = true) :
    ∃ s : Server, s.Reachable U settings ∧ ∃ n p, s.programs.shared.ack.pending.lookup n = some p := by
  let limits := settings.toSettings.connectionLimits
  let handle : ConnectionHandle := .new 1 "alice" defaultTenantId [] 0
  let d : Dispatch := ⟨invoice, none, 0, 0, 0⟩
  let sh₀ : Service := (initial settings.toSettings).shared
  let sh₁ : Service := sh₀.apply (.register .sse handle)
  let p₁ : Pc := if sh₀.queue.isEnabled then .drain .sse handle else serve .sse handle
  have hwaiting : p₁.waitingId = none := by
    simp only [p₁]
    split_ifs <;> rfl
  have r₀ : Reaches (system U settings.toSettings) (fun c e => Legal c e ∧ Timely 0 e)
      (initial settings.toSettings) ⟨sh₀, [] ++ [.connect .sse ⟨"alice", [], none⟩]⟩ :=
    Reaches.refl.step (e := .call (.connect .sse ⟨"alice", [], none⟩)) ⟨trivial, trivial⟩ rfl
  have hconnect : step U settings.toSettings (atZero 1) sh₀ (.connect .sse ⟨"alice", [], none⟩) =
      some (.register .sse handle, some p₁) := by
    have hreg : (sh₀.manager.register 1 "alice" defaultTenantId [] 0).1 = .ok handle :=
      congrArg Prod.fst (ConnectionManager.register_withLimits limits 1 "alice" defaultTenantId [] 0)
    simp only [step, atZero, Claims.getTenantId, Option.getD_none, hreg]
    rfl
  have r₁ := reaches_last (atZero 1) rfl r₀ hconnect (fun _ => List.not_mem_nil) (fun hno => by cases hno)
  have r₂ : Reaches (system U settings.toSettings) (fun c e => Legal c e ∧ Timely 0 e)
      (initial settings.toSettings) ⟨sh₁, [p₁] ++ [.begin invoiceCall]⟩ := by
    refine r₁.step (e := .call (.dispatch invoiceCall)) ⟨⟨List.not_mem_nil, ?_⟩, trivial⟩ rfl
    simp [hwaiting]
  have r₃ := reaches_last (atZero 0) rfl r₂ (a := .began invoice) (q := some (.userLookup d "alice")) rfl
    (fun hno => by cases hno) (fun hno => by cases hno)
  have r₄ := reaches_last (atZero 0) rfl r₃ (a := .silent) (q := some (.send d false [handle] [])) rfl
    (fun hno => by cases hno) (fun hno => by cases hno)
  have r₅ := reaches_last (atZero 0) rfl r₄ (a := .place 1 (.raw (.notification invoice)) 0 .direct)
    (q := some (.track { d with delivered := 1 } false handle [] [])) rfl
    (fun hno => by cases hno) (fun hno => by cases hno)
  have r₆ := reaches_last (atZero 0) rfl r₅ (a := .track 7 "alice" 1 0)
    (q := some (.send { d with delivered := 1 } false [] [])) rfl
    (fun hno => by cases hno) (fun hno => by cases hno)
  refine ⟨_, (Server.Reachable.start 0).run r₆, 7, ⟨7, "alice", 1, 0⟩, ?_⟩
  exact (MemoryAckBackend.pending_track h).trans (if_pos rfl)

/-- A notification for an offline user is queued. -/
theorem exists_queued (h : settings.queue.enabled = true) :
    ∃ s : Server, s.Reachable U settings ∧ ∃ key, ∃ m, m ∈ s.programs.shared.queue.messages key := by
  let d : Dispatch := ⟨invoice, none, 0, 0, 0⟩
  let sh₀ : Service := (initial settings.toSettings).shared
  let m : StoredMessage := .new 2 0 invoice
  have hq : sh₀.queue.config.enabled = true := h
  have r₀ : Reaches (system U settings.toSettings) (fun c e => Legal c e ∧ Timely 0 e)
      (initial settings.toSettings) ⟨sh₀, [] ++ [.begin invoiceCall]⟩ :=
    Reaches.refl.step (e := .call (.dispatch invoiceCall)) ⟨⟨List.not_mem_nil, List.not_mem_nil⟩, trivial⟩ rfl
  have r₁ := reaches_last (atZero 0) rfl r₀ (a := .began invoice) (q := some (.userLookup d "alice")) rfl
    (fun hno => by cases hno) (fun hno => by cases hno)
  have r₂ := reaches_last (atZero 0) rfl r₁ (a := .silent) (q := some (.userEnqueue d "alice")) (if_pos hq)
    (fun hno => by cases hno) (fun hno => by cases hno)
  have r₃ := reaches_last (atZero 2) rfl r₂ (a := .enqueue (queueIdentity d "alice") m) (q := some (.ret d)) rfl
    (fun hno => by cases hno) (fun _ => List.not_mem_nil)
  refine ⟨_, (Server.Reachable.start 0).run r₃, (queueIdentity d "alice").key, m, ?_⟩
  show m ∈ (Service.apply _ (.enqueue (queueIdentity d "alice") m)).queue.messages _
  rw [Service.messages_apply_enqueue h, if_pos rfl]
  exact List.mem_append_right _ List.mem_cons_self

/-- A request leaves a bucket for its key. -/
theorem exists_bucket (h : settings.ratelimit.enabled = true) :
    ∃ s : Server, s.Reachable U settings ∧ ∃ key b, s.rateLimiter.keyBuckets.lookup key = some b := by
  have hbucket : ((RateLimiter.new settings.rateLimitConfig).checkKey ⟨0, 0, 0⟩ "k").2.keyBuckets.lookup "k" = _ :=
    RateLimiter.lookup_checkKey h "k"
  exact ⟨_, (Server.Reachable.start 0).next (.checkHttp (some "k") (.v4 ⟨10, 0, 0, 7⟩)) rfl, "k", _,
    hbucket.trans (if_pos rfl)⟩

end stored

/-! ### The three maps -/

section maps
variable {U : UnicodeTables} {settings : ServerSettings}

theorem lt_sub_of_later {a b age : ℤ} (h : a + age + 1 ≤ b) : age < b - a := by
  omega

/-- A tracked notification stays until it is older than any bound. -/
theorem exists_old_pending (h : settings.ack.enabled = true) (age : Duration) :
    ∃ s : Server, s.Reachable U settings ∧
      ∃ n p, s.programs.shared.ack.pending.lookup n = some p ∧ age < s.now - p.sentAt := by
  obtain ⟨s, hs, n, p, hp⟩ := exists_pending (U := U) h
  obtain ⟨s', hs', hkeeps, hlate⟩ := hs.exists_later (p.sentAt + age + 1)
  refine ⟨s', hs', n, p, ?_, ?_⟩
  · rw [hkeeps.1]
    exact hp
  · exact lt_sub_of_later hlate

/-- So does a queued message. -/
theorem exists_old_queued (h : settings.queue.enabled = true) (age : Duration) :
    ∃ s : Server, s.Reachable U settings ∧
      ∃ key, ∃ m ∈ s.programs.shared.queue.messages key, age < s.now - m.queuedAt := by
  obtain ⟨s, hs, key, m, hm⟩ := exists_queued (U := U) h
  obtain ⟨s', hs', hkeeps, hlate⟩ := hs.exists_later (m.queuedAt + age + 1)
  refine ⟨s', hs', key, m, ?_, ?_⟩
  · rw [hkeeps.1]
    exact hm
  · exact lt_sub_of_later hlate

/-- And an idle bucket; the age is in milliseconds. -/
theorem exists_old_bucket (h : settings.ratelimit.enabled = true) (age : ℤ) :
    ∃ s : Server, s.Reachable U settings ∧
      ∃ key b, s.rateLimiter.keyBuckets.lookup key = some b ∧ age < s.millis - b.lastActivity := by
  obtain ⟨s, hs, key, b, hb⟩ := exists_bucket (U := U) h
  obtain ⟨s', hs', hkeeps, hlate⟩ := hs.exists_later ((b.lastActivity + age + 1) * 1000000)
  refine ⟨s', hs', key, b, ?_, ?_⟩
  · rw [hkeeps.2]
    exact hb
  · exact lt_sub_of_later (Int.le_ediv_of_mul_le (by decide) hlate)

/-- **Only what is disabled does not accumulate.**  The three maps hold recent entries only, in
every reachable state, exactly when all three features are disabled. -/
theorem bounded_iff (U : UnicodeTables) (settings : ServerSettings) :
    (∀ s : Server, s.Reachable U settings → s.Bounded settings) ↔
      settings.ack.enabled = false ∧ settings.queue.enabled = false ∧ settings.ratelimit.enabled = false := by
  constructor
  · intro hall
    refine ⟨?_, ?_, ?_⟩
    · by_contra hack
      obtain ⟨s, hs, n, p, hp, hold⟩ := exists_old_pending (U := U) (Bool.eq_true_of_not_eq_false hack) _
      exact absurd ((hall s hs).pending n p hp) (not_le.mpr hold)
    · by_contra hqueue
      obtain ⟨s, hs, key, m, hm, hold⟩ := exists_old_queued (U := U) (Bool.eq_true_of_not_eq_false hqueue) _
      exact absurd ((hall s hs).queued key m hm) (not_le.mpr hold)
    · by_contra hlimit
      obtain ⟨s, hs, key, b, hb, hold⟩ := exists_old_bucket (U := U) (Bool.eq_true_of_not_eq_false hlimit) _
      exact absurd ((hall s hs).keyBuckets key b hb) (not_le.mpr hold)
  · rintro ⟨hack, hqueue, hlimit⟩ s hs
    have hconfigured := hs.configured
    have hbuckets := hconfigured.lookup_buckets hlimit
    refine ⟨?_, ?_, ?_, ?_⟩
    · intro n p hp
      rw [hconfigured.lookup_pending hack] at hp
      cases hp
    · intro key m hm
      rw [hconfigured.messages hqueue] at hm
      cases hm
    · intro ip b hb
      rw [hbuckets.1] at hb
      cases hb
    · intro key b hb
      rw [hbuckets.2] at hb
      cases hb

/-- With the queue enabled and all other defaults, a message for a user who does not come back
stays for longer than its TTL and the clean-up interval. -/
theorem queued_for_ever :
    ¬ ∀ s : Server, s.Reachable .ascii ServerSettings.withQueue → s.Bounded ServerSettings.withQueue := by
  intro hall
  have henabled : ServerSettings.withQueue.queue.enabled = true := rfl
  obtain ⟨s, hs, key, m, hm, hold⟩ :=
    exists_old_queued (U := .ascii) henabled ((3600 + 300 + 1) * nanosPerSecond)
  exact absurd ((hall s hs).queued key m hm) (not_le.mpr hold)

end maps

/-! ### The clean-ups -/

section cleanups
variable {U : UnicodeTables} {settings : ServerSettings} {s : Server}

/-- The three clean-ups at this moment; the service never does this. -/
def Server.cleanUp (s : Server) : Server :=
  let shared := s.programs.shared
  { s with
    programs := ⟨{ shared with
      ack := (shared.ack.cleanupExpired s.now).2
      queue := (shared.queue.cleanupExpired s.now).2 }, s.programs.threads⟩
    rateLimiter := (s.rateLimiter.cleanupStale s.millis).2 }

theorem lt_of_not_expired {d : Duration} {seconds : ℕ} (h : ¬ Duration.numSeconds d ≥ asI64 seconds) :
    d < seconds * nanosPerSecond := by
  have hlt : Duration.numSeconds d < seconds := lt_of_lt_of_le (not_le.mp h) (asI64_le seconds)
  by_contra hge
  have hpos : (0 : ℤ) ≤ seconds * nanosPerSecond := mul_nonneg (Int.natCast_nonneg seconds) (by decide)
  have hle := (Duration.le_numSeconds_iff (hpos.trans (not_lt.mp hge)) seconds).mpr (not_lt.mp hge)
  exact absurd hle (not_le.mpr hlt)

theorem lt_of_keeps {l : RateLimiter} {now : ℤ} {b : TokenBucket} (h : l.keeps now b = true) :
    now - b.lastActivity < l.config.bucketTtlSeconds * 1000 := by
  have hmod : l.config.bucketTtlSeconds * 1000 % 2 ^ 64 ≤ l.config.bucketTtlSeconds * 1000 := Nat.mod_le _ _
  have hcast := asI64_le (l.config.bucketTtlSeconds * 1000 % 2 ^ 64)
  have hlt : now - b.lastActivity < asI64 (l.config.bucketTtlSeconds * 1000 % 2 ^ 64) := of_decide_eq_true h
  omega

/-- An age below the TTL is within the bound. -/
theorem le_bound {age unit : ℤ} {ttl interval : ℕ} (h : age < ttl * unit) (hunit : 0 ≤ unit) :
    age ≤ (ttl + interval + 1) * unit := by
  have hinterval : 0 ≤ (interval + 1 : ℤ) * unit := mul_nonneg (by omega) hunit
  calc age ≤ ttl * unit := h.le
    _ ≤ ttl * unit + (interval + 1) * unit := le_add_of_nonneg_right hinterval
    _ = (ttl + interval + 1) * unit := by ring

/-- The clean-ups do what the bounds need: after them the maps hold only recent entries. -/
theorem bounded_cleanUp (h : s.Reachable U settings) : s.cleanUp.Bounded settings := by
  have hconfigured := h.configured
  have hnanos : (0 : ℤ) ≤ nanosPerSecond := by decide
  have hbucket : ∀ b, s.rateLimiter.keeps s.millis b = true → s.millis - b.lastActivity ≤
      (settings.rateLimitConfig.bucketTtlSeconds + settings.ratelimit.cleanupIntervalSeconds + 1) * 1000 := by
    intro b hb
    rw [← hconfigured.rateLimitConfig]
    exact le_bound (lt_of_keeps hb) (by decide)
  refine ⟨?_, ?_, ?_, ?_⟩
  · intro n p hp
    cases henabled : settings.ack.enabled with
    | false =>
        have hoff : s.programs.shared.ack.config.enabled = false := by
          rw [hconfigured.ackConfig]
          exact henabled
        simp only [Server.cleanUp, MemoryAckBackend.cleanupExpired, hoff, Bool.false_eq_true, if_false] at hp
        rw [hconfigured.lookup_pending henabled] at hp
        cases hp
    | true =>
        have hon : s.programs.shared.ack.config.enabled = true := by
          rw [hconfigured.ackConfig]
          exact henabled
        simp only [Server.cleanUp, MemoryAckBackend.cleanupExpired_pending hon, DashMap.lookup_retain,
          Option.filter_eq_some_iff] at hp
        have hlive : ¬ Duration.numSeconds (s.now - p.sentAt) ≥ asI64 settings.ack.timeoutSeconds := by
          have hnot := hp.2
          rw [hconfigured.ackConfig] at hnot
          simpa [PendingAckInfo.isExpired, Settings.ackConfig] using hnot
        exact le_bound (lt_of_not_expired hlive) hnanos
  · intro key m hm
    simp only [Server.cleanUp, MemoryQueueBackend.messages_cleanupExpired, List.mem_filter] at hm
    have hlive : ¬ Duration.numSeconds (s.now - m.queuedAt) ≥ asI64 settings.queue.messageTtlSeconds := by
      have hnot := hm.2
      rw [hconfigured.queueConfig] at hnot
      simpa [StoredMessage.isExpired, Settings.queueConfig] using hnot
    exact le_bound (lt_of_not_expired hlive) hnanos
  · intro ip b hb
    simp only [Server.cleanUp, RateLimiter.cleanupStale, DashMap.lookup_retain, Option.filter_eq_some_iff] at hb
    exact hbucket b hb.2
  · intro key b hb
    simp only [Server.cleanUp, RateLimiter.cleanupStale, DashMap.lookup_retain, Option.filter_eq_some_iff] at hb
    exact hbucket b hb.2

end cleanups

end AraNotification
