import AraNotification.CircuitBreaker
import AraNotification.RedisPool
import AraNotification.RedisTrigger

/-! # The loop of the Redis subscriber

`RedisSubscriber::start` connects to Redis, subscribes to its channels and handles messages
until it is shut down, and after an error it waits and tries again.  `Task` is the task that
runs it, with one phase for each place at which it waits, and `step` what one event of its
surroundings does to it (`domain/notification/triggers/redis.rs`, `infrastructure/redis/backoff.rs`):

1. `check`: the top of the loop, which waits when the circuit is open and else connects;
2. `wake`: the end of a wait for the circuit or of a delay;
3. `connected`, `subscribed`: the answers to the connection and to each subscription;
4. `establish`: the success is recorded and a shutdown receiver is made;
5. `message`, `handled`, `streamEnded`, `receive`: the branches of the inner loop;
6. `fail`: the error is recorded, a delay is drawn and a shutdown receiver is made.

A receiver of the shutdown channel sees what is sent while it lives, and a value that is sent
without one is lost.  `tokio::select!` takes any branch that is ready.  The breaker and the health
are shared, so others may change them at any time (`environment`).

The inner loop leaves with the same `Ok(())` when it is shut down and when the message stream
ends, and an empty range of delays makes `next_delay` panic.  The task is stopped by a shutdown
signal alone exactly where neither happens (`onlyShutdownStops_iff`). -/

namespace AraNotification

/-- The settings of the subscriber. -/
structure RedisConfig where
  channels : List String
  circuitBreakerResetTimeoutSeconds : ℕ
  backoffInitialDelayMs : ℕ
  backoffMaxDelayMs : ℕ
deriving DecidableEq, Repr

/-! ### Backoff -/

/-- Exponential backoff calculator with jitter; the multiplier is 2. -/
structure ExponentialBackoff where
  maxDelayMs : ℕ
  currentDelayMs : ℕ
  attempt : ℕ
deriving DecidableEq, Repr

namespace ExponentialBackoff

def withConfig (initialDelayMs maxDelayMs : ℕ) : ExponentialBackoff := ⟨maxDelayMs, initialDelayMs, 0⟩

/-- The delay before jitter. -/
def cappedDelay (b : ExponentialBackoff) : ℕ := min (b.currentDelayMs * 2) b.maxDelayMs

/-- Get the next delay; `drawn` is the delay with the jitter that is drawn, and to draw from the
empty range around 0 is a panic. -/
def nextDelay (b : ExponentialBackoff) (drawn : ℕ) : Option (ℕ × ExponentialBackoff) :=
  if b.cappedDelay = 0 then none
  else
    let finalDelay := max drawn 1
    some (finalDelay, { b with currentDelayMs := finalDelay, attempt := (b.attempt + 1) % 2 ^ 32 })

end ExponentialBackoff

namespace RedisSubscriber

/-- Get configured channels. -/
def getChannels (config : RedisConfig) : List String :=
  if config.channels.isEmpty then
    ["notification:user:*", "notification:broadcast", "notification:channel:*"]
  else config.channels

/-- A channel is subscribed to as a pattern. -/
def isPattern (channel : String) : Bool :=
  channel.contains '*' || channel.contains '?' || channel.contains '['

/-- What a message makes the dispatcher do: the target, the event data and the tenant. -/
def dispatched (payload : Except String RedisNotificationMessage) :
    Option (NotificationTarget × RedisEventData × Option String) :=
  match payload with
  | .error _ => none
  | .ok message =>
      (parseTarget message message.tenantId).map (fun target => (target, message.event, message.tenantId))

theorem handleMessage_eq (m : ConnectionManager) (d : Dispatcher) (o : Occasion) (channel : String)
    (payload : Except String RedisNotificationMessage) :
    handleMessage m d o channel payload = match dispatched payload with
      | none => d
      | some (target, event, tenant) =>
          (d.dispatchForTenant o.env m target (buildEvent channel event o) tenant).2 := by
  unfold handleMessage dispatched
  cases payload with
  | error e => rfl
  | ok message => cases hp : parseTarget message message.tenantId <;> simp only [hp, Option.map]

/-! ### The task -/

/-- Where the task waits. -/
inductive Phase where
  | checking
  | waiting (seconds : ℕ)
  | connecting
  | subscribing (rest : List String)
  | streaming
  | handling
  | failed
  | delayed (ms : ℕ)
  | returned
  | panicked
deriving DecidableEq, Repr

/-- The task that runs `start`; `shutdownRx` is its shutdown receiver and whether a value waits in
it. -/
structure Task where
  phase : Phase
  shutdownRx : Option Bool
  backoff : ExponentialBackoff
  circuitBreaker : CircuitBreaker
  health : RedisHealth

/-- What happens to the task. -/
inductive Event where
  | send
  | environment (circuitBreaker : CircuitBreaker) (health : RedisHealth)
  | check (now : ℤ)
  | wake
  | connected (ok : Bool)
  | subscribed (ok : Bool)
  | establish (now : ℤ)
  | receive
  | message (now : ℤ) (channel : String) (payload : Option (Except String RedisNotificationMessage))
  | handled
  | streamEnded
  | fail (now : ℤ) (loggedAt : Option ℤ) (drawn : ℕ)

/-- What the task is seen to do. -/
inductive Action where
  | sent
  | attempt
  | subscribe (channel : String) (pattern : Bool)
  | dispatch (channel : String) (target : NotificationTarget) (event : RedisEventData)
      (tenant : Option String)
  | shutdown

/-- Start the Redis subscriber loop. -/
def start (config : RedisConfig) (circuitBreaker : CircuitBreaker) (health : RedisHealth) : Task where
  phase := if (getChannels config).isEmpty then .returned else .checking
  shutdownRx := none
  backoff := .withConfig config.backoffInitialDelayMs config.backoffMaxDelayMs
  circuitBreaker := circuitBreaker
  health := health

namespace Task

/-- The subscription to the next channel is requested. -/
def subscribe (s : Task) (channels : List String) : Option Action × Task :=
  (channels.head?.map (fun channel => .subscribe channel (isPattern channel)),
    { s with phase := .subscribing channels })

/-- The top of the loop. -/
def check (s : Task) (config : RedisConfig) (now : ℤ) : Option Action × Task :=
  match s.circuitBreaker.getState now with
  | (.opened, breaker) =>
      (none, { s with
        phase := .waiting (config.circuitBreakerResetTimeoutSeconds / 2 + 1)
        circuitBreaker := breaker
        health := s.health.setCircuitOpen })
  | (_, breaker) =>
      (some .attempt, { s with
        phase := .connecting
        circuitBreaker := breaker
        health := s.health.setReconnecting })

/-- The subscription is established. -/
def establish (s : Task) (now : ℤ) : Task :=
  { s with
    phase := .streaming
    shutdownRx := some false
    circuitBreaker := s.circuitBreaker.recordSuccess now
    health := s.health.setConnected now }

/-- A message of the stream; one without a payload is skipped. -/
def message (s : Task) (now : ℤ) (channel : String)
    (payload : Option (Except String RedisNotificationMessage)) : Option Action × Task :=
  let recorded := { s with circuitBreaker := s.circuitBreaker.recordSuccess now }
  match payload with
  | none => (none, recorded)
  | some payload =>
      ((dispatched payload).map (fun d => .dispatch channel d.1 d.2.1 d.2.2),
        { recorded with phase := .handling })

/-- An attempt has failed; the state of the breaker is asked for once more when the error is
logged. -/
def fail (s : Task) (now : ℤ) (loggedAt : Option ℤ) (drawn : ℕ) : Task :=
  let failure := s.circuitBreaker.recordFailure now
  match s.backoff.nextDelay drawn with
  | none => { s with phase := .panicked, circuitBreaker := failure }
  | some (delay, backoff) =>
      { s with
        phase := .delayed delay
        shutdownRx := some false
        backoff := backoff
        circuitBreaker := loggedAt.elim failure (fun t => (failure.getState t).2) }

/-- The loop is left. -/
def leave (s : Task) : Task := { s with phase := .returned, shutdownRx := none }

/-- What an event does; one that cannot happen in the phase does nothing. -/
def step (config : RedisConfig) (s : Task) (e : Event) : Option Action × Task :=
  match e, s.phase with
  | .send, _ => (some .sent, { s with shutdownRx := s.shutdownRx.map (fun _ => true) })
  | .environment circuitBreaker health, _ =>
      (none, { s with circuitBreaker := circuitBreaker, health := health })
  | .check now, .checking => s.check config now
  | .wake, .waiting _ => (none, { s with phase := .checking })
  | .wake, .delayed _ => (none, { s with phase := .checking, shutdownRx := none })
  | .connected true, .connecting => s.subscribe (getChannels config)
  | .connected false, .connecting => (none, { s with phase := .failed })
  | .subscribed true, .subscribing (_ :: rest) => s.subscribe rest
  | .subscribed false, .subscribing (_ :: _) => (none, { s with phase := .failed })
  | .establish now, .subscribing [] => (none, s.establish now)
  | .receive, .streaming => if s.shutdownRx = some true then (some .shutdown, s.leave) else (none, s)
  | .receive, .delayed _ => if s.shutdownRx = some true then (some .shutdown, s.leave) else (none, s)
  | .message now channel payload, .streaming => s.message now channel payload
  | .handled, .handling => (none, { s with phase := .streaming })
  | .streamEnded, .streaming => (none, s.leave)
  | .fail now loggedAt drawn, .failed => (none, s.fail now loggedAt drawn)
  | _, _ => (none, s)

/-! ### What a run must do -/

/-- An attempt is under way. -/
def attempting (s : Task) : Bool :=
  match s.phase with
  | .connecting | .subscribing _ | .streaming | .handling => true
  | _ => false

/-- An attempt is under way, or the next one can come. -/
def GoesOn (config : RedisConfig) (s : Task) : Prop :=
  s.attempting = true ∨ ∃ events, (Runs.final (step config) s events).phase = .connecting

abbrev Entry := Runs.Entry Task Event (Option Action)

/-- The task returns only after it has received a shutdown signal, and until then it goes on. -/
structure OnlyShutdownStops (config : RedisConfig) (history : List Entry) : Prop where
  returns : ∀ earlier e later, history = earlier ++ e :: later → e.after.phase = .returned →
    ∃ e' ∈ earlier ++ [e], e'.output = some .shutdown
  goesOn : ∀ earlier e later, history = earlier ++ e :: later →
    (∀ e' ∈ earlier ++ [e], e'.output ≠ some .shutdown) → e.after.GoesOn config

/-- The message stream ends, or an attempt fails when the next delay is 0. -/
def stops (s : Task) (e : Event) : Bool :=
  match e, s.phase with
  | .streamEnded, .streaming => true
  | .connected false, .connecting => decide (s.backoff.cappedDelay = 0)
  | .subscribed false, .subscribing (_ :: _) => decide (s.backoff.cappedDelay = 0)
  | _, _ => false

/-- The loop has not been left and the next delay does not panic. -/
def viable (s : Task) : Bool :=
  match s.phase with
  | .returned | .panicked => false
  | .failed => decide (s.backoff.cappedDelay ≠ 0)
  | _ => true

/-! ### One event -/

section events
variable {config : RedisConfig} {s : Task} {e : Event}

theorem check_viable (s : Task) (config : RedisConfig) (now : ℤ) :
    (s.check config now).2.viable = true ∧ (s.check config now).1 ≠ some .shutdown := by
  unfold check
  split <;> exact ⟨rfl, by simp⟩

theorem subscribe_viable (s : Task) (channels : List String) :
    (s.subscribe channels).2.viable = true ∧ (s.subscribe channels).1 ≠ some .shutdown := by
  refine ⟨rfl, ?_⟩
  cases channels <;> simp [subscribe]

theorem message_viable (hs : s.phase = .streaming) (now : ℤ) (channel : String)
    (payload : Option (Except String RedisNotificationMessage)) :
    (s.message now channel payload).2.viable = true ∧
      (s.message now channel payload).1 ≠ some .shutdown := by
  cases payload with
  | none => simp [message, viable, hs]
  | some payload => cases hd : dispatched payload <;> simp [message, viable, hd]

theorem fail_viable (hcap : s.backoff.cappedDelay ≠ 0) (now : ℤ) (loggedAt : Option ℤ) (drawn : ℕ) :
    (s.fail now loggedAt drawn).viable = true := by
  simp [fail, ExponentialBackoff.nextDelay, hcap, viable]

theorem stops_cases (h : s.stops e = true) :
    (e = .streamEnded ∧ s.phase = .streaming) ∨
      (s.backoff.cappedDelay = 0 ∧ ((e = .connected false ∧ s.phase = .connecting) ∨
        ∃ channel rest, e = .subscribed false ∧ s.phase = .subscribing (channel :: rest))) := by
  unfold stops at h
  split at h
  · next hp => exact .inl ⟨rfl, hp⟩
  · next hp => exact .inr ⟨of_decide_eq_true h, .inl ⟨rfl, hp⟩⟩
  · next hp => exact .inr ⟨of_decide_eq_true h, .inr ⟨_, _, rfl, hp⟩⟩
  · cases h

/-- Where the loop stops by itself it does not go on, and no shutdown signal is received. -/
theorem step_of_stops (config : RedisConfig) (h : s.stops e = true) :
    (step config s e).2.viable = false ∧ (step config s e).1 ≠ some .shutdown := by
  obtain ⟨rfl, hp⟩ | ⟨hcap, ⟨rfl, hp⟩ | ⟨channel, rest, rfl, hp⟩⟩ := stops_cases h
  · simp [step, hp, leave, viable]
  · simp [step, hp, viable, hcap]
  · simp [step, hp, viable, hcap]

/-- A loop that does not stop by itself goes on unless a shutdown signal is received. -/
theorem step_of_viable (h : s.viable = true) (hstop : s.stops e = false) :
    (step config s e).2.viable = true ↔ (step config s e).1 ≠ some .shutdown := by
  have hkeep {out : Option Action} {s' : Task} (hs : s'.viable = true ∧ out ≠ some .shutdown) :
      s'.viable = true ↔ out ≠ some .shutdown := iff_of_true hs.1 hs.2
  unfold step
  split
  · exact hkeep ⟨h, by simp⟩
  · exact hkeep ⟨h, by simp⟩
  · exact hkeep (check_viable _ _ _)
  · exact hkeep ⟨rfl, by simp⟩
  · exact hkeep ⟨rfl, by simp⟩
  · exact hkeep (subscribe_viable _ _)
  · next hp => exact hkeep ⟨by simpa [stops, hp, viable] using hstop, by simp⟩
  · exact hkeep (subscribe_viable _ _)
  · next hp => exact hkeep ⟨by simpa [stops, hp, viable] using hstop, by simp⟩
  · exact hkeep ⟨rfl, by simp⟩
  · split_ifs
    · simp [leave, viable]
    · exact hkeep ⟨h, by simp⟩
  · split_ifs
    · simp [leave, viable]
    · exact hkeep ⟨h, by simp⟩
  · next hp => exact hkeep (message_viable hp _ _ _)
  · exact hkeep ⟨rfl, by simp⟩
  · next hp => simp [stops, hp] at hstop
  · next hp =>
      have hcap : s.backoff.cappedDelay ≠ 0 := by simpa [viable, hp] using h
      exact hkeep ⟨fail_viable hcap _ _ _, by simp⟩
  · exact hkeep ⟨h, by simp⟩

/-- A loop that does not go on stays so and receives nothing. -/
theorem step_of_not_viable (h : s.viable = false) :
    (step config s e).2.viable = false ∧ (step config s e).1 ≠ some .shutdown ∧ s.stops e = false := by
  have hphase : s.phase = .returned ∨ s.phase = .panicked ∨
      (s.phase = .failed ∧ s.backoff.cappedDelay = 0) := by
    unfold viable at h
    split at h <;> simp_all
  rcases hphase with hp | hp | ⟨hp, hcap⟩
  · cases e <;> simp [step, stops, viable, hp]
  · cases e <;> simp [step, stops, viable, hp]
  · cases e <;> simp [step, stops, viable, hp, hcap, fail, ExponentialBackoff.nextDelay]

/-- At the top of the loop an attempt is made when the timeout of the breaker is over. -/
theorem attempts_of_checking (config : RedisConfig) (h : s.phase = .checking) :
    ∃ now, (step config s (.check now)).2.phase = .connecting := by
  refine ⟨s.circuitBreaker.lastStateChange + asI64 s.circuitBreaker.config.resetTimeoutMs, ?_⟩
  simp only [step, h, check]
  split
  · next hopen =>
      have htimedOut : s.circuitBreaker.timedOut
          (s.circuitBreaker.lastStateChange + asI64 s.circuitBreaker.config.resetTimeoutMs) = true := by
        simp [CircuitBreaker.timedOut]
      cases hb : s.circuitBreaker.state <;>
        simp [CircuitBreaker.getState, CircuitBreaker.checkStateTransition, hb, htimedOut] at hopen
  · rfl

theorem reconnects_of_checking (config : RedisConfig) (events : List Event)
    (h : (Runs.final (step config) s events).phase = .checking) : s.GoesOn config := by
  obtain ⟨now, hnow⟩ := attempts_of_checking config h
  refine .inr ⟨events ++ [.check now], ?_⟩
  rw [Runs.final_snoc]
  exact hnow

theorem final_viable (h : s.viable = false) (events : List Event) :
    (Runs.final (step config) s events).viable = false := by
  induction events generalizing s with
  | nil => exact h
  | cons e events ih => exact ih (step_of_not_viable h).1

theorem goesOn_iff (config : RedisConfig) : s.GoesOn config ↔ s.viable = true := by
  constructor
  · rintro (h | ⟨events, h⟩)
    · unfold attempting at h
      split at h <;> simp_all [viable]
    · by_contra hv
      have hfinal : (Runs.final (step config) s events).viable = false :=
        final_viable (Bool.eq_false_of_not_eq_true hv) events
      simp [viable, h] at hfinal
  · intro h
    cases hp : s.phase with
    | connecting | subscribing _ | streaming | handling => exact .inl (by simp [attempting, hp])
    | returned | panicked => simp [viable, hp] at h
    | checking => exact reconnects_of_checking config [] hp
    | waiting seconds => exact reconnects_of_checking config [.wake] (by simp [Runs.final, step, hp])
    | delayed ms => exact reconnects_of_checking config [.wake] (by simp [Runs.final, step, hp])
    | failed =>
        have hcap : s.backoff.cappedDelay ≠ 0 := by simpa [viable, hp] using h
        exact reconnects_of_checking config [.fail 0 none 1, .wake]
          (by simp [Runs.final, step, hp, fail, ExponentialBackoff.nextDelay, hcap])

end events

/-! ### Runs -/

section runs
variable {config : RedisConfig} {s : Task} {e : Entry} {history : List Entry}

theorem onlyShutdownStops_cons : OnlyShutdownStops config (e :: history) ↔
    (e.output ≠ some .shutdown → e.after.GoesOn config ∧ OnlyShutdownStops config history) := by
  constructor
  · intro h hout
    refine ⟨h.goesOn [] e history rfl (by simpa using hout), fun earlier e' later heq hret => ?_, ?_⟩
    · obtain ⟨e'', he'', hshut⟩ := h.returns (e :: earlier) e' later (by rw [heq]; rfl) hret
      rcases List.mem_cons.mp he'' with rfl | he''
      · exact absurd hshut hout
      · exact ⟨e'', he'', hshut⟩
    · intro earlier e' later heq hnone
      refine h.goesOn (e :: earlier) e' later (by rw [heq]; rfl) (fun e'' he'' => ?_)
      rcases List.mem_cons.mp he'' with rfl | he''
      · exact hout
      · exact hnone e'' he''
  · intro h
    have hgoes : ∀ earlier e' later, e :: history = earlier ++ e' :: later →
        (∀ e'' ∈ earlier ++ [e'], e''.output ≠ some .shutdown) → e'.after.GoesOn config := by
      intro earlier e' later heq hnone
      cases earlier with
      | nil =>
          cases heq
          exact (h (hnone e (List.mem_singleton_self _))).1
      | cons e₁ earlier =>
          cases heq
          have htail := (h (hnone e List.mem_cons_self)).2
          exact htail.goesOn earlier e' later rfl (fun e'' he'' => hnone e'' (List.mem_cons_of_mem _ he''))
    refine ⟨fun earlier e' later heq hret => ?_, hgoes⟩
    by_contra hnone
    push Not at hnone
    have hviable := (goesOn_iff config).mp (hgoes earlier e' later heq hnone)
    simp [viable, hret] at hviable

theorem admissible_of_not_viable (h : s.viable = false) (events : List Event) :
    Runs.Admissible (step config) (fun s e => s.stops e = false) s events := by
  induction events generalizing s with
  | nil => trivial
  | cons e events ih =>
      have hnext : (step config s e).2.viable = false := (step_of_not_viable h).1
      have hstops : s.stops e = false := (@step_of_not_viable config _ _ h).2.2
      exact ⟨hstops, ih hnext⟩

theorem onlyShutdownStops_trace_iff (h : s.viable = true) (events : List Event) :
    OnlyShutdownStops config (Runs.trace (step config) s events) ↔
      Runs.Admissible (step config) (fun s e => s.stops e = false) s events := by
  induction events generalizing s with
  | nil =>
      have hnil (earlier : List Entry) (e : Entry) (later : List Entry) : [] ≠ earlier ++ e :: later := by simp
      exact iff_of_true ⟨fun _ _ _ heq => absurd heq (hnil _ _ _), fun _ _ _ heq => absurd heq (hnil _ _ _)⟩
        trivial
  | cons e events ih =>
      rw [Runs.trace, onlyShutdownStops_cons, Runs.Admissible]
      simp only [Runs.entry, goesOn_iff]
      cases hstop : s.stops e with
      | true =>
          obtain ⟨hdead, hout⟩ := step_of_stops config hstop
          simp [hdead, hout]
      | false =>
          have hnext : (step config s e).2.viable = true ↔ (step config s e).1 ≠ some .shutdown :=
            step_of_viable h hstop
          by_cases hout : (step config s e).1 = some .shutdown
          · have hdead : (step config s e).2.viable = false :=
              Bool.eq_false_of_not_eq_true (fun hv => hnext.mp hv hout)
            exact iff_of_true (fun hne => absurd hout hne) ⟨rfl, admissible_of_not_viable hdead events⟩
          · have hviable := hnext.mpr hout
            simp only [ne_eq, hout, not_false_eq_true, hviable, true_and, forall_const]
            exact ih hviable

theorem start_viable (config : RedisConfig) (circuitBreaker : CircuitBreaker) (health : RedisHealth) :
    (start config circuitBreaker health).viable = true := by
  have hne : (getChannels config).isEmpty = false := by
    unfold getChannels
    split_ifs with hempty
    · rfl
    · exact Bool.eq_false_of_not_eq_true hempty
  simp [start, hne, viable]

/-- **A shutdown signal is all that stops the subscriber exactly where the stream does not end and
no attempt fails when the next delay is 0.** -/
theorem onlyShutdownStops_iff (config : RedisConfig) (circuitBreaker : CircuitBreaker)
    (health : RedisHealth) (events : List Event) :
    OnlyShutdownStops config (Runs.trace (step config) (start config circuitBreaker health) events) ↔
      Runs.Admissible (step config) (fun s e => s.stops e = false)
        (start config circuitBreaker health) events :=
  onlyShutdownStops_trace_iff (start_viable config circuitBreaker health) events

/-- One channel, and the delays of the default settings. -/
def oneChannel : RedisConfig := ⟨["notification:broadcast"], 30, 100, 30000⟩

/-- The server closes the connection of an established subscription. -/
def closedByServer : List Event := [.check 0, .connected true, .subscribed true, .establish 0, .streamEnded]

theorem stopped_by_stream_end :
    ¬ ∀ (config : RedisConfig) (circuitBreaker : CircuitBreaker) (health : RedisHealth)
        (events : List Event), config.channels ≠ [] →
        OnlyShutdownStops config (Runs.trace (step config) (start config circuitBreaker health) events) := by
  intro hall
  have h := hall oneChannel (.withConfig .default 0) .new closedByServer (by decide)
  obtain ⟨e, he, hshut⟩ := h.returns
    (Runs.trace (step oneChannel) (start oneChannel (.withConfig .default 0) .new)
      [.check 0, .connected true, .subscribed true, .establish 0])
    (Runs.entry (step oneChannel) (Runs.final (step oneChannel)
      (start oneChannel (.withConfig .default 0) .new)
      [.check 0, .connected true, .subscribed true, .establish 0]) .streamEnded) [] rfl rfl
  simp only [Runs.trace, List.mem_append, List.mem_cons, List.not_mem_nil, or_false] at he
  rcases he with (rfl | rfl | rfl | rfl) | rfl <;> cases hshut

end runs

end Task

end RedisSubscriber

end AraNotification
