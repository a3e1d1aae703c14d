import AraNotification.RunnableConfig

/-! # The subscriber comes back

A subscriber that has not been established when Redis comes back may be waiting for the circuit,
waiting for a delay, or have an attempt under way that nobody answers any more, and other users of the
breaker may have opened it.  Here the loop has a clock.  A wait or a delay ends when it is over
and not much later, a step of the task itself is made soon, and from some time on the server
answers (`Works`): attempts made from then on succeed, and no user of the breaker reports a failure.
An attempt that was made before may still fail, when it is given up.

Every state has a time by which the subscription is established (`deadline`), and no event puts it
off: after one more wait the timeout of the circuit is over, since a wait lasts more than half of it.
So the subscriber is established by the time `comeback` (`subscribed_again`): when an attempt that is
under way has been given up, after the longest delay, or the timeout of the circuit with one wait more,
and the answers of the server. -/

namespace AraNotification

namespace RedisSubscriber

/-! ### The loop with a clock -/

/-- How long things take, in milliseconds: a step of the task, or an answer of a server that works,
and an attempt that is not answered. -/
structure Latency where
  step : ℕ
  attempt : ℕ

/-- The task at a time, with the times at which it has entered its phase and last been at the top of
the loop. -/
structure TimedTask where
  task : Task
  now : ℤ
  since : ℤ
  checkedAt : ℤ

/-- An event with its time. -/
structure TimedEvent where
  now : ℤ
  event : Event

/-- The subscription is established. -/
def Task.Subscribed (s : Task) : Prop := s.phase = .streaming ∨ s.phase = .handling

/-- The time for the answers to `n` subscriptions and for a step. -/
def Latency.answers (l : Latency) (n : ℕ) : ℤ := (n + 1) * l.step

/-- The longest time between a failure and the end of the last wait before the next attempt, but for the
steps of the task. -/
def pause (config : RedisConfig) : ℤ :=
  max (11 * config.backoffMaxDelayMs / 10)
    (1000 * config.circuitBreakerResetTimeoutSeconds + 1000 * (config.circuitBreakerResetTimeoutSeconds / 2 + 1))

/-- The time from a failure to the subscription. -/
def retry (config : RedisConfig) (l : Latency) : ℤ :=
  3 * l.step + pause config + l.answers ((getChannels config).length + 1)

/-- The time from when the server works to the subscription. -/
def comeback (config : RedisConfig) (l : Latency) : ℤ := l.attempt + retry config l

namespace TimedTask

/-- Start the loop at a time. -/
def start (config : RedisConfig) (circuitBreaker : CircuitBreaker) (health : RedisHealth) (now : ℤ) : TimedTask :=
  ⟨RedisSubscriber.start config circuitBreaker health, now, now, now⟩

/-- What an event does at its time. -/
def step (config : RedisConfig) (c : TimedTask) (e : TimedEvent) : Option Action × TimedTask :=
  let r := Task.step config c.task e.event
  (r.1,
    { task := r.2
      now := e.now
      since := if r.2.phase = c.task.phase then c.since else e.now
      checkedAt := match e.event with
        | .check _ => e.now
        | _ => c.checkedAt })

variable (l : Latency) (T : ℤ) (c : TimedTask) (e : TimedEvent)

/-- When the task makes its next step by itself, at the latest. -/
def due : Option ℤ :=
  match c.task.phase with
  | .checking | .failed | .subscribing [] => some (c.since + l.step)
  | .waiting seconds => some (c.since + 1000 * seconds + l.step)
  | .delayed ms => some (c.since + ms + l.step)
  | _ => none

/-- The event can happen, at its time.  The breaker is changed by calls of its other users, and the
jitter is at most a tenth of the delay.  Neither is the task shut down nor does its stream end. -/
def Occurs : Prop :=
  match e.event, c.task.phase with
  | .environment circuitBreaker _, _ => ∃ call, circuitBreaker = (c.task.circuitBreaker.step ⟨call, e.now⟩).2
  | .check now, .checking => now = e.now
  | .wake, .waiting seconds => c.since + 1000 * seconds ≤ e.now
  | .wake, .delayed ms => c.since + ms ≤ e.now
  | .connected _, .connecting => True
  | .subscribed _, .subscribing (_ :: _) => True
  | .establish now, .subscribing [] => now = e.now
  | .message now _ _, .streaming => now = e.now
  | .handled, .handling => True
  | .fail now loggedAt drawn, .failed =>
      now = e.now ∧ (∀ t ∈ loggedAt, t = e.now) ∧ 10 * drawn ≤ 11 * c.task.backoff.cappedDelay
  | _, _ => False

/-- Time goes on, and no step is made late. -/
def Timely : Prop := c.now ≤ e.now ∧ (∀ t ∈ c.due l, e.now ≤ t) ∧ c.Occurs e

/-- When an attempt is answered, or given up, at the latest. -/
def answeredBy : Option ℤ :=
  match c.task.phase with
  | .connecting | .subscribing (_ :: _) => some (if c.checkedAt < T then T + l.attempt else c.since + l.step)
  | _ => none

/-- The server works from `T` on: only attempts that were made before fail, and nobody reports a failure. -/
def Works : Prop :=
  (∀ t ∈ c.answeredBy l T, e.now ≤ t) ∧
  match e.event with
  | .environment circuitBreaker _ =>
      ∃ call, call ≠ .recordFailure ∧ circuitBreaker = (c.task.circuitBreaker.step ⟨call, e.now⟩).2
  | .connected false | .subscribed false => c.checkedAt < T
  | _ => True

/-! ### Deadlines -/

/-- The end of the last wait for the circuit, when the next one ends at `t` at the latest. -/
def circuitBy (config : RedisConfig) (t : ℤ) : ℤ :=
  if c.task.circuitBreaker.state = .opened then
    max t (c.task.circuitBreaker.lastStateChange + pause config + 2 * l.step)
  else t

/-- When the subscription is established, at the latest. -/
def deadline (config : RedisConfig) : ℤ :=
  match c.task.phase with
  | .checking => c.circuitBy l config (c.since + l.step) + l.answers ((getChannels config).length + 1)
  | .waiting seconds =>
      c.circuitBy l config (c.since + 1000 * seconds + 2 * l.step) + l.answers ((getChannels config).length + 1)
  | .delayed ms => c.circuitBy l config (c.since + ms + 2 * l.step) + l.answers ((getChannels config).length + 1)
  | .connecting =>
      if c.checkedAt < T then T + l.attempt + retry config l
      else c.since + l.answers ((getChannels config).length + 1)
  | .subscribing [] => c.since + l.answers 0
  | .subscribing rest =>
      if c.checkedAt < T then T + l.attempt + retry config l else c.since + l.answers rest.length
  | .failed => c.since + retry config l
  | _ => T

/-! ### What an event does -/

/-- An event that can happen, with the task after it. -/
inductive Happens (config : RedisConfig) (s : Task) (since now : ℤ) : Event → Task → Prop
  | environment (call : CircuitBreaker.Call) (health : RedisHealth) :
      Happens config s since now (.environment (s.circuitBreaker.step ⟨call, now⟩).2 health)
        { s with circuitBreaker := (s.circuitBreaker.step ⟨call, now⟩).2, health := health }
  | wait : s.phase = .checking → s.circuitBreaker.state = .opened → s.circuitBreaker.timedOut now = false →
      Happens config s since now (.check now)
        { s with
          phase := .waiting (config.circuitBreakerResetTimeoutSeconds / 2 + 1)
          health := s.health.setCircuitOpen }
  | attempt : s.phase = .checking → Happens config s since now (.check now)
      { s with
        phase := .connecting
        circuitBreaker := s.circuitBreaker.checkStateTransition now
        health := s.health.setReconnecting }
  | awake (seconds : ℕ) : s.phase = .waiting seconds → Happens config s since now .wake { s with phase := .checking }
  | again (ms : ℕ) : s.phase = .delayed ms →
      Happens config s since now .wake { s with phase := .checking, shutdownRx := none }
  | connected : s.phase = .connecting →
      Happens config s since now (.connected true) { s with phase := .subscribing (getChannels config) }
  | refused : s.phase = .connecting → Happens config s since now (.connected false) { s with phase := .failed }
  | subscribed (channel : String) (rest : List String) : s.phase = .subscribing (channel :: rest) →
      Happens config s since now (.subscribed true) { s with phase := .subscribing rest }
  | rejected (channel : String) (rest : List String) : s.phase = .subscribing (channel :: rest) →
      Happens config s since now (.subscribed false) { s with phase := .failed }
  | establish : s.phase = .subscribing [] → Happens config s since now (.establish now) (s.establish now)
  | message (channel : String) (payload : Option (Except String RedisNotificationMessage)) : s.phase = .streaming →
      Happens config s since now (.message now channel payload) (s.message now channel payload).2
  | handled : s.phase = .handling → Happens config s since now .handled { s with phase := .streaming }
  | fail (loggedAt : Option ℤ) (drawn : ℕ) : s.phase = .failed → (∀ t ∈ loggedAt, t = now) →
      10 * drawn ≤ 11 * s.backoff.cappedDelay →
      Happens config s since now (.fail now loggedAt drawn) (s.fail now loggedAt drawn)

section happens
variable {config : RedisConfig} {c : TimedTask} {e : TimedEvent}

theorem happens_check {s : Task} {since now : ℤ} (hp : s.phase = .checking) :
    Happens config s since now (.check now) (s.check config now).2 := by
  unfold Task.check
  split
  · rename_i breaker hopen
    have hboth := Prod.ext_iff.mp hopen
    have hstate : (s.circuitBreaker.checkStateTransition now).state = .opened := hboth.1
    have hbreaker : s.circuitBreaker.checkStateTransition now = breaker := hboth.2
    have hstay : s.circuitBreaker.checkStateTransition now = s.circuitBreaker := by
      unfold CircuitBreaker.checkStateTransition at hstate ⊢
      split_ifs at hstate ⊢
      rfl
    have hopened : s.circuitBreaker.state = .opened := by
      rw [← hstay]
      exact hstate
    have hwait : s.circuitBreaker.timedOut now = false := by
      by_contra hover
      unfold CircuitBreaker.checkStateTransition at hstate
      rw [if_pos ⟨hopened, by simpa using hover⟩] at hstate
      cases hstate
    subst hbreaker
    rw [hstay]
    exact .wait hp hopened hwait
  · rename_i state breaker hstate hopen
    have hbreaker : s.circuitBreaker.checkStateTransition now = breaker := (Prod.ext_iff.mp hopen).2
    subst hbreaker
    exact .attempt hp

theorem happens_of_occurs (h : c.Occurs e) :
    Happens config c.task c.since e.now e.event (c.step config e).2.task := by
  obtain ⟨now, event⟩ := e
  unfold Occurs at h
  simp only [step, Task.step]
  split at h
  · rename_i he
    subst he
    obtain ⟨call, hcall⟩ := h
    dsimp only at hcall
    subst hcall
    exact .environment call _
  · rename_i he hp
    subst he h
    simp only [hp]
    exact happens_check hp
  · rename_i seconds he hp
    subst he
    simp only [hp]
    exact .awake seconds hp
  · rename_i ms he hp
    subst he
    simp only [hp]
    exact .again ms hp
  · rename_i ok he hp
    subst he
    simp only [hp]
    cases ok with
    | true => exact .connected hp
    | false => exact .refused hp
  · rename_i ok channel rest he hp
    subst he
    simp only [hp]
    cases ok with
    | true => exact .subscribed channel rest hp
    | false => exact .rejected channel rest hp
  · rename_i he hp
    subst he h
    simp only [hp]
    exact .establish hp
  · rename_i channel payload he hp
    subst he h
    simp only [hp]
    exact .message channel payload hp
  · rename_i he hp
    subst he
    simp only [hp]
    exact .handled hp
  · rename_i loggedAt drawn he hp
    obtain ⟨rfl, hlogged, hdrawn⟩ := h
    subst he
    simp only [hp]
    exact .fail loggedAt drawn hp hlogged hdrawn
  · exact absurd h id

end happens

/-! ### What every run keeps -/

/-- The times of a state are past, its waits are those of the loop, and the next delay can be drawn. -/
structure Fit (config : RedisConfig) (c : TimedTask) : Prop where
  reset : c.task.circuitBreaker.config.resetTimeoutMs = 1000 * config.circuitBreakerResetTimeoutSeconds
  changed : c.task.circuitBreaker.lastStateChange ≤ c.now
  since : c.since ≤ c.now
  checkedAt : c.checkedAt ≤ c.now
  waiting : ∀ seconds, c.task.phase = .waiting seconds → seconds = config.circuitBreakerResetTimeoutSeconds / 2 + 1
  delayed : ∀ ms, c.task.phase = .delayed ms → 10 * ms ≤ 11 * config.backoffMaxDelayMs
  subscribing : ∀ rest, c.task.phase = .subscribing rest → rest.length ≤ (getChannels config).length
  maxDelay : c.task.backoff.maxDelayMs = config.backoffMaxDelayMs
  drawable : Drawable c.task
  running : c.task.phase ≠ .returned

section fit
variable {config : RedisConfig} {l : Latency} {T : ℤ} {c : TimedTask} {e : TimedEvent}

/-- A call of the breaker keeps its configuration, and the time of its last change or sets it to its own. -/
theorem step_lastStateChange (b : CircuitBreaker) (call : CircuitBreaker.TimedCall) :
    (b.step call).2.config = b.config ∧
      ((b.step call).2.lastStateChange = b.lastStateChange ∨ (b.step call).2.lastStateChange = call.now) := by
  have hcheck : (b.checkStateTransition call.now).config = b.config ∧
      ((b.checkStateTransition call.now).lastStateChange = b.lastStateChange ∨
        (b.checkStateTransition call.now).lastStateChange = call.now) := by
    unfold CircuitBreaker.checkStateTransition
    split_ifs
    · exact ⟨rfl, .inr rfl⟩
    · exact ⟨rfl, .inl rfl⟩
  obtain ⟨call, now⟩ := call
  cases call with
  | recordSuccess =>
      simp only [CircuitBreaker.step, CircuitBreaker.recordSuccess]
      split
      · exact ⟨rfl, .inl rfl⟩
      · split_ifs
        · exact ⟨rfl, .inr rfl⟩
        · exact ⟨rfl, .inl rfl⟩
      · exact ⟨rfl, .inl rfl⟩
  | recordFailure =>
      simp only [CircuitBreaker.step, CircuitBreaker.recordFailure]
      split
      · split_ifs
        · exact ⟨rfl, .inr rfl⟩
        · exact ⟨rfl, .inl rfl⟩
      · exact ⟨rfl, .inr rfl⟩
      · exact ⟨rfl, .inr rfl⟩
  | state => exact hcheck
  | allowRequest =>
      simp only [CircuitBreaker.step, CircuitBreaker.allowRequest_eq]
      exact hcheck

/-- A call that reports no failure opens no circuit, and leaves one that stays open as it is. -/
theorem step_opened {b : CircuitBreaker} {call : CircuitBreaker.TimedCall} (hcall : call.call ≠ .recordFailure)
    (h : (b.step call).2.state = .opened) :
    b.state = .opened ∧ (b.step call).2.lastStateChange = b.lastStateChange := by
  have hcheck : (b.checkStateTransition call.now).state = .opened →
      b.state = .opened ∧ (b.checkStateTransition call.now).lastStateChange = b.lastStateChange := by
    unfold CircuitBreaker.checkStateTransition
    split_ifs
    · intro h
      cases h
    · exact fun h => ⟨h, rfl⟩
  obtain ⟨call, now⟩ := call
  cases call with
  | recordSuccess =>
      simp only [CircuitBreaker.step, CircuitBreaker.recordSuccess] at h ⊢
      split at h
      · rename_i hs
        rw [hs] at h
        cases h
      · rename_i hs
        split_ifs at h
        · cases h
        · rw [hs] at h
          cases h
      · rename_i hs
        simp only [hs]
        exact ⟨trivial, trivial⟩
  | recordFailure => exact absurd rfl hcall
  | state => exact hcheck h
  | allowRequest =>
      simp only [CircuitBreaker.step, CircuitBreaker.allowRequest_eq] at h ⊢
      exact hcheck h

/-- The last change of a breaker is past after a call. -/
theorem lastStateChange_step_le {b : CircuitBreaker} {now : ℤ} (call : CircuitBreaker.Call)
    (h : b.lastStateChange ≤ now) : (b.step ⟨call, now⟩).2.lastStateChange ≤ now := by
  obtain hsame | hnow := (step_lastStateChange b ⟨call, now⟩).2
  · rw [hsame]
    exact h
  · exact le_of_eq hnow

/-- A failure is followed by a delay, and recorded with the breaker. -/
theorem fail_eq {s : Task} (h : Drawable s) {now : ℤ} {loggedAt : Option ℤ} (hlogged : ∀ t ∈ loggedAt, t = now)
    (drawn : ℕ) : ∃ b : CircuitBreaker, b.config = s.circuitBreaker.config ∧
      (s.circuitBreaker.lastStateChange ≤ now → b.lastStateChange ≤ now) ∧
      s.fail now loggedAt drawn = { s with
        phase := .delayed (max drawn 1)
        shutdownRx := some false
        backoff := { s.backoff with currentDelayMs := max drawn 1, attempt := (s.backoff.attempt + 1) % 2 ^ 32 }
        circuitBreaker := b } := by
  have hcap : s.backoff.cappedDelay ≠ 0 := by
    have hcurrent := h.current
    have hmax := h.max
    unfold ExponentialBackoff.cappedDelay
    omega
  have hfailure : (s.circuitBreaker.recordFailure now).config = s.circuitBreaker.config :=
    (step_lastStateChange s.circuitBreaker ⟨.recordFailure, now⟩).1
  simp only [Task.fail, ExponentialBackoff.nextDelay, if_neg hcap]
  cases loggedAt with
  | none => exact ⟨_, hfailure, fun h => lastStateChange_step_le .recordFailure h, rfl⟩
  | some t =>
      obtain rfl := hlogged t rfl
      refine ⟨_, ?_, fun h => ?_, rfl⟩
      · exact ((step_lastStateChange (s.circuitBreaker.recordFailure t) ⟨.state, t⟩).1).trans hfailure
      · exact lastStateChange_step_le .state (lastStateChange_step_le .recordFailure h)

theorem Fit.step (h : Fit config c) (ht : c.Timely l e) : Fit config (c.step config e).2 := by
  obtain ⟨hreset, hchanged, hsince, hchecked, hwaiting, hdelayed, hrest, hmax, hdrawable, hrunning⟩ := h
  obtain ⟨hnow, -, hoccurs⟩ := ht
  have hsince' : (c.step config e).2.since ≤ e.now := by
    simp only [TimedTask.step]
    split_ifs
    · exact hsince.trans hnow
    · exact le_rfl
  have hchecked' : (c.step config e).2.checkedAt ≤ e.now := by
    simp only [TimedTask.step]
    split
    · exact le_rfl
    · exact hchecked.trans hnow
  have hdrawable' : Drawable (c.step config e).2.task := hdrawable.step e.event
  have hchanged' : c.task.circuitBreaker.lastStateChange ≤ e.now := hchanged.trans hnow
  have hhappens : Happens config c.task c.since e.now e.event (c.step config e).2.task := happens_of_occurs hoccurs
  suffices htask : (c.step config e).2.task.circuitBreaker.config = c.task.circuitBreaker.config ∧
      (c.step config e).2.task.circuitBreaker.lastStateChange ≤ e.now ∧
      (∀ seconds, (c.step config e).2.task.phase = .waiting seconds →
        seconds = config.circuitBreakerResetTimeoutSeconds / 2 + 1) ∧
      (∀ ms, (c.step config e).2.task.phase = .delayed ms → 10 * ms ≤ 11 * config.backoffMaxDelayMs) ∧
      (∀ rest, (c.step config e).2.task.phase = .subscribing rest → rest.length ≤ (getChannels config).length) ∧
      (c.step config e).2.task.backoff.maxDelayMs = c.task.backoff.maxDelayMs ∧
      (c.step config e).2.task.phase ≠ .returned by
    obtain ⟨hconfig, hlast, hw, hd, hs, hm, hr⟩ := htask
    exact ⟨hconfig ▸ hreset, hlast, hsince', hchecked', hw, hd, hs, hm.trans hmax, hdrawable', hr⟩
  generalize (c.step config e).2.task = s' at hhappens
  generalize e.event = event at hhappens
  cases hhappens with
  | environment call health =>
      exact ⟨(step_lastStateChange _ _).1, lastStateChange_step_le call hchanged', hwaiting, hdelayed, hrest, rfl,
        hrunning⟩
  | wait => exact ⟨rfl, hchanged', by simp, by simp, by simp, rfl, by simp⟩
  | attempt =>
      exact ⟨(step_lastStateChange _ ⟨.state, e.now⟩).1, lastStateChange_step_le .state hchanged', by simp, by simp,
        by simp, rfl, by simp⟩
  | connected =>
      refine ⟨rfl, hchanged', by simp, by simp, fun rest hr => ?_, rfl, by simp⟩
      cases hr
      exact le_rfl
  | subscribed channel rest hp =>
      refine ⟨rfl, hchanged', by simp, by simp, fun rest' hr => ?_, rfl, by simp⟩
      cases hr
      exact (Nat.le_succ _).trans (hrest _ hp)
  | establish =>
      exact ⟨(step_lastStateChange _ ⟨.recordSuccess, e.now⟩).1, lastStateChange_step_le .recordSuccess hchanged',
        by simp [Task.establish], by simp [Task.establish], by simp [Task.establish], rfl, by simp [Task.establish]⟩
  | message channel payload hp =>
      have hconfig := (step_lastStateChange c.task.circuitBreaker ⟨.recordSuccess, e.now⟩).1
      have hlast := lastStateChange_step_le .recordSuccess hchanged'
      cases payload with
      | none => exact ⟨hconfig, hlast, by simp [Task.message, hp], by simp [Task.message, hp],
          by simp [Task.message, hp], rfl, by simp [Task.message, hp]⟩
      | some payload => exact ⟨hconfig, hlast, by simp [Task.message], by simp [Task.message],
          by simp [Task.message], rfl, by simp [Task.message]⟩
  | fail loggedAt drawn hp hlogged hdrawn =>
      obtain ⟨b, hconfig, hlast, heq⟩ := fail_eq hdrawable hlogged drawn
      rw [heq]
      refine ⟨hconfig, hlast hchanged', by simp, fun ms hms => ?_, by simp, rfl, by simp⟩
      have hcap : c.task.backoff.cappedDelay ≤ config.backoffMaxDelayMs := by
        rw [← hmax]
        exact min_le_right _ _
      have hms' : max drawn 1 = ms := by simpa using hms
      have hpos : 0 < config.backoffMaxDelayMs := hmax ▸ hdrawable.max
      omega
  | awake => exact ⟨rfl, hchanged', by simp, by simp, by simp, rfl, by simp⟩
  | again => exact ⟨rfl, hchanged', by simp, by simp, by simp, rfl, by simp⟩
  | refused => exact ⟨rfl, hchanged', by simp, by simp, by simp, rfl, by simp⟩
  | rejected => exact ⟨rfl, hchanged', by simp, by simp, by simp, rfl, by simp⟩
  | handled => exact ⟨rfl, hchanged', by simp, by simp, by simp, rfl, by simp⟩

/-- A subscription that is established stays so. -/
theorem subscribed_step (ht : c.Timely l e) (h : c.task.Subscribed) : (c.step config e).2.task.Subscribed := by
  have hhappens : Happens config c.task c.since e.now e.event (c.step config e).2.task := happens_of_occurs ht.2.2
  generalize (c.step config e).2.task = s' at hhappens ⊢
  generalize e.event = event at hhappens
  unfold Task.Subscribed at h ⊢
  cases hhappens with
  | environment call health => exact h
  | message channel payload hp =>
      cases payload with
      | none => exact .inl hp
      | some payload => exact .inr rfl
  | handled => exact .inl rfl
  | establish => exact .inl rfl
  | wait hp | attempt hp | refused hp | connected hp => simp [hp] at h
  | awake seconds hp => simp [hp] at h
  | again ms hp => simp [hp] at h
  | subscribed channel rest hp => simp [hp] at h
  | rejected channel rest hp => simp [hp] at h
  | fail loggedAt drawn hp => simp [hp] at h

theorem answers_zero (l : Latency) : l.answers 0 = l.step := by simp [Latency.answers]

theorem answers_succ (l : Latency) (n : ℕ) : l.answers (n + 1) = l.answers n + l.step := by
  unfold Latency.answers
  push_cast
  ring

theorem le_answers (l : Latency) (n : ℕ) : l.step ≤ l.answers n := by
  induction n with
  | zero => exact le_of_eq (answers_zero l).symm
  | succ n ih =>
      rw [answers_succ]
      omega

theorem answers_mono (l : Latency) {m n : ℕ} (h : m ≤ n) : l.answers m ≤ l.answers n :=
  mul_le_mul_of_nonneg_right (by omega) (Int.natCast_nonneg _)

theorem le_pause (config : RedisConfig) : 11 * (config.backoffMaxDelayMs : ℤ) / 10 ≤ pause config ∧
    1000 * (config.circuitBreakerResetTimeoutSeconds : ℤ) +
      1000 * (config.circuitBreakerResetTimeoutSeconds / 2 + 1) ≤ pause config :=
  ⟨le_max_left _ _, le_max_right _ _⟩

theorem le_retry (config : RedisConfig) (l : Latency) : l.step ≤ retry config l := by
  have hpause := (le_pause config).1
  have hanswers := le_answers l ((getChannels config).length + 1)
  unfold retry
  omega

/-- A wait for the circuit is over by `t` when the circuit is not open, or its last wait is. -/
theorem circuitBy_le {t t' : ℤ} (ht : t ≤ t') (hopened : c.task.circuitBreaker.state = .opened →
    c.task.circuitBreaker.lastStateChange + pause config + 2 * l.step ≤ t') : c.circuitBy l config t ≤ t' := by
  unfold circuitBy
  split_ifs with hs
  · exact max_le ht (hopened hs)
  · exact ht

variable (config l c) in
theorem le_circuitBy (t : ℤ) : t ≤ c.circuitBy l config t := by
  unfold circuitBy
  split_ifs
  · exact le_max_left _ _
  · exact le_rfl

variable (config l c) in
theorem opened_le_circuitBy (t : ℤ) (hs : c.task.circuitBreaker.state = .opened) :
    c.task.circuitBreaker.lastStateChange + pause config + 2 * l.step ≤ c.circuitBy l config t := by
  unfold circuitBy
  rw [if_pos hs]
  exact le_max_right _ _

/-- No event happens after the deadline. -/
theorem now_le_deadline (h : Fit config c) (ht : c.Timely l e) (hw : c.Works l T e) (hns : ¬ c.task.Subscribed) :
    e.now ≤ c.deadline l T config := by
  obtain ⟨-, hdue, -⟩ := ht
  have hanswered := hw.1
  have hretry := le_retry config l
  have hanswers := le_answers l ((getChannels config).length + 1)
  unfold due at hdue
  unfold answeredBy at hanswered
  unfold deadline
  cases hp : c.task.phase with
  | checking =>
      have hnow : e.now ≤ c.since + l.step := hdue _ (by simp [hp])
      have hcircuit := le_circuitBy config l c (c.since + l.step)
      dsimp only
      omega
  | waiting seconds =>
      have hnow : e.now ≤ c.since + 1000 * seconds + l.step := hdue _ (by simp [hp])
      have hcircuit := le_circuitBy config l c (c.since + 1000 * seconds + 2 * l.step)
      dsimp only
      omega
  | connecting =>
      have hnow := hanswered _ (by rw [hp]; rfl)
      dsimp only
      split_ifs at hnow ⊢ <;> omega
  | subscribing rest =>
      cases rest with
      | nil =>
          have hnow : e.now ≤ c.since + l.step := hdue _ (by simp [hp])
          rw [answers_zero]
          exact hnow
      | cons channel rest =>
          have hnow := hanswered _ (by rw [hp]; rfl)
          have hrest := le_answers l (channel :: rest).length
          dsimp only
          split_ifs at hnow ⊢ <;> omega
  | failed =>
      have hnow : e.now ≤ c.since + l.step := hdue _ (by simp [hp])
      dsimp only
      omega
  | delayed ms =>
      have hnow : e.now ≤ c.since + ms + l.step := hdue _ (by simp [hp])
      have hcircuit := le_circuitBy config l c (c.since + ms + 2 * l.step)
      dsimp only
      omega
  | streaming => exact absurd (.inl hp) hns
  | handling => exact absurd (.inr hp) hns
  | returned => exact absurd hp h.running
  | panicked => exact absurd hp h.drawable.phase

/-- Another user of the breaker that reports no failure puts nothing off. -/
theorem circuitBy_step_le {c' : TimedTask} (hopened : c'.task.circuitBreaker.state = .opened →
    c.task.circuitBreaker.state = .opened ∧
      c'.task.circuitBreaker.lastStateChange = c.task.circuitBreaker.lastStateChange) (t : ℤ) :
    c'.circuitBy l config t ≤ c.circuitBy l config t := by
  refine circuitBy_le (le_circuitBy config l c t) fun hs => ?_
  obtain ⟨hopen, hsame⟩ := hopened hs
  rw [hsame]
  exact opened_le_circuitBy config l c t hopen

/-- A wait or a delay that ends puts nothing off. -/
theorem circuitBy_checking_le {t t' : ℤ} (ht : t ≤ t') {c' : TimedTask}
    (hsame : c'.task.circuitBreaker = c.task.circuitBreaker) : c'.circuitBy l config t ≤ c.circuitBy l config t' := by
  refine circuitBy_le (ht.trans (le_circuitBy config l c t')) fun hs => ?_
  rw [hsame] at hs ⊢
  exact opened_le_circuitBy config l c t' hs

/-- No event puts the deadline off. -/
theorem deadline_step_le (h : Fit config c) (hT : T ≤ c.now)
    (hreset : 1000 * config.circuitBreakerResetTimeoutSeconds < 2 ^ 63) (ht : c.Timely l e) (hw : c.Works l T e)
    (hns : ¬ c.task.Subscribed) :
    (c.step config e).2.task.Subscribed ∨ (c.step config e).2.deadline l T config ≤ c.deadline l T config := by
  have hhappens : Happens config c.task c.since e.now e.event (c.step config e).2.task := happens_of_occurs ht.2.2
  have hfit : Fit config (c.step config e).2 := h.step ht
  have hdelayed := hfit.delayed
  have hlast : (c.step config e).2.task.circuitBreaker.lastStateChange ≤ e.now := hfit.changed
  obtain ⟨hnow, hdue, -⟩ := ht
  obtain ⟨hanswered, hworks⟩ := hw
  have hretry := le_retry config l
  have hpause := le_pause config
  have hsucc := answers_succ l (getChannels config).length
  obtain ⟨now, event⟩ := e
  obtain ⟨s, before, since, checkedAt⟩ := c
  simp only [TimedTask.step] at hhappens hdelayed hlast ⊢
  generalize (Task.step config s event).2 = s' at hhappens hdelayed hlast ⊢
  dsimp only at hnow hT hworks hns hhappens hlast
  unfold due at hdue
  unfold answeredBy at hanswered
  cases hhappens with
  | environment call health =>
      obtain ⟨call', hne, heq⟩ := hworks
      have hopened : (s.circuitBreaker.step ⟨call, now⟩).2.state = .opened → s.circuitBreaker.state = .opened ∧
          (s.circuitBreaker.step ⟨call, now⟩).2.lastStateChange = s.circuitBreaker.lastStateChange := by
        rw [heq]
        exact step_opened hne
      right
      unfold deadline
      dsimp only
      rw [if_pos rfl]
      cases hp : s.phase with
      | checking => exact add_le_add_left (circuitBy_step_le hopened _) _
      | waiting seconds => exact add_le_add_left (circuitBy_step_le hopened _) _
      | delayed ms => exact add_le_add_left (circuitBy_step_le hopened _) _
      | subscribing rest => cases rest <;> exact Int.le_refl _
      | _ => exact Int.le_refl _
  | wait hp hs hwait =>
      right
      have hover : now < s.circuitBreaker.lastStateChange + 1000 * config.circuitBreakerResetTimeoutSeconds := by
        have hconfig : s.circuitBreaker.config.resetTimeoutMs = 1000 * config.circuitBreakerResetTimeoutSeconds :=
          h.reset
        have hlt := (CircuitBreaker.timedOut_eq_false (hconfig ▸ hreset)).mp hwait
        rw [hconfig] at hlt
        exact_mod_cast hlt
      have hold := opened_le_circuitBy config l ⟨s, before, since, checkedAt⟩ (since + l.step) hs
      simp only [deadline, hp, reduceCtorEq, if_false]
      refine add_le_add_left (circuitBy_le ?_ fun _ => hold) _
      dsimp only at hold ⊢
      push_cast
      omega
  | attempt hp =>
      right
      have hby : now ≤ since + l.step := hdue _ (by simp [hp])
      have hcircuit := le_circuitBy config l ⟨s, before, since, checkedAt⟩ (since + l.step)
      have hfresh : ¬ now < T := by omega
      simp only [deadline, hp, reduceCtorEq, if_false, hfresh]
      omega
  | awake seconds hp =>
      right
      have hby : now ≤ since + 1000 * seconds + l.step := hdue _ (by simp [hp])
      simp only [deadline, hp, reduceCtorEq, if_false]
      exact add_le_add_left (circuitBy_checking_le (by omega) rfl) _
  | again ms hp =>
      right
      have hby : now ≤ since + ms + l.step := hdue _ (by simp [hp])
      simp only [deadline, hp, reduceCtorEq, if_false]
      exact add_le_add_left (circuitBy_checking_le (by omega) rfl) _
  | connected hp =>
      right
      have hby := hanswered _ (by rw [hp]; rfl)
      simp only [deadline, hp, reduceCtorEq, if_false]
      cases hchannels : getChannels config with
      | nil =>
          have hone : l.answers (0 + 1) = l.answers 0 + l.step := answers_succ l 0
          have hzero := answers_zero l
          dsimp only [List.length_nil] at hby ⊢
          split_ifs at hby ⊢ <;> omega
      | cons channel rest =>
          rw [hchannels] at hsucc
          dsimp only at hby ⊢
          split_ifs at hby ⊢ <;> omega
  | refused hp =>
      right
      have hby := hanswered _ (by rw [hp]; rfl)
      dsimp only at hby
      rw [if_pos hworks] at hby
      simp only [deadline, hp, reduceCtorEq, if_false, if_pos hworks]
      omega
  | subscribed channel rest hp =>
      right
      have hby := hanswered _ (by rw [hp]; rfl)
      have hmore := answers_succ l rest.length
      have hne : ¬ rest = channel :: rest := by simp
      simp only [deadline, hp, Phase.subscribing.injEq, hne, if_false]
      cases rest with
      | nil =>
          have hzero := answers_zero l
          dsimp only [List.length_nil, List.length_cons] at hby hmore ⊢
          split_ifs at hby ⊢ <;> omega
      | cons channel' rest =>
          dsimp only [List.length_cons] at hby hmore ⊢
          split_ifs at hby ⊢ <;> omega
  | rejected channel rest hp =>
      right
      have hby := hanswered _ (by rw [hp]; rfl)
      dsimp only at hby
      rw [if_pos hworks] at hby
      simp only [deadline, hp, reduceCtorEq, if_false, if_pos hworks]
      omega
  | establish hp => exact .inl (.inl rfl)
  | message channel payload hp => exact absurd (.inl hp) hns
  | handled hp => exact absurd (.inr hp) hns
  | fail loggedAt drawn hp hlogged hdrawn =>
      right
      have hby : now ≤ since + l.step := hdue _ (by simp [hp])
      obtain ⟨b, hconfig, -, heq⟩ := fail_eq h.drawable hlogged drawn
      dsimp only at heq
      rw [heq] at hdelayed hlast ⊢
      have hms := hdelayed _ rfl
      simp only [deadline, hp, reduceCtorEq, if_false, retry, ← add_assoc]
      dsimp only at hlast
      exact add_le_add_left (circuitBy_le (by omega) fun _ => by dsimp only; omega) _

theorem fit_start (hinitial : 0 < config.backoffInitialDelayMs) (hmax : 0 < config.backoffMaxDelayMs)
    {circuitBreaker : CircuitBreaker} {now : ℤ} (health : RedisHealth)
    (hreset : circuitBreaker.config.resetTimeoutMs = 1000 * config.circuitBreakerResetTimeoutSeconds)
    (hpast : circuitBreaker.lastStateChange ≤ now) : Fit config (start config circuitBreaker health now) := by
  have hphase : (start config circuitBreaker health now).task.phase = .checking := by
    have hchannels : (getChannels config).isEmpty = false := by
      unfold getChannels
      split_ifs with hempty
      · rfl
      · exact Bool.eq_false_of_not_eq_true hempty
    simp [start, RedisSubscriber.start, hchannels]
  exact ⟨hreset, hpast, le_rfl, le_rfl, by simp [hphase], by simp [hphase], by simp [hphase], rfl,
    ⟨hinitial, hmax, by simp [hphase]⟩, by simp [hphase]⟩

/-- When the server begins to work, the subscription is established after `comeback` at the latest. -/
theorem deadline_le_comeback (h : Fit config c) : c.deadline l c.now config ≤ c.now + comeback config l := by
  obtain ⟨-, hchanged, hsince, hchecked, hwaiting, hdelayed, hsubscribing, -, -, -⟩ := h
  have hpause := le_pause config
  have hretry := le_retry config l
  have hcircuit : ∀ t, t ≤ c.now + pause config + 2 * l.step →
      c.circuitBy l config t ≤ c.now + pause config + 2 * l.step :=
    fun t ht => circuitBy_le ht fun _ => by omega
  unfold deadline comeback
  cases hp : c.task.phase with
  | checking =>
      have hby := hcircuit (c.since + l.step) (by omega)
      dsimp only [retry]
      omega
  | waiting seconds =>
      obtain rfl := hwaiting seconds hp
      have hby := hcircuit (c.since + 1000 * (config.circuitBreakerResetTimeoutSeconds / 2 + 1 : ℕ) + 2 * l.step)
        (by push_cast; omega)
      dsimp only [retry]
      omega
  | delayed ms =>
      have hms := hdelayed ms hp
      have hby := hcircuit (c.since + ms + 2 * l.step) (by omega)
      dsimp only [retry]
      omega
  | connecting =>
      dsimp only
      split_ifs
      · omega
      · dsimp only [retry]
        omega
  | subscribing rest =>
      have hle : rest.length ≤ (getChannels config).length + 1 := Nat.le_succ_of_le (hsubscribing rest hp)
      have hrest := answers_mono l hle
      have hby : c.since + l.answers rest.length ≤ c.now + (l.attempt + retry config l) := by
        dsimp only [retry]
        omega
      cases rest with
      | nil => exact hby
      | cons channel rest =>
          dsimp only
          split_ifs
          · omega
          · exact hby
  | failed =>
      dsimp only
      omega
  | streaming | handling | returned | panicked =>
      dsimp only
      omega

theorem Fit.run {events : List TimedEvent} (h : Fit config c)
    (ht : Runs.Admissible (TimedTask.step config) (fun c e => c.Timely l e) c events) :
    Fit config (Runs.final (TimedTask.step config) c events) :=
  ht.invariant h fun _ _ hc he => hc.step he

/-- While the server works, the time does not pass the deadline before the subscription is established. -/
theorem subscribed_by {after : List TimedEvent} {t : ℤ} (h : Fit config c) (hT : T ≤ c.now)
    (hreset : 1000 * config.circuitBreakerResetTimeoutSeconds < 2 ^ 63) (hdeadline : c.deadline l T config ≤ t)
    (hafter : Runs.Admissible (step config) (fun c e => c.Timely l e ∧ c.Works l T e) c after) :
    (Runs.final (step config) c after).task.Subscribed ∨ ∀ e ∈ after, e.now ≤ t := by
  refine Runs.goal_of_late (I := fun c => Fit config c ∧ T ≤ c.now) (fun c => c.task.Subscribed)
    (fun c => c.deadline l T config) hafter ⟨h, hT⟩ (.inr hdeadline) ?_ ?_ ?_
  · intro c e hc he
    exact ⟨hc.1.step he.1, hc.2.trans he.1.1⟩
  · intro c e _ he hs
    exact subscribed_step he.1 hs
  · intro c e hc he hns
    exact ⟨now_le_deadline hc.1 he.1 he.2 hns, deadline_step_le hc.1 hc.2 hreset he.1 he.2 hns⟩

end fit

/-- A step of the task, or an answer of the server, takes 5 ms, and an attempt is given up after a second. -/
def brisk : Latency := ⟨5, 1000⟩

/-- The first attempt is refused. -/
def outage : List TimedEvent := [⟨0, .check 0⟩, ⟨100, .connected false⟩, ⟨100, .fail 100 none 200⟩]

/-- The first delay begins. -/
def refusedOnce : TimedTask where
  task := ⟨.delayed 200, some false, ⟨30000, 200, 1⟩, ⟨.closed, 1, 0, 0, .default⟩, RedisHealth.new.setReconnecting⟩
  now := 100
  since := 100
  checkedAt := 0

/-- The second one succeeds, and a minute later there is a message. -/
def recovery : List TimedEvent :=
  [⟨300, .wake⟩, ⟨300, .check 300⟩, ⟨301, .connected true⟩, ⟨302, .subscribed true⟩, ⟨303, .establish 303⟩,
    ⟨60000, .message 60000 "notification:broadcast" none⟩]

end TimedTask

end RedisSubscriber

end AraNotification
