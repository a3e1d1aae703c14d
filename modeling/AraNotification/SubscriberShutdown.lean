import AraNotification.SubscriberLoop

/-! # The shutdown of the Redis subscriber

The subscriber makes a shutdown receiver when a subscription is established and when it waits
for the next attempt, and drops it again.  A signal that is sent in between (while it waits for
the circuit, connects or subscribes) is lost, and one that waits in a receiver may lose against a
message or the end of the delay, since the `select!` is not biased.

`shutdownHeeded_of_admissible`: when the signal is sent while a receiver lives and the `select!`
does not pass it over, no connection attempt and no dispatch begins after it. -/

namespace AraNotification

namespace RedisSubscriber

namespace Task

/-- The loop has been left. -/
def ended (s : Task) : Bool :=
  match s.phase with
  | .returned | .panicked => true
  | _ => false

/-- A connection attempt or a dispatch begins. -/
def begins : Option Action → Bool
  | some .attempt | some (.dispatch ..) => true
  | _ => false

/-- After a signal that is sent while the task runs no connection attempt and no dispatch begins. -/
def ShutdownHeeded (history : List Entry) : Prop :=
  ∀ earlier e later, history = earlier ++ e :: later → e.output = some .sent → e.before.ended = false →
    ∀ e' ∈ later, begins e'.output = false

/-- A signal is sent that no receiver sees, or the `select!` passes over the signal that waits:
for a message that is dispatched or for the end of the delay. -/
def unheeded (s : Task) (e : Event) : Bool :=
  match e, s.phase with
  | .send, _ => !s.ended && s.shutdownRx.isNone
  | .message _ _ (some payload), .streaming =>
      decide (s.shutdownRx = some true) && (dispatched payload).isSome
  | .wake, .delayed _ => decide (s.shutdownRx = some true)
  | _, _ => false

/-- A receiver lives in the inner loop and during a delay. -/
def Receiving (s : Task) : Prop :=
  s.shutdownRx.isSome = true ↔ s.phase = .streaming ∨ s.phase = .handling ∨ ∃ ms, s.phase = .delayed ms

/-- The task has ended, or a signal waits in its receiver. -/
def Heeding (s : Task) : Prop := s.ended = true ∨ s.shutdownRx = some true

/-! ### One event -/

section events
variable {config : RedisConfig} {s : Task} {e : Event}

theorem Receiving.step (h : s.Receiving) : (Task.step config s e).2.Receiving := by
  unfold Task.step
  split
  · simpa [Receiving] using h
  · exact h
  · next hp =>
      have hnone : s.shutdownRx.isSome = false := by simpa [Receiving, hp] using h
      unfold check
      split <;> simp [Receiving, hnone]
  · next hp => simpa [Receiving, hp] using h
  · simp [Receiving]
  · next hp => simpa [Receiving, hp, subscribe] using h
  · next hp => simpa [Receiving, hp] using h
  · next hp => simpa [Receiving, hp, subscribe] using h
  · next hp => simpa [Receiving, hp] using h
  · simp [Receiving, establish]
  · split_ifs
    · simp [Receiving, leave]
    · exact h
  · split_ifs
    · simp [Receiving, leave]
    · exact h
  · next now channel payload hp => cases payload <;> simpa [Receiving, hp, message] using h
  · next hp => simpa [Receiving, hp] using h
  · simp [Receiving, leave]
  · next now loggedAt drawn hp =>
      have hnone : s.shutdownRx.isSome = false := by simpa [Receiving, hp] using h
      unfold fail
      split <;> simp [Receiving, hnone]
  · exact h

theorem step_of_ended (h : s.ended = true) :
    (Task.step config s e).2.ended = true ∧ begins (Task.step config s e).1 = false := by
  have hphase : s.phase = .returned ∨ s.phase = .panicked := by
    unfold ended at h
    split at h <;> simp_all
  rcases hphase with hp | hp <;> cases e <;> simp [Task.step, ended, begins, hp]

/-- A signal that waits is not passed over. -/
theorem Heeding.step (hrx : s.Receiving) (h : s.Heeding) (hok : s.unheeded e = false) :
    (Task.step config s e).2.Heeding ∧ begins (Task.step config s e).1 = false := by
  rcases h with h | h
  · exact ⟨.inl (step_of_ended h).1, (step_of_ended h).2⟩
  · rcases hrx.mp (by rw [h]; rfl) with hp | hp | ⟨ms, hp⟩
    · cases e with
      | message now channel payload =>
          cases payload with
          | none =>
              exact ⟨.inr (by simpa [Task.step, hp, message] using h),
                by simp [Task.step, hp, message, begins]⟩
          | some payload =>
              have hnone : dispatched payload = none := by simpa [unheeded, hp, h] using hok
              exact ⟨.inr (by simpa [Task.step, hp, message] using h),
                by simp [Task.step, hp, message, hnone, begins]⟩
      | receive | streamEnded => simp [Task.step, hp, h, leave, Heeding, ended, begins]
      | _ => simp [Task.step, hp, h, Heeding, begins]
    · cases e <;> simp [Task.step, hp, h, Heeding, begins]
    · cases e with
      | wake => simp [unheeded, hp, h] at hok
      | receive => simp [Task.step, hp, h, leave, Heeding, ended, begins]
      | _ => simp [Task.step, hp, h, Heeding, begins]

/-- A signal that a receiver sees waits in it. -/
theorem heeding_of_sent (hout : (Task.step config s e).1 = some .sent) (hok : s.unheeded e = false) :
    (Task.step config s e).2.Heeding := by
  unfold Task.step at hout ⊢
  split at hout
  · cases hrx : s.shutdownRx with
    | none => exact .inl (by simpa [unheeded, hrx, ended] using hok)
    | some b => exact .inr (by simp)
  · cases hout
  · unfold check at hout
    split at hout <;> cases hout
  · cases hout
  · cases hout
  · unfold subscribe at hout
    simp at hout
  · cases hout
  · next hp => simp [subscribe] at hout
  · cases hout
  · cases hout
  · split_ifs at hout
    cases hout
  · split_ifs at hout
    cases hout
  · next now channel payload hp => cases payload <;> simp [message] at hout
  · cases hout
  · cases hout
  · cases hout
  · cases hout

end events

/-! ### Runs -/

section runs
variable {config : RedisConfig} {s : Task}

theorem begins_of_heeding (events : List Event) (hrx : s.Receiving) (h : s.Heeding)
    (hok : Runs.Admissible (step config) (fun s e => s.unheeded e = false) s events) :
    ∀ e ∈ Runs.trace (step config) s events, begins e.output = false := by
  induction events generalizing s with
  | nil => exact fun e he => absurd he List.not_mem_nil
  | cons e events ih =>
      have hstep : (step config s e).2.Heeding ∧ begins (step config s e).1 = false := h.step hrx hok.1
      obtain ⟨hnext, hbegins⟩ := hstep
      intro e' he'
      rcases List.mem_cons.mp he' with rfl | he'
      · exact hbegins
      · exact ih hrx.step hnext hok.2 e' he'

theorem shutdownHeeded_of_receiving (events : List Event) (hrx : s.Receiving)
    (hok : Runs.Admissible (step config) (fun s e => s.unheeded e = false) s events) :
    ShutdownHeeded (Runs.trace (step config) s events) := by
  induction events generalizing s with
  | nil => exact fun _ _ _ heq => by simp [Runs.trace] at heq
  | cons e events ih =>
      intro earlier e' later heq hout hrun
      cases earlier with
      | nil =>
          cases heq
          exact begins_of_heeding events hrx.step (heeding_of_sent hout hok.1) hok.2
      | cons e₁ earlier =>
          obtain ⟨-, htail⟩ := List.cons.inj heq
          exact ih hrx.step hok.2 earlier e' later htail hout hrun

/-- **Where every signal is sent while a receiver lives and the `select!` does not pass it over, the
subscriber heeds it.** -/
theorem shutdownHeeded_of_admissible (config : RedisConfig) (circuitBreaker : CircuitBreaker)
    (health : RedisHealth) (events : List Event)
    (hok : Runs.Admissible (step config) (fun s e => s.unheeded e = false)
      (start config circuitBreaker health) events) :
    ShutdownHeeded (Runs.trace (step config) (start config circuitBreaker health) events) := by
  refine shutdownHeeded_of_receiving events ?_ hok
  unfold start
  split <;> simp [Receiving]

/-- A signal that is sent during the delay after a failed attempt, and received. -/
theorem shutdownHeeded_of_admissible_delayed :
    ShutdownHeeded (Runs.trace (step oneChannel) (start oneChannel (.withConfig .default 0) .new)
      [.check 0, .connected false, .fail 0 none 200, .send, .receive, .check 0]) :=
  shutdownHeeded_of_admissible _ _ _ _ (by decide)

/-- The signal is sent while the subscriber connects; the attempt fails, and another one begins. -/
theorem signal_lost :
    ¬ ∀ (config : RedisConfig) (circuitBreaker : CircuitBreaker) (health : RedisHealth)
        (events : List Event),
        ShutdownHeeded (Runs.trace (step config) (start config circuitBreaker health) events) := by
  intro hall
  let s := start oneChannel (.withConfig .default 0) .new
  let later : List Event := [.send, .connected false, .fail 0 none 200, .wake]
  have h := hall oneChannel (.withConfig .default 0) .new (.check 0 :: later ++ [.check 0])
  have hbegins := h [Runs.entry (step oneChannel) s (.check 0)] _ _ rfl rfl rfl
  have hmem := hbegins
    (Runs.entry (step oneChannel) (Runs.final (step oneChannel) s (.check 0 :: later)) (.check 0))
    (by simp [s, later, Runs.trace, Runs.final])
  exact absurd hmem (by decide)

end runs

end Task

end RedisSubscriber

end AraNotification
