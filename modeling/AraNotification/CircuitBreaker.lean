import AraNotification.Basic
import AraNotification.Lib.Runs

/-! # The circuit breaker

`CircuitBreaker` stands in front of the Redis connections: after a number of failures in a
row it opens and refuses requests, after a timeout it lets requests through on trial, and
after a number of successes it closes again.  The definitions follow
`infrastructure/redis/circuit_breaker.rs`, with the clock reading of a call as an argument
(milliseconds since the epoch).  The counters are 32 bits wide and wrap.

The change from open to half-open has no event of its own: it is made by the next call that
asks for the state (`checkStateTransition`).

`Law` describes one call in terms of the history before it, without looking at the counters
and at the stored time, and `law_of_trace` says that every call of every run obeys it. -/

namespace AraNotification

/-- Circuit breaker states. -/
inductive CircuitState where
  | closed
  | opened
  | halfOpen
deriving DecidableEq, Repr

/-- Circuit breaker configuration. -/
structure CircuitBreakerConfig where
  failureThreshold : ℕ
  successThreshold : ℕ
  resetTimeoutMs : ℕ
  failureThreshold_lt : failureThreshold < 2 ^ 32
  successThreshold_lt : successThreshold < 2 ^ 32
  resetTimeoutMs_lt : resetTimeoutMs < 2 ^ 64

/-- `CircuitBreakerConfig::default`. -/
def CircuitBreakerConfig.default : CircuitBreakerConfig where
  failureThreshold := 5
  successThreshold := 2
  resetTimeoutMs := 30000
  failureThreshold_lt := by decide
  successThreshold_lt := by decide
  resetTimeoutMs_lt := by decide

/-- Circuit breaker for Redis connections. -/
structure CircuitBreaker where
  state : CircuitState
  failureCount : ℕ
  successCount : ℕ
  lastStateChange : ℤ
  config : CircuitBreakerConfig

namespace CircuitBreaker

/-- Create a new circuit breaker with custom configuration. -/
def withConfig (config : CircuitBreakerConfig) (now : ℤ) : CircuitBreaker :=
  ⟨.closed, 0, 0, now, config⟩

variable (b : CircuitBreaker) (now : ℤ)

/-- `fetch_add(1) + 1` on a 32-bit counter. -/
def bump (count : ℕ) : ℕ := (count + 1) % 2 ^ 32

/-- Transition to a new state. -/
def transitionTo (newState : CircuitState) : CircuitBreaker :=
  match newState with
  | .closed => { b with state := .closed, lastStateChange := now, failureCount := 0, successCount := 0 }
  | .opened => { b with state := .opened, lastStateChange := now, successCount := 0 }
  | .halfOpen => { b with state := .halfOpen, lastStateChange := now, successCount := 0 }

/-- The timeout of an open circuit is over. -/
def timedOut : Bool := decide (now - b.lastStateChange ≥ asI64 b.config.resetTimeoutMs)

/-- Check if we should transition from open to half-open. -/
def checkStateTransition : CircuitBreaker :=
  if b.state = .opened ∧ b.timedOut now then
    { b with state := .halfOpen, successCount := 0, lastStateChange := now }
  else b

/-- Get the current state. -/
def getState : CircuitState × CircuitBreaker :=
  let b' := b.checkStateTransition now
  (b'.state, b')

/-- Check if requests should be allowed. -/
def allowRequest : Bool × CircuitBreaker :=
  match b.getState now with
  | (.closed, b') => (true, b')
  | (.opened, b') => (false, b')
  | (.halfOpen, b') => (true, b')

/-- Record a successful operation. -/
def recordSuccess : CircuitBreaker :=
  match b.state with
  | .closed => { b with failureCount := 0 }
  | .halfOpen =>
      let b' := { b with successCount := bump b.successCount }
      if bump b.successCount ≥ b.config.successThreshold then b'.transitionTo now .closed else b'
  | .opened => b

/-- Record a failed operation. -/
def recordFailure : CircuitBreaker :=
  match b.state with
  | .closed =>
      let b' := { b with failureCount := bump b.failureCount }
      if bump b.failureCount ≥ b.config.failureThreshold then b'.transitionTo now .opened else b'
  | .halfOpen => b.transitionTo now .opened
  | .opened => { b with lastStateChange := now }

/-! ### Calls -/

/-- The calls of the breaker. -/
inductive Call where
  | recordSuccess
  | recordFailure
  | state
  | allowRequest
deriving DecidableEq, Repr

/-- A call and the time at which it is made. -/
structure TimedCall where
  call : Call
  now : ℤ
deriving DecidableEq, Repr

/-- What a call returns. -/
inductive Reply where
  | done
  | state (s : CircuitState)
  | allowed (ok : Bool)
deriving DecidableEq, Repr

/-- Execution of one call. -/
def step (b : CircuitBreaker) (c : TimedCall) : Reply × CircuitBreaker :=
  match c.call with
  | .recordSuccess => (.done, b.recordSuccess c.now)
  | .recordFailure => (.done, b.recordFailure c.now)
  | .state => let r := b.getState c.now; (.state r.1, r.2)
  | .allowRequest => let r := b.allowRequest c.now; (.allowed r.1, r.2)

/-- A call of a run. -/
abbrev Entry := Runs.Entry CircuitBreaker TimedCall Reply

/-! ### The law -/

/-- The number of failures in a row since the last success in the closed state or since the
circuit was closed. -/
def failuresInARow (history : List Entry) : ℕ :=
  history.foldl (fun n e =>
    if e.before.state ≠ .closed then (if e.after.state = .closed then 0 else n)
    else match e.input.call with
      | .recordFailure => n + 1
      | .recordSuccess => 0
      | _ => n) 0

/-- The number of successes since the circuit became half-open. -/
def successesOnTrial (history : List Entry) : ℕ :=
  history.foldl (fun n e =>
    if e.before.state ≠ .halfOpen then (if e.after.state = .halfOpen then 0 else n)
    else match e.input.call with
      | .recordSuccess => n + 1
      | _ => n) 0

/-- The latest time at which the circuit was opened or a failure recorded while it was open. -/
def lastOpening (history : List Entry) : Option ℤ :=
  history.foldl (fun r e =>
    if e.after.state = .opened ∧ (e.before.state ≠ .opened ∨ e.input.call = .recordFailure) then
      some e.input.now
    else r) none

/-- What a call may do, given the history before it. -/
structure Law (config : CircuitBreakerConfig) (history : List Entry) (e : Entry) : Prop where
  /-- The failure count of a closed circuit is below the threshold. -/
  below : e.before.state = .closed → e.before.failureCount < max config.failureThreshold 1
  /-- The circuit opens at the failure that completes a row. -/
  opens : (e.before.state = .closed ∧ e.after.state = .opened) ↔
    e.before.state = .closed ∧ e.input.call = .recordFailure ∧
      failuresInARow history + 1 = max config.failureThreshold 1
  /-- Requests are refused until the timeout after the latest opening or failure is over. -/
  refuses : e.input.call = .allowRequest →
    (e.output = .allowed false ↔ e.before.state = .opened ∧
      ∃ r, lastOpening history = some r ∧ e.input.now < r + config.resetTimeoutMs)
  /-- An open circuit stays open or becomes half-open. -/
  trial : e.before.state = .opened → e.after.state ≠ .closed
  /-- A half-open circuit closes at the success that completes the trial. -/
  closes : (e.before.state = .halfOpen ∧ e.after.state = .closed) ↔
    e.before.state = .halfOpen ∧ e.input.call = .recordSuccess ∧
      successesOnTrial history + 1 = max config.successThreshold 1
  /-- One failure on trial reopens the circuit and restarts the timeout. -/
  reopens : e.before.state = .halfOpen → e.input.call = .recordFailure →
    e.after.state = .opened ∧ e.after.lastStateChange = e.input.now
  /-- A half-open circuit becomes open only by a failure. -/
  relapse : e.before.state = .halfOpen → e.after.state = .opened → e.input.call = .recordFailure
  /-- No counter wraps. -/
  exact : (e.before.state = .closed → e.input.call = .recordFailure →
      e.before.failureCount + 1 < 2 ^ 32) ∧
    (e.before.state = .halfOpen → e.input.call = .recordSuccess → e.before.successCount + 1 < 2 ^ 32)

/-- The counters and the stored time are what the history says. -/
structure Tracks (config : CircuitBreakerConfig) (history : List Entry) (b : CircuitBreaker) : Prop where
  config_eq : b.config = config
  closed : b.state = .closed →
    b.failureCount = failuresInARow history ∧ b.failureCount < max config.failureThreshold 1
  halfOpen : b.state = .halfOpen →
    b.successCount = successesOnTrial history ∧ b.successCount < max config.successThreshold 1
  opened : b.state = .opened → lastOpening history = some b.lastStateChange

/-! ### What a call does -/

/-- What a call does to a breaker whose counters are below the thresholds. -/
inductive Move (b : CircuitBreaker) (c : TimedCall) : CircuitBreaker → Prop
  | reset : b.state = .closed → c.call = .recordSuccess → Move b c { b with failureCount := 0 }
  | count : b.state = .closed → c.call = .recordFailure →
      b.failureCount + 1 < max b.config.failureThreshold 1 →
      Move b c { b with failureCount := b.failureCount + 1 }
  | trip : b.state = .closed → c.call = .recordFailure →
      b.failureCount + 1 = max b.config.failureThreshold 1 →
      Move b c ⟨.opened, b.failureCount + 1, 0, c.now, b.config⟩
  | progress : b.state = .halfOpen → c.call = .recordSuccess →
      b.successCount + 1 < max b.config.successThreshold 1 →
      Move b c { b with successCount := b.successCount + 1 }
  | recover : b.state = .halfOpen → c.call = .recordSuccess →
      b.successCount + 1 = max b.config.successThreshold 1 → Move b c ⟨.closed, 0, 0, c.now, b.config⟩
  | relapse : b.state = .halfOpen → c.call = .recordFailure →
      Move b c ⟨.opened, b.failureCount, 0, c.now, b.config⟩
  | extend : b.state = .opened → c.call = .recordFailure → Move b c { b with lastStateChange := c.now }
  | ignore : b.state = .opened → c.call = .recordSuccess → Move b c b
  | look : c.call = .state ∨ c.call = .allowRequest → (b.state = .opened → b.timedOut c.now = false) →
      Move b c b
  | test : c.call = .state ∨ c.call = .allowRequest → b.state = .opened → b.timedOut c.now = true →
      Move b c ⟨.halfOpen, b.failureCount, 0, c.now, b.config⟩

section moves
variable {config : CircuitBreakerConfig} {history : List Entry} {b : CircuitBreaker} {c : TimedCall}

theorem bump_of_lt {n threshold : ℕ} (ht : threshold < 2 ^ 32) (h : n < max threshold 1) :
    bump n = n + 1 := by
  rw [bump]
  exact Nat.mod_eq_of_lt (by omega)

theorem move_recordSuccess {now : ℤ} (h : b.state = .halfOpen → b.successCount < max b.config.successThreshold 1) :
    Move b ⟨.recordSuccess, now⟩ (b.recordSuccess now) := by
  unfold recordSuccess
  split
  · rename_i hs
    exact .reset hs rfl
  · rename_i hs
    have hlt := h hs
    have hbump := bump_of_lt b.config.successThreshold_lt hlt
    simp only [hbump, transitionTo]
    split_ifs with hge
    · exact .recover hs rfl (by omega)
    · exact .progress hs rfl (by omega)
  · rename_i hs
    exact .ignore hs rfl

theorem move_recordFailure {now : ℤ} (h : b.state = .closed → b.failureCount < max b.config.failureThreshold 1) :
    Move b ⟨.recordFailure, now⟩ (b.recordFailure now) := by
  unfold recordFailure
  split
  · rename_i hs
    have hlt := h hs
    have hbump := bump_of_lt b.config.failureThreshold_lt hlt
    simp only [hbump, transitionTo]
    split_ifs with hge
    · exact .trip hs rfl (by omega)
    · exact .count hs rfl (by omega)
  · rename_i hs
    exact .relapse hs rfl
  · rename_i hs
    exact .extend hs rfl

theorem move_check (hc : c.call = .state ∨ c.call = .allowRequest) :
    Move b c (b.checkStateTransition c.now) := by
  unfold checkStateTransition
  split_ifs with h
  · exact .test hc h.1 h.2
  · refine .look hc (fun hs => ?_)
    simpa [hs] using h

theorem allowRequest_eq (now : ℤ) :
    b.allowRequest now = (decide ((b.checkStateTransition now).state ≠ .opened), b.checkStateTransition now) := by
  unfold allowRequest getState
  cases hs : (b.checkStateTransition now).state <;> simp [hs]

theorem step_move (h : Tracks config history b) : Move b c (step b c).2 := by
  have hconfig := h.config_eq
  obtain ⟨call, now⟩ := c
  cases call with
  | recordSuccess => exact move_recordSuccess (fun hs => hconfig ▸ (h.halfOpen hs).2)
  | recordFailure => exact move_recordFailure (fun hs => hconfig ▸ (h.closed hs).2)
  | state => exact move_check (.inl rfl)
  | allowRequest =>
      have hmove := move_check (b := b) (c := ⟨.allowRequest, now⟩) (.inr rfl)
      simpa only [step, allowRequest_eq] using hmove

/-! ### What the history says after one more call -/

theorem failuresInARow_snoc (e : Entry) : failuresInARow (history ++ [e]) =
    if e.before.state ≠ .closed then (if e.after.state = .closed then 0 else failuresInARow history)
    else match e.input.call with
      | .recordFailure => failuresInARow history + 1
      | .recordSuccess => 0
      | _ => failuresInARow history := by
  simp only [failuresInARow, List.foldl_append, List.foldl_cons, List.foldl_nil]

theorem successesOnTrial_snoc (e : Entry) : successesOnTrial (history ++ [e]) =
    if e.before.state ≠ .halfOpen then
      (if e.after.state = .halfOpen then 0 else successesOnTrial history)
    else match e.input.call with
      | .recordSuccess => successesOnTrial history + 1
      | _ => successesOnTrial history := by
  simp only [successesOnTrial, List.foldl_append, List.foldl_cons, List.foldl_nil]

theorem lastOpening_snoc (e : Entry) : lastOpening (history ++ [e]) =
    if e.after.state = .opened ∧ (e.before.state ≠ .opened ∨ e.input.call = .recordFailure) then
      some e.input.now
    else lastOpening history := by
  simp only [lastOpening, List.foldl_append, List.foldl_cons, List.foldl_nil]

/-- The counters and the stored time follow the history. -/
theorem Tracks.snoc {b' : CircuitBreaker} {out : Reply} (h : Tracks config history b) (hm : Move b c b') :
    Tracks config (history ++ [⟨b, c, out, b'⟩]) b' := by
  obtain ⟨hconfig, hclosed, hhalf, hopened⟩ := h
  cases hm with
  | reset hs hc =>
      refine ⟨hconfig, fun _ => ?_, fun h => ?_, fun h => ?_⟩
      · simp [failuresInARow_snoc, hs, hc]
      · simp [hs] at h
      · simp [hs] at h
  | count hs hc hlt =>
      refine ⟨hconfig, fun _ => ?_, fun h => ?_, fun h => ?_⟩
      · simpa [failuresInARow_snoc, hs, hc, hconfig, (hclosed hs).1] using hlt
      · simp [hs] at h
      · simp [hs] at h
  | trip hs hc heq =>
      refine ⟨hconfig, fun h => ?_, fun h => ?_, fun _ => ?_⟩
      · cases h
      · cases h
      · simp [lastOpening_snoc, hs]
  | progress hs hc hlt =>
      refine ⟨hconfig, fun h => ?_, fun _ => ?_, fun h => ?_⟩
      · simp [hs] at h
      · simpa [successesOnTrial_snoc, hs, hc, hconfig, (hhalf hs).1] using hlt
      · simp [hs] at h
  | recover hs hc heq =>
      refine ⟨hconfig, fun _ => ?_, fun h => ?_, fun h => ?_⟩
      · simp [failuresInARow_snoc, hs]
      · cases h
      · cases h
  | relapse hs hc =>
      refine ⟨hconfig, fun h => ?_, fun h => ?_, fun _ => ?_⟩
      · cases h
      · cases h
      · simp [lastOpening_snoc, hs]
  | extend hs hc =>
      refine ⟨hconfig, fun h => ?_, fun h => ?_, fun _ => ?_⟩
      · simp [hs] at h
      · simp [hs] at h
      · simp [lastOpening_snoc, hs, hc]
  | ignore hs hc =>
      refine ⟨hconfig, fun h => ?_, fun h => ?_, fun _ => ?_⟩
      · simp [hs] at h
      · simp [hs] at h
      · simp [lastOpening_snoc, hs, hc, hopened hs]
  | look hc hwait =>
      have hnot : c.call ≠ .recordFailure ∧ c.call ≠ .recordSuccess := by
        rcases hc with hc | hc <;> simp [hc]
      refine ⟨hconfig, fun hs => ?_, fun hs => ?_, fun hs => ?_⟩
      · rcases hc with hc | hc <;> simpa [failuresInARow_snoc, hs, hc] using hclosed hs
      · rcases hc with hc | hc <;> simpa [successesOnTrial_snoc, hs, hc] using hhalf hs
      · simp [lastOpening_snoc, hs, hnot.1, hopened hs]
  | test hc hs hover =>
      refine ⟨hconfig, fun h => ?_, fun _ => ?_, fun h => ?_⟩
      · cases h
      · simp [successesOnTrial_snoc, hs]
      · cases h

end moves

/-! ### Every call obeys the law -/

section law
variable {config : CircuitBreakerConfig} {history : List Entry} {b b' : CircuitBreaker} {c : TimedCall}
  {out : Reply}

theorem timedOut_eq_false (hreset : b.config.resetTimeoutMs < 2 ^ 63) {now : ℤ} :
    b.timedOut now = false ↔ now < b.lastStateChange + b.config.resetTimeoutMs := by
  rw [timedOut, asI64_of_lt hreset, decide_eq_false_iff_not]
  omega

/-- A request is refused when the circuit is open after the check. -/
theorem refused_iff (hc : c.call = .allowRequest) :
    (step b c).1 = .allowed false ↔ (step b c).2.state = .opened := by
  obtain ⟨call, now⟩ := c
  subst hc
  simp only [step, allowRequest_eq, Reply.allowed.injEq, decide_eq_false_iff_not, not_not]

theorem Tracks.refuses (h : Tracks config history b) (hreset : config.resetTimeoutMs < 2 ^ 63)
    (hm : Move b c b') (hc : c.call = .allowRequest) :
    b'.state = .opened ↔ b.state = .opened ∧
      ∃ r, lastOpening history = some r ∧ c.now < r + config.resetTimeoutMs := by
  have hconfig := h.config_eq
  subst hconfig
  have hwait : b.state = .opened → ((∃ r, lastOpening history = some r ∧
      c.now < r + b.config.resetTimeoutMs) ↔ b.timedOut c.now = false) := by
    intro hs
    rw [timedOut_eq_false hreset, h.opened hs]
    simp
  cases hm with
  | look _ hno => exact ⟨fun hs => ⟨hs, (hwait hs).mpr (hno hs)⟩, fun hs => hs.1⟩
  | test _ hs hover =>
      constructor
      · intro hne
        cases hne
      · intro hopen
        have hnot := (hwait hs).mp hopen.2
        rw [hover] at hnot
        cases hnot
  | reset _ hc' | count _ hc' _ | trip _ hc' _ | progress _ hc' _ | recover _ hc' _ | relapse _ hc'
  | extend _ hc' | ignore _ hc' =>
      rw [hc] at hc'
      cases hc'

/-- Of the calls that are made on a closed circuit only a failure opens it. -/
theorem Tracks.opens (h : Tracks config history b) (hm : Move b c b') :
    (b.state = .closed ∧ b'.state = .opened) ↔ b.state = .closed ∧ c.call = .recordFailure ∧
      failuresInARow history + 1 = max config.failureThreshold 1 := by
  have hconfig := h.config_eq
  subst hconfig
  refine and_congr_right (fun hs => ?_)
  have hrow := (h.closed hs).1
  cases hm with
  | trip _ hc heq => simp [hc, ← hrow, heq]
  | count _ hc hlt => simp [hs, ← hrow, hlt.ne]
  | reset _ hc => simp [hs, hc]
  | look hc _ => rcases hc with hc | hc <;> simp [hs, hc]
  | progress hs' | recover hs' | relapse hs' | extend hs' | ignore hs' | test _ hs' =>
      rw [hs] at hs'
      cases hs'

/-- Of the calls that are made on a half-open circuit only a success closes it. -/
theorem Tracks.closes (h : Tracks config history b) (hm : Move b c b') :
    (b.state = .halfOpen ∧ b'.state = .closed) ↔ b.state = .halfOpen ∧ c.call = .recordSuccess ∧
      successesOnTrial history + 1 = max config.successThreshold 1 := by
  have hconfig := h.config_eq
  subst hconfig
  refine and_congr_right (fun hs => ?_)
  have hrow := (h.halfOpen hs).1
  cases hm with
  | recover _ hc heq => simp [hc, ← hrow, heq]
  | progress _ hc hlt => simp [hs, ← hrow, hlt.ne]
  | relapse _ hc => simp [hc]
  | look hc _ => rcases hc with hc | hc <;> simp [hs, hc]
  | reset hs' | count hs' | trip hs' | extend hs' | ignore hs' | test _ hs' =>
      rw [hs] at hs'
      cases hs'

/-- Only a failure ends the trial of a half-open circuit in the open state. -/
theorem Move.reopens (hm : Move b c b') (hs : b.state = .halfOpen) :
    (c.call = .recordFailure → b'.state = .opened ∧ b'.lastStateChange = c.now) ∧
      (b'.state = .opened → c.call = .recordFailure) := by
  cases hm with
  | relapse _ hc => exact ⟨fun _ => ⟨rfl, rfl⟩, fun _ => hc⟩
  | recover _ hc _ => simp [hc]
  | progress _ hc _ => simp [hs, hc]
  | look hc _ => rcases hc with hc | hc <;> simp [hs, hc]
  | reset hs' | count hs' | trip hs' | extend hs' | ignore hs' | test _ hs' =>
      rw [hs] at hs'
      cases hs'

/-- An open circuit is not closed by one call. -/
theorem Move.trial (hm : Move b c b') (hs : b.state = .opened) : b'.state ≠ .closed := by
  cases hm with
  | extend | ignore | look => simp [hs]
  | test => simp
  | reset hs' | count hs' | trip hs' | progress hs' | recover hs' | relapse hs' =>
      rw [hs] at hs'
      cases hs'

/-- The counters have room for one more. -/
theorem Tracks.exact (h : Tracks config history b) :
    (b.state = .closed → b.failureCount + 1 < 2 ^ 32) ∧
      (b.state = .halfOpen → b.successCount + 1 < 2 ^ 32) := by
  have hft := config.failureThreshold_lt
  have hst := config.successThreshold_lt
  refine ⟨fun hs => ?_, fun hs => ?_⟩
  · have hlt := (h.closed hs).2
    omega
  · have hlt := (h.halfOpen hs).2
    omega

theorem Tracks.law (h : Tracks config history b) (hreset : config.resetTimeoutMs < 2 ^ 63)
    (hm : Move b c b') (hout : c.call = .allowRequest → (out = .allowed false ↔ b'.state = .opened)) :
    Law config history ⟨b, c, out, b'⟩ where
  below hs := (h.closed hs).2
  opens := h.opens hm
  refuses hc := (hout hc).trans (h.refuses hreset hm hc)
  trial := hm.trial
  closes := h.closes hm
  reopens hs := (hm.reopens hs).1
  relapse hs := (hm.reopens hs).2
  exact := ⟨fun hs _ => h.exact.1 hs, fun hs _ => h.exact.2 hs⟩

/-- The breaker follows its history in every run. -/
theorem tracks_final (config : CircuitBreakerConfig) (start : ℤ) (calls : List TimedCall) :
    Tracks config (Runs.trace step (withConfig config start) calls)
      (Runs.final step (withConfig config start) calls) := by
  induction calls using List.reverseRecOn with
  | nil =>
      refine ⟨rfl, fun _ => ⟨rfl, ?_⟩, fun h => ?_, fun h => ?_⟩
      · exact lt_of_lt_of_le Nat.zero_lt_one (le_max_right _ _)
      · cases h
      · cases h
  | append_singleton calls c ih =>
      rw [Runs.trace_snoc, Runs.final_snoc]
      exact ih.snoc (step_move ih)

/-- **Every call of every run obeys the law of the circuit breaker.** -/
theorem law_of_trace (config : CircuitBreakerConfig) (hreset : config.resetTimeoutMs < 2 ^ 63)
    (start : ℤ) (calls : List TimedCall) (c : TimedCall) :
    Law config (Runs.trace step (withConfig config start) calls)
      (Runs.entry step (Runs.final step (withConfig config start) calls) c) :=
  have ih := tracks_final config start calls
  ih.law hreset (step_move ih) refused_iff

/-- Five failures open the circuit of the default configuration, and a request is refused in the
last millisecond of the timeout. -/
theorem law_of_trace_five_failures :
    let calls : List TimedCall := List.replicate 5 ⟨.recordFailure, 7⟩
    let e := Runs.entry step (Runs.final step (withConfig .default 0) calls) ⟨.allowRequest, 30006⟩
    e.output = .allowed false ∧
      Law .default (Runs.trace step (withConfig .default 0) calls) e := by
  intro calls e
  exact ⟨by decide, law_of_trace .default (by decide) 0 calls ⟨.allowRequest, 30006⟩⟩

end law

end CircuitBreaker

end AraNotification
