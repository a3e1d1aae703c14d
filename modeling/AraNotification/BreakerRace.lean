import AraNotification.CircuitBreaker
import AraNotification.Lib.Interleaving

/-! # Concurrent calls of the circuit breaker

The breaker is four atomics, and every load, store, `fetch_add` and `compare_exchange` is a
step here, as is every reading of the clock.  The memory is sequentially consistent, the
clock does not go back, and any number of `record_success`, `record_failure` and
`allow_request` calls run at the same time.

A record_failure that opens the circuit stores the state first and the time after it.  In
between, a check finds an open circuit with the time of some earlier change, and may put it
on trial at once (`trial_before_timeout`).  The same happens when the time that a check has
loaded goes out of date before its `compare_exchange`, and a report of success that found the
circuit half-open closes it even when it has been reopened meanwhile.  In runs without these
(`Orderly`) the circuit is not left before the timeout is over, and no request that starts
after an opening is allowed before (`refused_until_timeout`). -/

namespace AraNotification

namespace BreakerRace

open Interleaving

/-! ### The programs -/

/-- The breaker and the clock, and what has been observed: the time of the latest store of the
open state, and for every request that was allowed the time of the latest such store before
it started and the time of its answer. -/
structure Shared where
  breaker : CircuitBreaker
  clock : ℤ
  lastOpened : Option ℤ
  allowed : List (Option ℤ × ℤ)

/-- The calls. -/
inductive Call where
  | recordSuccess
  | recordFailure
  | allowRequest

/-- Program counters, named after the access that comes next; `since` is the latest opening
before the request started. -/
inductive Pc where
  | successLoad
  | resetFailures
  | addSuccess
  | failureLoad
  | addFailure
  | storeState (new : CircuitState)
  | readTime (new : CircuitState)
  | storeTime (new : CircuitState) (time : ℤ)
  | clearFailures
  | clearSuccesses
  | readExtension
  | storeExtension (time : ℤ)
  | checkState
  | checkTime (since : Option ℤ)
  | checkElapsed (since : Option ℤ) (last : ℤ)
  | compareExchange (since : Option ℤ) (last : ℤ)
  | trialSuccesses (since : Option ℤ)
  | trialRead (since : Option ℤ)
  | trialStore (since : Option ℤ) (time : ℤ)
  | finalLoad (since : Option ℤ)

def start : Call → Pc
  | .recordSuccess => .successLoad
  | .recordFailure => .failureLoad
  | .allowRequest => .checkState

/-- Time passes. -/
def Shared.pass (s : Shared) (elapsed : ℕ) : Shared := { s with clock := s.clock + elapsed }

/-- Change the breaker. -/
def Shared.set (s : Shared) (b : CircuitBreaker) : Shared := { s with breaker := b }

/-- One access at the present time. -/
def access (s : Shared) : Pc → Shared × Option Pc
  | .successLoad =>
      (s, match s.breaker.state with
        | .closed => some .resetFailures
        | .halfOpen => some .addSuccess
        | .opened => none)
  | .resetFailures => (s.set { s.breaker with failureCount := 0 }, none)
  | .addSuccess =>
      (s.set { s.breaker with successCount := CircuitBreaker.bump s.breaker.successCount },
        if CircuitBreaker.bump s.breaker.successCount ≥ s.breaker.config.successThreshold then
          some (.storeState .closed)
        else none)
  | .failureLoad =>
      (s, match s.breaker.state with
        | .closed => some .addFailure
        | .halfOpen => some (.storeState .opened)
        | .opened => some .readExtension)
  | .addFailure =>
      (s.set { s.breaker with failureCount := CircuitBreaker.bump s.breaker.failureCount },
        if CircuitBreaker.bump s.breaker.failureCount ≥ s.breaker.config.failureThreshold then
          some (.storeState .opened)
        else none)
  | .storeState new =>
      ({ s with
        breaker := { s.breaker with state := new }
        lastOpened := if new = .opened then some s.clock else s.lastOpened }, some (.readTime new))
  | .readTime new => (s, some (.storeTime new s.clock))
  | .storeTime new time =>
      (s.set { s.breaker with lastStateChange := time },
        some (if new = .closed then .clearFailures else .clearSuccesses))
  | .clearFailures => (s.set { s.breaker with failureCount := 0 }, some .clearSuccesses)
  | .clearSuccesses => (s.set { s.breaker with successCount := 0 }, none)
  | .readExtension => (s, some (.storeExtension s.clock))
  | .storeExtension time => (s.set { s.breaker with lastStateChange := time }, none)
  | .checkState =>
      (s, some (if s.breaker.state = .opened then .checkTime s.lastOpened else .finalLoad s.lastOpened))
  | .checkTime since => (s, some (.checkElapsed since s.breaker.lastStateChange))
  | .checkElapsed since last =>
      (s, some (if s.clock - last ≥ asI64 s.breaker.config.resetTimeoutMs then
        .compareExchange since last else .finalLoad since))
  | .compareExchange since _ =>
      if s.breaker.state = .opened then
        (s.set { s.breaker with state := .halfOpen }, some (.trialSuccesses since))
      else (s, some (.finalLoad since))
  | .trialSuccesses since => (s.set { s.breaker with successCount := 0 }, some (.trialRead since))
  | .trialRead since => (s, some (.trialStore since s.clock))
  | .trialStore since time =>
      (s.set { s.breaker with lastStateChange := time }, some (.finalLoad since))
  | .finalLoad since =>
      (if s.breaker.state = .opened then s else { s with allowed := s.allowed ++ [(since, s.clock)] }, none)

/-- One access, some time after the one before. -/
def step (elapsed : ℕ) (s : Shared) (p : Pc) : Option (Shared × Option Pc) := some (access (s.pass elapsed) p)

/-- The calls of the breaker as concurrent programs. -/
def system : System Shared Call ℕ Pc where
  start := start
  step := step

/-- A new breaker with no call running. -/
def initial (config : CircuitBreakerConfig) (now : ℤ) : Config Shared Pc :=
  ⟨⟨.withConfig config now, now, none, []⟩, []⟩

/-- A circuit is put on trial on a time that is not older than its latest opening, and a report
of success does not close it while it is open. -/
def Orderly (c : Config Shared Pc) : Event Call ℕ → Prop
  | .call _ => True
  | .run i _ =>
      match c.threads[i]? with
      | some (.compareExchange _ last) =>
          c.shared.breaker.state = .opened → ∀ o ∈ c.shared.lastOpened, o ≤ last
      | some (.storeState new) => new ≠ .opened → c.shared.breaker.state ≠ .opened
      | _ => True

instance (c : Config Shared Pc) (e : Event Call ℕ) : Decidable (Orderly c e) := by
  unfold Orderly
  split
  · infer_instance
  · split <;> infer_instance

/-! ### What an access does -/

/-- The latest opening before the request started. -/
def Pc.since : Pc → Option ℤ
  | .checkTime since | .checkElapsed since _ | .compareExchange since _ | .trialSuccesses since
  | .trialRead since | .trialStore since _ | .finalLoad since => since
  | _ => none

section accesses
variable {s : Shared} {p : Pc}

/-- Three accesses matter: a store of the state, the exchange that puts the circuit on trial, and
the load that allows a request. -/
theorem access_cases (s : Shared) (p : Pc) :
    (access s p).1.clock = s.clock ∧ (access s p).1.breaker.config = s.breaker.config ∧
    ((∃ new, p = .storeState new ∧ (access s p).1.breaker.state = new ∧
        (access s p).1.lastOpened = (if new = .opened then some s.clock else s.lastOpened) ∧
        (access s p).1.allowed = s.allowed) ∨
      ((access s p).1.lastOpened = s.lastOpened ∧
        ((∃ since last, p = .compareExchange since last ∧ s.breaker.state = .opened ∧
            (access s p).1.allowed = s.allowed) ∨
          ((access s p).1.breaker.state = s.breaker.state ∧ ((access s p).1.allowed = s.allowed ∨
            ∃ since, p = .finalLoad since ∧ s.breaker.state ≠ .opened ∧
              (access s p).1.allowed = s.allowed ++ [(since, s.clock)]))))) := by
  cases p with
  | storeState new => exact ⟨rfl, rfl, .inl ⟨new, rfl, rfl, rfl, rfl⟩⟩
  | compareExchange since last =>
      simp only [access]
      split_ifs with hs
      · exact ⟨rfl, rfl, .inr ⟨rfl, .inl ⟨since, last, rfl, hs, rfl⟩⟩⟩
      · exact ⟨rfl, rfl, .inr ⟨rfl, .inr ⟨rfl, .inl rfl⟩⟩⟩
  | finalLoad since =>
      simp only [access]
      split_ifs with hs
      · exact ⟨rfl, rfl, .inr ⟨rfl, .inr ⟨rfl, .inl rfl⟩⟩⟩
      · exact ⟨rfl, rfl, .inr ⟨rfl, .inr ⟨rfl, .inr ⟨since, rfl, hs, rfl⟩⟩⟩⟩
  | successLoad | resetFailures | addSuccess | failureLoad | addFailure | readTime | storeTime
  | clearFailures | clearSuccesses | readExtension | storeExtension | checkState | checkTime
  | checkElapsed | trialSuccesses | trialRead | trialStore =>
      exact ⟨rfl, rfl, .inr ⟨rfl, .inr ⟨rfl, .inl rfl⟩⟩⟩

/-- A request remembers the latest opening before it started, and comes to the exchange when the
timeout after the time it has loaded is over. -/
theorem access_next {r : Pc} (hr : r ∈ (access s p).2) :
    (r.since = p.since ∨ r.since = s.lastOpened) ∧
      ∀ since last, r = .compareExchange since last →
        last + asI64 s.breaker.config.resetTimeoutMs ≤ s.clock := by
  cases p with
  | checkState =>
      cases hr
      split_ifs <;> exact ⟨.inr rfl, fun _ _ h => nomatch h⟩
  | checkElapsed since last =>
      cases hr
      split_ifs with hover
      · refine ⟨.inl rfl, fun since' last' h => ?_⟩
        cases h
        omega
      · exact ⟨.inl rfl, fun _ _ h => nomatch h⟩
  | compareExchange since last =>
      simp only [access] at hr
      split_ifs at hr <;> cases hr <;> exact ⟨.inl rfl, fun _ _ h => nomatch h⟩
  | successLoad | failureLoad =>
      simp only [access] at hr
      split at hr <;> cases hr <;> exact ⟨.inl rfl, fun _ _ h => nomatch h⟩
  | addSuccess | addFailure =>
      simp only [access] at hr
      split_ifs at hr <;> cases hr
      exact ⟨.inl rfl, fun _ _ h => nomatch h⟩
  | storeTime new time =>
      cases hr
      split_ifs <;> exact ⟨.inl rfl, fun _ _ h => nomatch h⟩
  | resetFailures | clearSuccesses | storeExtension | finalLoad => cases hr
  | storeState | readTime | clearFailures | readExtension | checkTime | trialSuccesses | trialRead
  | trialStore =>
      cases hr
      exact ⟨.inl rfl, fun _ _ h => nomatch h⟩

end accesses

/-! ### The circuit is not left before the timeout is over -/

/-- When the circuit is not open, the timeout after its latest opening is over, and so it was for
every request that was allowed. -/
structure Guarded (config : CircuitBreakerConfig) (s : Shared) : Prop where
  config_eq : s.breaker.config = config
  past : ∀ o ∈ s.lastOpened, o ≤ s.clock
  shut : s.breaker.state ≠ .opened → ∀ o ∈ s.lastOpened, o + config.resetTimeoutMs ≤ s.clock
  allowed : ∀ x ∈ s.allowed, ∀ o ∈ x.1, o + config.resetTimeoutMs ≤ x.2

/-- The opening that a request remembers is not later than the latest one, and the timeout after
the time that it has loaded is over. -/
structure Waited (config : CircuitBreakerConfig) (s : Shared) (p : Pc) : Prop where
  since : ∀ o ∈ p.since, ∃ o' ∈ s.lastOpened, o ≤ o'
  timeout : ∀ since last, p = .compareExchange since last → last + config.resetTimeoutMs ≤ s.clock

section steps
variable {config : CircuitBreakerConfig} {s : Shared} {p : Pc}

theorem Guarded.pass (h : Guarded config s) (elapsed : ℕ) : Guarded config (s.pass elapsed) where
  config_eq := h.config_eq
  past o ho := (h.past o ho).trans (Int.le_add_of_nonneg_right (Int.natCast_nonneg elapsed))
  shut hs o ho := (h.shut hs o ho).trans (Int.le_add_of_nonneg_right (Int.natCast_nonneg elapsed))
  allowed := h.allowed

theorem Waited.pass (h : Waited config s p) (elapsed : ℕ) : Waited config (s.pass elapsed) p where
  since := h.since
  timeout since last hp :=
    (h.timeout since last hp).trans (Int.le_add_of_nonneg_right (Int.natCast_nonneg elapsed))

/-- The latest opening does not become earlier. -/
theorem lastOpened_access (h : Guarded config s) {o : ℤ} (ho : o ∈ s.lastOpened) :
    ∃ o' ∈ (access s p).1.lastOpened, o ≤ o' := by
  obtain ⟨-, -, ⟨new, -, -, hopen, -⟩ | ⟨hopen, -⟩⟩ := access_cases s p
  · rw [hopen]
    split_ifs
    · exact ⟨s.clock, rfl, h.past o ho⟩
    · exact ⟨o, ho, le_rfl⟩
  · rw [hopen]
    exact ⟨o, ho, le_rfl⟩

/-- An orderly access keeps the circuit guarded. -/
theorem Guarded.access (h : Guarded config s) (hw : Waited config s p)
    (htrial : ∀ since last, p = .compareExchange since last → s.breaker.state = .opened →
      ∀ o ∈ s.lastOpened, o ≤ last)
    (hclose : ∀ new, p = .storeState new → new ≠ .opened → s.breaker.state ≠ .opened) :
    Guarded config (access s p).1 := by
  obtain ⟨hclock, hconfig, hcases⟩ := access_cases s p
  have hallowed : ∀ since, s.breaker.state ≠ .opened → p = .finalLoad since →
      ∀ o ∈ since, o + config.resetTimeoutMs ≤ s.clock := by
    rintro since hs rfl o ho
    obtain ⟨o', ho', hle⟩ := hw.since o ho
    have hover := h.shut hs o' ho'
    omega
  refine ⟨hconfig.trans h.config_eq, ?_, ?_, ?_⟩
  · intro o ho
    rw [hclock]
    obtain ⟨new, -, -, hopen, -⟩ | ⟨hopen, -⟩ := hcases
    · rw [hopen] at ho
      split_ifs at ho
      · rw [Option.mem_some_iff.mp ho]
      · exact h.past o ho
    · rw [hopen] at ho
      exact h.past o ho
  · intro hs o ho
    rw [hclock]
    obtain ⟨new, rfl, hnew, hopen, -⟩ | ⟨hopen, hrest⟩ := hcases
    · rw [hnew] at hs
      rw [hopen, if_neg hs] at ho
      exact h.shut (hclose new rfl hs) o ho
    · rw [hopen] at ho
      obtain ⟨since, last, rfl, hold, -⟩ | ⟨hstate, -⟩ := hrest
      · have hle := htrial since last rfl hold o ho
        have hover := hw.timeout since last rfl
        omega
      · rw [hstate] at hs
        exact h.shut hs o ho
  · obtain ⟨new, -, -, -, hsame⟩ | ⟨-, ⟨since, last, -, -, hsame⟩ | ⟨-, hsame | ⟨since, hp, hs, hnew⟩⟩⟩ :=
      hcases
    · rw [hsame]
      exact h.allowed
    · rw [hsame]
      exact h.allowed
    · rw [hsame]
      exact h.allowed
    · rw [hnew]
      intro x hx
      rcases List.mem_append.mp hx with hx | hx
      · exact h.allowed x hx
      · rw [List.mem_singleton.mp hx]
        exact hallowed since hs hp

theorem Waited.other (hg : Guarded config s) {r : Pc} (h : Waited config s r) :
    Waited config (access s p).1 r where
  since o ho := by
    obtain ⟨o₁, ho₁, hle₁⟩ := h.since o ho
    obtain ⟨o₂, ho₂, hle₂⟩ := lastOpened_access hg ho₁
    exact ⟨o₂, ho₂, hle₁.trans hle₂⟩
  timeout since last hr := by
    rw [(access_cases s p).1]
    exact h.timeout since last hr

theorem Waited.next (hreset : config.resetTimeoutMs < 2 ^ 63) (hg : Guarded config s)
    (h : Waited config s p) {r : Pc} (hr : r ∈ (access s p).2) : Waited config (access s p).1 r := by
  obtain ⟨hsince, hover⟩ := access_next hr
  refine Waited.other hg ⟨fun o ho => ?_, fun since last he => ?_⟩
  · rcases hsince with heq | heq
    · exact h.since o (heq ▸ ho)
    · exact ⟨o, heq ▸ ho, le_rfl⟩
  · have hle := hover since last he
    rwa [hg.config_eq, asI64_of_lt hreset] at hle

end steps

/-! ### Runs -/

section runs
variable {config : CircuitBreakerConfig} {now : ℤ} {c : Config Shared Pc}

theorem guarded_of_reaches (hreset : config.resetTimeoutMs < 2 ^ 63)
    (h : Reaches system Orderly (initial config now) c) :
    Guarded config c.shared ∧ Holds (Waited config) c := by
  refine h.invariant (I := fun c => Guarded config c.shared ∧ Holds (Waited config) c) ?_ ?_
  · refine ⟨⟨rfl, ?_, ?_, ?_⟩, ?_⟩
    · exact fun o ho => nomatch ho
    · exact fun _ o ho => nomatch ho
    · exact fun x hx => absurd hx List.not_mem_nil
    · exact fun p hp => absurd hp List.not_mem_nil
  · rintro c e c' - ⟨hg, hw⟩ hok hn
    constructor
    · obtain ⟨op, rfl, rfl⟩ | ⟨i, elapsed, p, s, q, l₁, l₂, rfl, hp, hs, -, rfl⟩ := System.next_cases hn
      · exact hg
      · obtain rfl : (access (c.shared.pass elapsed) p).1 = s := congrArg Prod.fst (Option.some.inj hs)
        refine (hg.pass elapsed).access ((hw p (List.mem_of_getElem? hp)).pass elapsed) ?_ ?_
        · rintro since last rfl
          rw [Orderly, hp] at hok
          exact hok
        · rintro new rfl
          rw [Orderly, hp] at hok
          exact hok
    · refine hw.next hn ?_ ?_
      · rintro (_ | _ | _) - <;> exact ⟨fun o ho => (nomatch ho), fun _ _ h => (nomatch h)⟩
      · intro i elapsed p s q l₁ l₂ _ hp _ hs
        have hpw := (hw p (List.mem_of_getElem? hp)).pass elapsed
        obtain rfl : (access (c.shared.pass elapsed) p).1 = s := congrArg Prod.fst (Option.some.inj hs)
        obtain rfl : (access (c.shared.pass elapsed) p).2 = q := congrArg Prod.snd (Option.some.inj hs)
        exact ⟨fun r hr => hpw.next hreset (hg.pass elapsed) hr,
          fun r _ hr => (hr.pass elapsed).other (hg.pass elapsed)⟩

/-- **In an orderly run no request that starts after the circuit was opened is allowed before the
timeout is over.** -/
theorem refused_until_timeout (hreset : config.resetTimeoutMs < 2 ^ 63)
    (h : Reaches system Orderly (initial config now) c) {o t : ℤ} (ha : (some o, t) ∈ c.shared.allowed) :
    o + config.resetTimeoutMs ≤ t :=
  (guarded_of_reaches hreset h).1.allowed _ ha o rfl

end runs

/-! ### Allowed before the timeout -/

/-- One failure opens the circuit, for a second. -/
def oneFailure : CircuitBreakerConfig := ⟨1, 1, 1000, by decide, by decide, by decide⟩

/-- A failure five seconds after the breaker was made, and then a request. -/
def failThenAsk (order : List (ℕ × ℕ)) : List (Event Call ℕ) :=
  [.call .recordFailure, .run 0 5000, .run 0 0, .run 0 0, .call .allowRequest] ++
    order.map (fun e => .run e.1 e.2)

/-- The failure is recorded completely, and the request is allowed after the timeout. -/
theorem refused_until_timeout_on_trial :
    ∃ c, Reaches system Orderly (initial oneFailure 0) c ∧
      (some 5000, 6000) ∈ c.shared.allowed ∧ (5000 : ℤ) + oneFailure.resetTimeoutMs ≤ 6000 := by
  have hseen : (system.play Orderly (initial oneFailure 0)
      (failThenAsk [(0, 0), (0, 0), (0, 0), (0, 1000), (0, 0), (0, 0), (0, 0), (0, 0), (0, 0), (0, 0),
        (0, 0)])).any (fun c => decide ((some 5000, 6000) ∈ c.shared.allowed)) = true := by
    decide
  obtain ⟨c, hr, hc⟩ := exists_reaches_of_play hseen
  have hallowed : (some 5000, 6000) ∈ c.shared.allowed := of_decide_eq_true hc
  exact ⟨c, hr, hallowed, refused_until_timeout (by decide) hr hallowed⟩

/-- A request between the two stores of a record_failure is allowed at once. -/
theorem trial_before_timeout :
    ¬ ∀ (config : CircuitBreakerConfig) (now : ℤ) (c : Config Shared Pc),
        config.resetTimeoutMs < 2 ^ 63 → Reaches system (fun _ _ => True) (initial config now) c →
        ∀ o t, (some o, t) ∈ c.shared.allowed → o + config.resetTimeoutMs ≤ t := by
  intro hall
  have hseen : (system.play (fun _ _ => True) (initial oneFailure 0)
      (failThenAsk (List.replicate 8 (1, 0)))).any
        (fun c => decide ((some 5000, 5000) ∈ c.shared.allowed)) = true := by
    decide
  obtain ⟨c, hr, hc⟩ := exists_reaches_of_play hseen
  have hearly := hall oneFailure 0 c (by decide) hr 5000 5000 (of_decide_eq_true hc)
  exact absurd hearly (by decide)

end BreakerRace

end AraNotification
