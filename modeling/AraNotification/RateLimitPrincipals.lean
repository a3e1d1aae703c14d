import AraNotification.RateLimiter

/-! # Who shares a rate limit

A request is limited under the key that it sends, and one without a key under the text of its
client's address (`check_http`).  The principals behind requests are API keys and addresses, and
both kinds of strings are keys of one map.

A principal is not affected by the requests of another one, unless one of the two is an API key
that reads like the other's address (`independent_iff`). -/

namespace AraNotification

/-- Who is limited: an API key, or an address that sends none. -/
inductive Principal where
  | apiKey (key : String)
  | ip (addr : IpAddr)
deriving DecidableEq, Repr

/-- The key of the bucket of a principal. -/
def Principal.key : Principal → String
  | apiKey key => key
  | ip addr => addr.toString

/-- One call of `check_http`. -/
structure HttpCheck where
  key : Option String
  ip : IpAddr
  readings : Readings
deriving DecidableEq, Repr

/-- The principal of a call. -/
def HttpCheck.principal (c : HttpCheck) : Principal :=
  match c.key with
  | some key => .apiKey key
  | none => .ip c.ip

namespace RateLimiter

/-- One call. -/
def check (l : RateLimiter) (c : HttpCheck) : RateLimitResult × RateLimiter := l.checkHttp c.readings c.key c.ip

/-- The results returned to a principal. -/
def resultsOf (config : RateLimitConfig) (q : Principal) (calls : List HttpCheck) : List RateLimitResult :=
  Runs.observed check (fun c => decide (c.principal = q)) (new config) calls

/-- Deleting all calls of `p` does not change any result returned to `q`. -/
def Independent (config : RateLimitConfig) (p q : Principal) : Prop :=
  ∀ calls, resultsOf config q calls = resultsOf config q (calls.filter (fun c => decide (c.principal ≠ p)))

/-- An API key that reads like an address without a key. -/
def Clash : Principal → Principal → Prop
  | .apiKey key, .ip addr => key = addr.toString
  | .ip addr, .apiKey key => key = addr.toString
  | _, _ => False

/-! ### Independence -/

section independence
variable {config : RateLimitConfig} {p q : Principal}

theorem httpKey_eq (c : HttpCheck) : httpKey c.key c.ip = c.principal.key := by
  unfold httpKey HttpCheck.principal
  cases c.key <;> rfl

theorem check_eq (l : RateLimiter) (c : HttpCheck) : l.check c = l.checkKey c.readings c.principal.key := by
  rw [check, checkHttp, httpKey_eq]

/-- Different principals have one key exactly when they clash. -/
theorem key_eq_iff (h : p ≠ q) : p.key = q.key ↔ Clash p q := by
  cases p with
  | apiKey key =>
      cases q with
      | apiKey key' => exact ⟨fun hk => h (congrArg Principal.apiKey hk), False.elim⟩
      | ip addr => exact Iff.rfl
  | ip addr =>
      cases q with
      | apiKey key => exact eq_comm
      | ip addr' => exact ⟨fun hk => h (congrArg Principal.ip (IpAddr.toString_inj hk)), False.elim⟩

/-- Two limiters that look the same to a key. -/
def SameFor (key : String) (l l' : RateLimiter) : Prop :=
  l.config = l'.config ∧ l.keyBuckets.lookup key = l'.keyBuckets.lookup key

/-- A call with another key does not change what a key sees. -/
theorem SameFor.drop {key key' : String} {r : Readings} {l l' : RateLimiter} (h : SameFor key l l')
    (hne : key ≠ key') : SameFor key (l.checkKey r key').2 l' := by
  refine ⟨config_checkKey.trans h.1, ?_⟩
  cases he : l.config.enabled with
  | true => rw [lookup_checkKey he, if_neg hne, h.2]
  | false => rw [checkKey_of_disabled he, h.2]

/-- The same call keeps them the same. -/
theorem SameFor.keep {key key' : String} {r : Readings} {l l' : RateLimiter} (h : SameFor key l l') :
    SameFor key (l.checkKey r key').2 (l'.checkKey r key').2 := by
  refine ⟨config_checkKey.trans (h.1.trans config_checkKey.symm), ?_⟩
  cases he : l.config.enabled with
  | true =>
      rw [lookup_checkKey he, lookup_checkKey (h.1 ▸ he)]
      split_ifs with hk
      · subst hk
        rw [keyBucket, keyBucket, h.1, h.2]
      · exact h.2
  | false => rw [checkKey_of_disabled he, checkKey_of_disabled (h.1 ▸ he), h.2]

/-- Calls of `p` can be left out when they keep a relation under which the calls of `q` give the same
results. -/
theorem independent_of_relation {R : RateLimiter → RateLimiter → Prop} (hpq : p ≠ q)
    (h0 : R (new config) (new config))
    (hdrop : ∀ l l' r, R l l' → R (l.checkKey r p.key).2 l')
    (hkeep : ∀ l l' r key, R l l' → R (l.checkKey r key).2 (l'.checkKey r key).2)
    (hsame : ∀ l l' r, R l l' → (l.checkKey r q.key).1 = (l'.checkKey r q.key).1) :
    Independent config p q := by
  intro calls
  have hall : List.Forall₂ (· = ·) (resultsOf config q calls)
      (resultsOf config q (calls.filter (fun c => decide (c.principal ≠ p)))) := by
    refine Runs.observed_purge (R := R) h0 ?_ ?_ ?_
    · intro c hc
      rw [decide_eq_true_eq] at hc ⊢
      exact hc ▸ hpq.symm
    · intro l l' c _ hr hc
      rw [decide_eq_false_iff_not, not_not] at hc
      rw [check_eq, hc]
      exact hdrop l l' _ hr
    · intro l l' c _ hr _
      rw [check_eq, check_eq]
      refine ⟨hkeep l l' _ _ hr, fun hc => ?_⟩
      rw [decide_eq_true_eq] at hc
      rw [hc]
      exact hsame l l' _ hr
  rwa [List.forall₂_eq_eq_eq] at hall

theorem independent_of_key_ne (h : p.key ≠ q.key) : Independent config p q :=
  independent_of_relation (R := SameFor q.key) (fun he => h (congrArg Principal.key he)) ⟨rfl, rfl⟩
    (fun _ _ _ hs => hs.drop h.symm) (fun _ _ _ _ hs => hs.keep) (fun _ _ _ hs => checkKey_congr hs.1 hs.2)

theorem independent_of_disabled (hpq : p ≠ q) (h : config.enabled = false) : Independent config p q := by
  refine independent_of_relation (R := fun l l' => l.config.enabled = false ∧ l'.config.enabled = false)
    hpq ⟨h, h⟩ ?_ ?_ ?_
  · rintro l l' r ⟨hl, hl'⟩
    exact ⟨by rw [config_checkKey, hl], hl'⟩
  · rintro l l' r key ⟨hl, hl'⟩
    exact ⟨by rw [config_checkKey, hl], by rw [config_checkKey, hl']⟩
  · rintro l l' r ⟨hl, hl'⟩
    rw [checkKey_of_disabled hl, checkKey_of_disabled hl']

/-- A call of a principal, with all clock readings at `t`. -/
def callOf (p : Principal) (t : ℤ) : HttpCheck :=
  match p with
  | .apiKey key => ⟨some key, .v4 ⟨0, 0, 0, 0⟩, ⟨t, t, t⟩⟩
  | .ip addr => ⟨none, addr, ⟨t, t, t⟩⟩

theorem principal_callOf (p : Principal) (t : ℤ) : (callOf p t).principal = p := by
  cases p <;> rfl

theorem readings_callOf (p : Principal) (t : ℤ) : (callOf p t).readings = ⟨t, t, t⟩ := by
  cases p <;> rfl

/-- The bucket of a key just seen for the first time was last used now. -/
theorem lastActivity_tryConsume_new (capacity rate : ℕ) (t : ℤ) :
    ((TokenBucket.new capacity rate t).tryConsume t).2.lastActivity = t := by
  unfold TokenBucket.tryConsume TokenBucket.tryConsumeN TokenBucket.lastActivity
  split_ifs <;> rfl

/-- A principal sees in the reset time when another one with its key sent a request. -/
theorem not_independent (hpq : p ≠ q) (hk : p.key = q.key) (h : config.enabled = true) :
    ¬ Independent config p q := by
  intro hi
  have hboth := hi [callOf p 0, callOf q 1]
  have hone : [callOf p 0, callOf q 1].filter (fun c => decide (c.principal ≠ p)) = [callOf q 1] := by
    simp [principal_callOf, hpq.symm]
  rw [hone] at hboth
  simp only [resultsOf, Runs.observed_cons, principal_callOf, hpq, decide_true, decide_false, if_true,
    Bool.false_eq_true, if_false, check_eq, readings_callOf] at hboth
  have hreset : (((new config).checkKey ⟨0, 0, 0⟩ p.key).2.checkKey ⟨1, 1, 1⟩ q.key).1.resetAt =
      ((new config).checkKey ⟨1, 1, 1⟩ q.key).1.resetAt := by rw [List.singleton_inj.mp hboth]
  have hafter : ((new config).checkKey ⟨0, 0, 0⟩ p.key).2.config.enabled = true := by
    rw [config_checkKey]
    exact h
  have hlookup : ((new config).checkKey ⟨0, 0, 0⟩ p.key).2.keyBuckets.lookup q.key =
      some ((TokenBucket.new config.httpBurstSize config.httpRequestsPerSecond 0).tryConsume 0).2 := by
    rw [lookup_checkKey h, if_pos hk.symm]
    rfl
  have hused : (((new config).checkKey ⟨0, 0, 0⟩ p.key).2.keyBucket ⟨1, 1, 1⟩ q.key).lastActivity = 0 := by
    rw [keyBucket, hlookup]
    exact lastActivity_tryConsume_new _ _ 0
  have hfresh : ((new config).keyBucket ⟨1, 1, 1⟩ q.key).lastActivity = 1 := rfl
  rw [resetAt_checkKey hafter, resetAt_checkKey (l := new config) h, hused, hfresh] at hreset
  exact absurd hreset (by decide)

/-- **Two principals are independent unless one is an API key that reads like the address that the
other one is.** -/
theorem independent_iff (hpq : p ≠ q) :
    Independent config p q ↔ config.enabled = false ∨ ¬ Clash p q := by
  rw [← key_eq_iff hpq]
  constructor
  · intro hi
    cases he : config.enabled with
    | false => exact .inl rfl
    | true => exact .inr (fun hk => not_independent hpq hk he hi)
  · rintro (he | hk)
    · exact independent_of_disabled hpq he
    · exact independent_of_key_ne hk

/-- The configuration with limiting switched on and its default values. -/
def limiting : RateLimitConfig := ⟨true, 100, 200, 10, 300⟩

/-- Two API keys are independent. -/
theorem independent_keys : Independent limiting (.apiKey "key-1") (.apiKey "key-2") :=
  (independent_iff (by decide)).mpr (.inr (by rintro ⟨⟩))

/-- With a burst of one, a request under the key `10.0.0.7` takes the token of the address `10.0.0.7`,
whose first request is then refused. -/
theorem not_independent_key_address :
    ¬ Independent ⟨true, 1, 1, 10, 300⟩ (.apiKey "10.0.0.7") (.ip (.v4 ⟨10, 0, 0, 7⟩)) := by
  intro h
  have hresults := h [⟨some "10.0.0.7", .v4 ⟨10, 0, 0, 8⟩, ⟨0, 0, 0⟩⟩, ⟨none, .v4 ⟨10, 0, 0, 7⟩, ⟨1, 1, 1⟩⟩]
  have hdenied : [RateLimitResult.denied 1 1 1000] = [RateLimitResult.allowed 0 1 1001] := hresults
  exact absurd hdenied (by decide)

end independence

end RateLimiter

end AraNotification
