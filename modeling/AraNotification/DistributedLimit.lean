import AraNotification.Lib.Digits
import AraNotification.Lib.ExpiringMap
import AraNotification.Lib.Interleaving
import AraNotification.Tenant

/-! # The distributed rate limit

`RedisRateLimiterBackend` counts the calls for an identifier in a counter of Redis, one for each
window of `window_seconds` (`domain/ratelimit/distributed.rs`).  A script that Redis runs as one step
increments the counter and lets it expire a window after the first increment; a call is allowed when
the count that it gets back is at most the limit.

Calls of any number of instances run side by side, and between computing its key and running
the script a call may be overtaken.  `Assumed` collects what is assumed of the surroundings: the
connection and the script do not fail, a script runs at the clock reading of its key, and a counter
stays below `2 ^ 32`.

Keys of different identifiers or windows are different (`counterKey_inj`), and a counter lives at
least until its window is over, so the counter of the current window has counted all its calls
(`Counted`).  Therefore exactly the first `limit` calls of a window are allowed (`exact_per_window`). -/

namespace AraNotification

namespace DistributedLimit

open Interleaving

/-! ### Redis -/

/-- `EXPIRE` takes a time to live of so many seconds at `now`: the deadline is a signed 64-bit number
of milliseconds. -/
def TtlAccepted (now seconds : ℕ) : Prop := now + seconds * 1000 < 2 ^ 63

instance (now seconds : ℕ) : Decidable (TtlAccepted now seconds) := inferInstanceAs (Decidable (_ < _))

/-- The script: `INCR`, and `EXPIRE` after the first increment; `none` is its error. -/
def script (store : ExpiringMap String ℕ) (now : ℕ) (key : String) (seconds : ℕ) :
    Option ℕ × ExpiringMap String ℕ :=
  let current := (store.get now key).getD 0 + 1
  let store' := store.alter now key (fun v => some (v.getD 0 + 1))
  if current = 1 then
    if TtlAccepted now seconds then (some current, (store'.expire now key (now + seconds * 1000)).2)
    else (none, store')
  else (some current, store')

/-! ### A backend and its calls -/

/-- An instance of the backend. -/
structure Backend where
  keyPrefix : String
  enabled : Bool
deriving DecidableEq, Repr

/-- What a call returns; dividing by a window of no length is a panic. -/
inductive LimitResult where
  | ok (allowed : Bool) (remaining retryAfter : ℕ)
  | backendError (message : String)
  | panicked
deriving DecidableEq, Repr

def LimitResult.allowed : LimitResult → Bool
  | ok allowed _ _ => allowed
  | _ => false

/-- The number of the current window; `window as i64 * 1000` wraps around. -/
def currentWindow (now window : ℕ) : Option ℤ :=
  if asI64 (window * 1000) = 0 then none else some (Int.tdiv now (asI64 (window * 1000)))

/-- The key of a counter. -/
def counterKey (keyPrefix identifier : String) (window : ℤ) : String :=
  keyPrefix ++ ":" ++ identifier ++ ":" ++ toString window

/-- `rate_limit_key`. -/
def Backend.rateLimitKey (b : Backend) (identifier : String) (now window : ℕ) : Option String :=
  (currentWindow now window).map (counterKey b.keyPrefix identifier)

/-- The result for a count. -/
def resultOf (limit windowSeconds count : ℕ) : LimitResult :=
  if count < 2 ^ 32 then
    .ok (decide (count ≤ limit)) (if count > limit then 0 else limit - count)
      (if count ≤ limit then 0 else windowSeconds)
  else .backendError "Response was of incompatible type"

/-- A call of `check_rate_limit` at an instance, or the passing of time. -/
inductive Op where
  | check (backend : Backend) (identifier : String)
  | tick

/-- Program counters, named after what comes next. -/
inductive Pc where
  | connect (backend : Backend) (identifier : String)
  | invoke (backend : Backend) (identifier key : String) (time : ℕ)
  | tick

/-- What the environment decides in a step: whether a connection or a command succeeds, and how far
the clock moves. -/
structure Input where
  ok : Bool
  elapsed : ℕ

/-- A call that has returned, with the clock reading at which its key was computed. -/
structure Decision where
  backend : Backend
  identifier : String
  time : ℕ
  result : LimitResult
deriving DecidableEq, Repr

/-- The clock, Redis, and the calls that have returned. -/
structure Shared where
  now : ℕ
  store : ExpiringMap String ℕ
  decisions : List Decision

/-- Keep the result of a call. -/
def Shared.decide (s : Shared) (d : Decision) : Shared := { s with decisions := s.decisions ++ [d] }

section system
variable (limit windowSeconds : ℕ)

/-- One step.  The connection is taken and the key is computed, then the script runs. -/
def step (inp : Input) (s : Shared) : Pc → Option (Shared × Option Pc)
  | .connect backend identifier =>
      if backend.enabled then
        if inp.ok then
          match backend.rateLimitKey identifier s.now windowSeconds with
          | some key => some (s, some (.invoke backend identifier key s.now))
          | none => some (s.decide ⟨backend, identifier, s.now, .panicked⟩, none)
        else some (s.decide ⟨backend, identifier, s.now, .backendError "Failed to get connection"⟩, none)
      else some (s.decide ⟨backend, identifier, s.now, .ok true limit 0⟩, none)
  | .invoke backend identifier key time =>
      if inp.ok then
        match script s.store s.now key windowSeconds with
        | (some count, store) =>
            some ({ s with store := store }.decide ⟨backend, identifier, time, resultOf limit windowSeconds count⟩,
              none)
        | (none, store) =>
            some ({ s with store := store }.decide ⟨backend, identifier, time, .backendError "invalid expire time"⟩,
              none)
      else some (s.decide ⟨backend, identifier, time, .backendError "command failed"⟩, none)
  | .tick => some ({ s with now := s.now + inp.elapsed }, none)

/-- The calls as a system of interleaved steps. -/
def system : System Shared Op Input Pc where
  start
    | .check backend identifier => .connect backend identifier
    | .tick => .tick
  step := step limit windowSeconds

/-- No call, and nothing in Redis. -/
def initial (now : ℕ) : Config Shared Pc := ⟨⟨now, ∅, []⟩, []⟩

end system

/-! ### What is counted -/

section counts
variable (windowSeconds : ℕ)

/-- The window in which a time falls. -/
def windowOf (time : ℕ) : ℕ := time / (windowSeconds * 1000)

/-- A call for the identifier at an enabled instance, in the `k`-th window. -/
def counts (identifier : String) (k : ℕ) (d : Decision) : Bool :=
  d.backend.enabled && decide (d.identifier = identifier ∧ windowOf windowSeconds d.time = k)

variable (s : Shared)

/-- The calls for an identifier in a window. -/
def callsIn (identifier : String) (k : ℕ) : ℕ := s.decisions.countP (counts windowSeconds identifier k)

/-- The allowed calls for an identifier in a window. -/
def allowedIn (identifier : String) (k : ℕ) : ℕ :=
  s.decisions.countP (fun d => counts windowSeconds identifier k d && d.result.allowed)

/-- The allowed calls for an identifier from a time on, for the length of a window. -/
def allowedFrom (identifier : String) (a : ℕ) : ℕ :=
  s.decisions.countP (fun d => d.backend.enabled && d.result.allowed &&
    decide (d.identifier = identifier ∧ a ≤ d.time ∧ d.time ≤ a + windowSeconds * 1000))

end counts

/-- What is assumed of a step: all instances have one prefix, connections and scripts succeed, a
script runs at the clock reading of its key, and fewer than `2 ^ 32` calls fall in one window. -/
def Assumed (keyPrefix : String) (windowSeconds : ℕ) (c : Config Shared Pc) : Event Op Input → Prop
  | .call (.check backend _) => backend.keyPrefix = keyPrefix
  | .call .tick => True
  | .run i inp =>
      match c.threads[i]? with
      | some (.connect backend _) =>
          backend.enabled = true → inp.ok = true ∧ TtlAccepted c.shared.now windowSeconds
      | some (.invoke _ identifier _ time) => inp.ok = true ∧ c.shared.now = time ∧
          callsIn windowSeconds c.shared identifier (windowOf windowSeconds time) + 1 < 2 ^ 32
      | _ => True

instance (keyPrefix : String) (windowSeconds : ℕ) (c : Config Shared Pc) (e : Event Op Input) :
    Decidable (Assumed keyPrefix windowSeconds c e) := by
  unfold Assumed
  split
  · infer_instance
  · infer_instance
  · split <;> infer_instance

/-! ### The script -/

section scripts
variable {store : ExpiringMap String ℕ} {now seconds : ℕ} {key : String}

/-- The first increment makes the counter and its deadline. -/
theorem script_first (h : store.lookup key = none) (httl : TtlAccepted now seconds) :
    ∃ store', script store now key seconds = (some 1, store') ∧
      ∀ key', store'.lookup key' = if key' = key then some ⟨1, some (now + seconds * 1000)⟩
        else store.lookup key' := by
  have hget : store.get now key = none := by
    rw [ExpiringMap.get, ExpiringMap.entry_of_lookup_eq_none h]
    rfl
  have hentry : (store.alter now key (fun v => some (v.getD 0 + 1))).entry now key = some ⟨1, none⟩ := by
    refine ExpiringMap.entry_of_lookup ?_ rfl
    rw [ExpiringMap.lookup_alter (fun v => v.getD 0 + 1), if_pos rfl, hget,
      ExpiringMap.entry_of_lookup_eq_none h]
    rfl
  refine ⟨_, by rw [script, hget, Option.getD_none, if_pos rfl, if_pos httl], fun key' => ?_⟩
  rw [ExpiringMap.expire, hentry, DashMap.lookup_insert, ExpiringMap.lookup_alter (fun v => v.getD 0 + 1)]
  split_ifs <;> rfl

variable (seconds) in
/-- A further increment keeps the deadline. -/
theorem script_next {n deadline : ℕ} (h : store.lookup key = some ⟨n, some deadline⟩) (hn : 0 < n)
    (hlive : now < deadline) :
    ∃ store', script store now key seconds = (some (n + 1), store') ∧
      ∀ key', store'.lookup key' = if key' = key then some ⟨n + 1, some deadline⟩ else store.lookup key' := by
  have hentry : store.entry now key = some ⟨n, some deadline⟩ :=
    ExpiringMap.entry_of_lookup h (by simp [Expiring.alive, hlive])
  have hget : store.get now key = some n := by
    rw [ExpiringMap.get, hentry]
    rfl
  refine ⟨_, by rw [script, hget, Option.getD_some, if_neg (by omega)], fun key' => ?_⟩
  rw [ExpiringMap.lookup_alter (fun v => v.getD 0 + 1), hget, hentry]
  rfl

end scripts

/-! ### Keys and windows -/

section keys
variable {windowSeconds now : ℕ} {keyPrefix i i' : String} {k k' : ℕ}

theorem toList_counterKey : (counterKey keyPrefix i k).toList =
    (keyPrefix ++ ":" ++ i).toList ++ ':' :: Nat.toDigits 10 k := by
  rw [counterKey, toList_colon]
  congr 2
  exact Nat.toList_repr

/-- Counters of different identifiers or windows have different keys. -/
theorem counterKey_inj : counterKey keyPrefix i k = counterKey keyPrefix i' k' ↔ i = i' ∧ k = k' := by
  have hdigits : ∀ n, ':' ∉ Nat.toDigits 10 n := Digits.not_mem_toDigits (by decide) (by decide)
  constructor
  · intro h
    rw [← String.toList_inj, toList_counterKey, toList_counterKey,
      Separator.join_inj_right (hdigits k) (hdigits k'), String.toList_inj] at h
    obtain ⟨hi, hk⟩ := h
    refine ⟨?_, Digits.toDigits_inj (by decide) (by decide) hk⟩
    rw [← String.toList_inj, toList_colon, toList_colon, List.append_cancel_left_eq, List.cons.injEq] at hi
    exact String.toList_inj.mp hi.2
  · rintro ⟨rfl, rfl⟩
    rfl

/-- A window that `EXPIRE` takes does not overflow. -/
theorem currentWindow_eq (hw : 1 ≤ windowSeconds) (h : TtlAccepted now windowSeconds) :
    currentWindow now windowSeconds = some (windowOf windowSeconds now : ℤ) := by
  unfold TtlAccepted at h
  have hcast : asI64 (windowSeconds * 1000) = (windowSeconds * 1000 : ℕ) := asI64_of_lt (by omega)
  rw [currentWindow, hcast, if_neg (by omega), windowOf]
  rfl

theorem rateLimitKey_eq {b : Backend} (hb : b.keyPrefix = keyPrefix) (hw : 1 ≤ windowSeconds)
    (h : TtlAccepted now windowSeconds) :
    b.rateLimitKey i now windowSeconds = some (counterKey keyPrefix i (windowOf windowSeconds now)) := by
  rw [Backend.rateLimitKey, currentWindow_eq hw h, hb, Option.map_some]

/-- A time is before the end of its window, and a window after it not before. -/
theorem lt_windowEnd (hw : 1 ≤ windowSeconds) (t : ℕ) :
    t < (windowOf windowSeconds t + 1) * (windowSeconds * 1000) ∧
      (windowOf windowSeconds t + 1) * (windowSeconds * 1000) ≤ t + windowSeconds * 1000 := by
  have hpos : 0 < windowSeconds * 1000 := by omega
  have hlo := Nat.div_mul_le_self t (windowSeconds * 1000)
  have hhi := Nat.lt_div_mul_add (a := t) hpos
  unfold windowOf
  rw [Nat.add_mul, Nat.one_mul]
  omega

end keys

/-! ### Counters -/

section counters
variable {limit windowSeconds : ℕ} {keyPrefix : String} {s : Shared} {d : Decision}

/-- The counters of the windows that are not over have counted all calls, and of those exactly the
first `limit` were allowed. -/
structure Counted (limit windowSeconds : ℕ) (keyPrefix : String) (s : Shared) : Prop where
  past : ∀ d ∈ s.decisions, d.time ≤ s.now
  fresh : ∀ (i : String) (k : ℕ), callsIn windowSeconds s i k = 0 →
    s.store.lookup (counterKey keyPrefix i k) = none
  counter : ∀ (i : String) (k : ℕ), 0 < callsIn windowSeconds s i k → s.now < (k + 1) * (windowSeconds * 1000) →
    ∃ deadline, s.store.lookup (counterKey keyPrefix i k) = some ⟨callsIn windowSeconds s i k, some deadline⟩ ∧
      (k + 1) * (windowSeconds * 1000) ≤ deadline
  allowed : ∀ (i : String) (k : ℕ), allowedIn windowSeconds s i k = min limit (callsIn windowSeconds s i k)

theorem counted_initial (now : ℕ) : Counted limit windowSeconds keyPrefix (initial now).shared where
  past := by simp [initial]
  fresh _ _ _ := rfl
  counter i k h := absurd h (by simp [initial, callsIn])
  allowed i k := by simp [initial, callsIn, allowedIn]

theorem callsIn_decide (i : String) (k : ℕ) : callsIn windowSeconds (s.decide d) i k =
    callsIn windowSeconds s i k + if counts windowSeconds i k d then 1 else 0 := by
  unfold callsIn Shared.decide
  rw [List.countP_append, List.countP_singleton]

theorem allowedIn_decide (i : String) (k : ℕ) : allowedIn windowSeconds (s.decide d) i k =
    allowedIn windowSeconds s i k + if counts windowSeconds i k d && d.result.allowed then 1 else 0 := by
  unfold allowedIn Shared.decide
  rw [List.countP_append, List.countP_singleton]

/-- The passing of time. -/
theorem Counted.tick (h : Counted limit windowSeconds keyPrefix s) (elapsed : ℕ) :
    Counted limit windowSeconds keyPrefix { s with now := s.now + elapsed } where
  past d hd := (h.past d hd).trans (Nat.le_add_right _ _)
  fresh := h.fresh
  counter i k hpos hnow := h.counter i k hpos (lt_of_le_of_lt (Nat.le_add_right _ _) hnow)
  allowed := h.allowed

/-- A call that is not limited. -/
theorem Counted.decide_disabled (h : Counted limit windowSeconds keyPrefix s) (hd : d.backend.enabled = false)
    (ht : d.time ≤ s.now) : Counted limit windowSeconds keyPrefix (s.decide d) := by
  have hcounts : ∀ i k, counts windowSeconds i k d = false := fun i k => by simp [counts, hd]
  have hcalls : ∀ i k, callsIn windowSeconds (s.decide d) i k = callsIn windowSeconds s i k := by
    intro i k
    rw [callsIn_decide, hcounts]
    rfl
  refine ⟨?_, ?_, ?_, ?_⟩
  · intro e he
    rcases List.mem_append.mp he with he | he
    · exact h.past e he
    · rw [List.mem_singleton.mp he]
      exact ht
  · intro i k hzero
    exact h.fresh i k (hcalls i k ▸ hzero)
  · intro i k hpos hnow
    rw [hcalls] at hpos ⊢
    exact h.counter i k hpos hnow
  · intro i k
    rw [allowedIn_decide, hcounts, hcalls]
    exact h.allowed i k

/-- What the script does to the counter of the current window. -/
theorem Counted.script (h : Counted limit windowSeconds keyPrefix s) (hw : 1 ≤ windowSeconds)
    (httl : TtlAccepted s.now windowSeconds) (i : String) :
    ∃ store deadline, DistributedLimit.script s.store s.now
        (counterKey keyPrefix i (windowOf windowSeconds s.now)) windowSeconds =
        (some (callsIn windowSeconds s i (windowOf windowSeconds s.now) + 1), store) ∧
      (windowOf windowSeconds s.now + 1) * (windowSeconds * 1000) ≤ deadline ∧
      ∀ key, store.lookup key = if key = counterKey keyPrefix i (windowOf windowSeconds s.now)
        then some ⟨callsIn windowSeconds s i (windowOf windowSeconds s.now) + 1, some deadline⟩
        else s.store.lookup key := by
  obtain ⟨hend, hlate⟩ := lt_windowEnd hw s.now
  rcases Nat.eq_zero_or_pos (callsIn windowSeconds s i (windowOf windowSeconds s.now)) with hzero | hpos
  · obtain ⟨store, hscript, hlookup⟩ := script_first (h.fresh i _ hzero) httl
    refine ⟨store, s.now + windowSeconds * 1000, ?_, hlate, ?_⟩
    · rw [hscript, hzero]
    · rw [hzero]
      exact hlookup
  · obtain ⟨deadline, hentry, hdeadline⟩ := h.counter i _ hpos hend
    obtain ⟨store, hscript, hlookup⟩ := script_next windowSeconds hentry hpos (hend.trans_le hdeadline)
    exact ⟨store, deadline, hscript, hdeadline, hlookup⟩

theorem counts_iff {i : String} {k : ℕ} (hd : d.backend.enabled = true) :
    counts windowSeconds i k d = true ↔ i = d.identifier ∧ k = windowOf windowSeconds d.time := by
  rw [counts, hd, Bool.true_and, decide_eq_true_eq, eq_comm (a := i), eq_comm (a := k)]

/-- A call that is counted. -/
theorem Counted.decide_counted (h : Counted limit windowSeconds keyPrefix s)
    {store : ExpiringMap String ℕ} {deadline n : ℕ} (hd : d.backend.enabled = true) (ht : d.time = s.now)
    (hn : callsIn windowSeconds s d.identifier (windowOf windowSeconds s.now) = n)
    (hresult : d.result = resultOf limit windowSeconds (n + 1)) (hfew : n + 1 < 2 ^ 32)
    (hdeadline : (windowOf windowSeconds s.now + 1) * (windowSeconds * 1000) ≤ deadline)
    (hlookup : ∀ key, store.lookup key = if key = counterKey keyPrefix d.identifier (windowOf windowSeconds s.now)
      then some ⟨n + 1, some deadline⟩ else s.store.lookup key) :
    Counted limit windowSeconds keyPrefix ({ s with store := store }.decide d) := by
  have hcalls : ∀ i k, callsIn windowSeconds ({ s with store := store }.decide d) i k =
      callsIn windowSeconds s i k + if counts windowSeconds i k d then 1 else 0 :=
    fun i k => callsIn_decide (s := { s with store := store }) i k
  -- The counter of another identifier or window is not touched.
  have hother : ∀ (i : String) (k : ℕ), counts windowSeconds i k d ≠ true →
      store.lookup (counterKey keyPrefix i k) = s.store.lookup (counterKey keyPrefix i k) := by
    intro i k hno
    rw [hlookup, if_neg]
    intro hkey
    obtain ⟨hi, hk⟩ := counterKey_inj.mp hkey
    exact hno ((counts_iff hd).mpr ⟨hi, by rw [ht]; exact hk⟩)
  refine ⟨?_, ?_, ?_, ?_⟩
  · intro e he
    rcases List.mem_append.mp he with he | he
    · exact h.past e he
    · rw [List.mem_singleton.mp he]
      exact le_of_eq ht
  · intro i k hzero
    rw [hcalls] at hzero
    by_cases hc : counts windowSeconds i k d = true
    · rw [if_pos hc] at hzero
      exact absurd hzero (Nat.succ_ne_zero _)
    · rw [if_neg hc] at hzero
      exact (hother i k hc).trans (h.fresh i k hzero)
  · intro i k hpos hnow
    rw [hcalls] at hpos ⊢
    by_cases hc : counts windowSeconds i k d = true
    · obtain ⟨rfl, rfl⟩ := (counts_iff hd).mp hc
      rw [ht] at hc ⊢
      refine ⟨deadline, ?_, hdeadline⟩
      rw [if_pos hc, hn]
      exact (hlookup _).trans (if_pos rfl)
    · rw [if_neg hc, Nat.add_zero] at hpos ⊢
      obtain ⟨deadline', hentry, hle⟩ := h.counter i k hpos hnow
      exact ⟨deadline', (hother i k hc).trans hentry, hle⟩
  · intro i k
    have hallowed : allowedIn windowSeconds ({ s with store := store }.decide d) i k = _ := allowedIn_decide i k
    have hbefore : allowedIn windowSeconds { s with store := store } i k = _ := h.allowed i k
    rw [hallowed, hbefore, hcalls]
    by_cases hc : counts windowSeconds i k d = true
    · obtain ⟨rfl, rfl⟩ := (counts_iff hd).mp hc
      rw [ht] at hc ⊢
      have hcount : d.result.allowed = decide (n + 1 ≤ limit) := by
        rw [hresult, resultOf, if_pos hfew]
        rfl
      rw [hc, hcount, hn, Bool.true_and, if_pos rfl]
      by_cases hle : n + 1 ≤ limit
      · rw [if_pos (decide_eq_true hle)]
        omega
      · rw [if_neg (by simpa using hle)]
        omega
    · rw [Bool.eq_false_iff.mpr hc]
      simp

end counters

/-! ### Runs -/

section runs
variable {limit windowSeconds now : ℕ} {keyPrefix : String} {c : Config Shared Pc}

/-- What is known of a running call. -/
def Pc.Known (windowSeconds : ℕ) (keyPrefix : String) : Pc → Prop
  | .connect backend _ => backend.keyPrefix = keyPrefix
  | .invoke backend identifier key time => backend.enabled = true ∧ TtlAccepted time windowSeconds ∧
      key = counterKey keyPrefix identifier (windowOf windowSeconds time)
  | .tick => True

/-- Every step keeps the counters right. -/
theorem counted_step (hw : 1 ≤ windowSeconds) {i : ℕ} {inp : Input} {p : Pc} {s' : Shared} {q : Option Pc}
    (h : Counted limit windowSeconds keyPrefix c.shared) (hp : c.threads[i]? = some p)
    (hknown : p.Known windowSeconds keyPrefix) (hok : Assumed keyPrefix windowSeconds c (.run i inp))
    (hs : step limit windowSeconds inp c.shared p = some (s', q)) :
    Counted limit windowSeconds keyPrefix s' ∧ ∀ r ∈ q, r.Known windowSeconds keyPrefix := by
  simp only [Assumed, hp] at hok
  cases p with
  | connect backend identifier =>
      simp only [step] at hs
      split_ifs at hs with henabled hinp
      · rw [rateLimitKey_eq hknown hw (hok henabled).2] at hs
        cases hs
        refine ⟨h, fun r hr => ?_⟩
        cases hr
        exact ⟨henabled, (hok henabled).2, rfl⟩
      · exact absurd (hok henabled).1 hinp
      · cases hs
        exact ⟨h.decide_disabled (Bool.eq_false_iff.mpr henabled) le_rfl, fun r hr => nomatch hr⟩
  | invoke backend identifier key time =>
      obtain ⟨henabled, httl, rfl⟩ := hknown
      obtain ⟨hinp, rfl, hfew⟩ := hok
      obtain ⟨store, deadline, hscript, hdeadline, hlookup⟩ := h.script hw httl identifier
      simp only [step, hinp, if_true, hscript] at hs
      cases hs
      exact ⟨h.decide_counted henabled rfl rfl rfl hfew hdeadline hlookup, fun r hr => nomatch hr⟩
  | tick =>
      cases hs
      exact ⟨h.tick inp.elapsed, fun r hr => nomatch hr⟩

theorem counted_of_reaches (hw : 1 ≤ windowSeconds)
    (h : Reaches (system limit windowSeconds) (Assumed keyPrefix windowSeconds) (initial now) c) :
    Counted limit windowSeconds keyPrefix c.shared := by
  have hall : Counted limit windowSeconds keyPrefix c.shared ∧
      Holds (fun _ p => p.Known windowSeconds keyPrefix) c := by
    refine h.invariant (I := fun c => Counted limit windowSeconds keyPrefix c.shared ∧
      Holds (fun _ p => p.Known windowSeconds keyPrefix) c) ⟨counted_initial now, fun p hp => nomatch hp⟩ ?_
    rintro c e c' - ⟨hcounted, hknown⟩ hok hn
    refine ⟨?_, hknown.next hn ?_ ?_⟩
    · obtain ⟨op, rfl, rfl⟩ | ⟨i, inp, p, s, q, l₁, l₂, rfl, hp, hs, hl, rfl⟩ := System.next_cases hn
      · exact hcounted
      · exact (counted_step hw hcounted hp (hknown p (List.mem_of_getElem? hp)) hok hs).1
    · rintro op rfl
      cases op with
      | check backend identifier => exact hok
      | tick => trivial
    · rintro i inp p s q l₁ l₂ rfl hp - hs
      exact ⟨(counted_step hw hcounted hp (hknown p (List.mem_of_getElem? hp)) hok hs).2, fun _ _ hr => hr⟩
  exact hall.1

theorem countP_or_le {α : Type} (f g : α → Bool) (l : List α) :
    l.countP (fun x => f x || g x) ≤ l.countP f + l.countP g := by
  induction l with
  | nil => exact le_rfl
  | cons x l ih =>
      simp only [List.countP_cons]
      cases f x <;> cases g x <;> simp <;> omega

/-- The calls from a time on, for the length of a window, fall in two windows. -/
theorem allowedFrom_le (hw : 1 ≤ windowSeconds) (s : Shared) (identifier : String) (a : ℕ) :
    allowedFrom windowSeconds s identifier a ≤ allowedIn windowSeconds s identifier (windowOf windowSeconds a) +
      allowedIn windowSeconds s identifier (windowOf windowSeconds a + 1) := by
  unfold allowedFrom allowedIn
  refine (List.countP_mono_left ?_).trans (countP_or_le _ _ _)
  rintro d - hd
  simp only [Bool.and_eq_true, decide_eq_true_eq] at hd
  obtain ⟨⟨henabled, hallowed⟩, hi, hlo, hhi⟩ := hd
  have hle : windowOf windowSeconds a ≤ windowOf windowSeconds d.time := Nat.div_le_div_right hlo
  have hlt : windowOf windowSeconds d.time ≤ windowOf windowSeconds a + 1 := by
    have hdiv := Nat.div_le_div_right (c := windowSeconds * 1000) hhi
    rwa [Nat.add_div_right a (by omega)] at hdiv
  simp only [counts, henabled, hallowed, hi, Bool.true_and, Bool.and_true, Bool.or_eq_true, decide_eq_true_eq,
    true_and]
  omega

/-- **In every window exactly the first `limit` calls for an identifier are allowed, whatever the calls
for other identifiers are, and at most twice the limit in any time of the length of a window.** -/
theorem exact_per_window (hw : 1 ≤ windowSeconds)
    (h : Reaches (system limit windowSeconds) (Assumed keyPrefix windowSeconds) (initial now) c)
    (identifier : String) :
    (∀ k, allowedIn windowSeconds c.shared identifier k = min limit (callsIn windowSeconds c.shared identifier k)) ∧
      ∀ a, allowedFrom windowSeconds c.shared identifier a ≤ 2 * limit := by
  have hcounted := counted_of_reaches hw h
  refine ⟨hcounted.allowed identifier, fun a => ?_⟩
  have hfrom := allowedFrom_le hw c.shared identifier a
  rw [hcounted.allowed, hcounted.allowed] at hfrom
  omega

/-- With a limit of one, two instances that compute the key of the identifier `a:1` at the same time
allow one call. -/
theorem one_of_two_allowed :
    ∃ c, Reaches (system 1 60) (Assumed "ara:ratelimit" 60) (initial 1000) c ∧
      callsIn 60 c.shared "a:1" 0 = 2 ∧ allowedIn 60 c.shared "a:1" 0 = 1 ∧
      allowedFrom 60 c.shared "a:1" 500 ≤ 2 := by
  have hplay : ((system 1 60).play (Assumed "ara:ratelimit" 60) (initial 1000)
      [.call (.check ⟨"ara:ratelimit", true⟩ "a:1"), .call (.check ⟨"ara:ratelimit", true⟩ "a:1"),
        .run 0 ⟨true, 0⟩, .run 1 ⟨true, 0⟩, .run 1 ⟨true, 0⟩, .run 0 ⟨true, 0⟩]).any
      (fun c => decide (callsIn 60 c.shared "a:1" 0 = 2)) = true := by decide +kernel
  obtain ⟨c, hreaches, hcalls⟩ := exists_reaches_of_play hplay
  rw [decide_eq_true_eq] at hcalls
  obtain ⟨hallowed, hfrom⟩ := exact_per_window (by decide) hreaches "a:1"
  exact ⟨c, hreaches, hcalls, by rw [hallowed, hcalls]; rfl, hfrom 500⟩

end runs

end DistributedLimit

end AraNotification
