import AraNotification.BucketBound
import AraNotification.BucketLimits
import AraNotification.Lib.Interleaving

/-! # Concurrent calls of one bucket

`try_consume_n` reads the clock, loads the time of the last refill and then tries to exchange
the tokens until it succeeds or finds too few; only after that it stores the time of the refill.
Every load, exchange and store is a step here, as is the reading of the clock.  The memory is
sequentially consistent, an exchange may fail for no reason, the clock does not go back, and any
number of calls run at the same time.

The tokens for the elapsed time are computed once, before the loop.  Two calls that load the same
time of the last refill both add them (`credited_twice`), and a call that stores its time late sets
the time of the refill back.  When every call that takes tokens has a clock reading and a time of
the last refill that are not older than the clock readings of those before it (`Fresh`), the bound
of a bucket that is used by one call after the other holds (`taken_le_of_fresh`). -/

namespace AraNotification

namespace BucketRace

open Interleaving Pacing BucketBound

/-! ### The program -/

/-- The bucket and the clock; `log` lists the calls that have taken tokens in the order of their
exchanges. -/
structure Shared where
  bucket : TokenBucket
  clock : ℤ
  log : List Call

/-- The time since the step before, and whether a weak exchange fails for no reason. -/
structure Input where
  elapsed : ℕ
  spurious : Bool

/-- Program counters, named after the access that comes next. -/
inductive Pc where
  | readClock (n : ℕ)
  | loadRefill (n : ℕ) (now : ℤ)
  | loadTokens (n : ℕ) (now last : ℤ)
  | exchange (n : ℕ) (now last : ℤ) (current : ℕ)
  | storeRefill (now : ℤ)

/-- Time passes. -/
def Shared.pass (s : Shared) (elapsed : ℕ) : Shared := { s with clock := s.clock + elapsed }

/-- The bucket as a call sees it that has loaded `current` and `last`. -/
def Shared.seen (s : Shared) (last : ℤ) (current : ℕ) : TokenBucket :=
  { s.bucket with tokens := current, lastRefill := last }

/-- One access at the present time. -/
def access (spurious : Bool) (s : Shared) : Pc → Shared × Option Pc
  | .readClock n => (s, some (.loadRefill n s.clock))
  | .loadRefill n now => (s, some (.loadTokens n now s.bucket.lastRefill))
  | .loadTokens n now last =>
      (s, if (s.seen last s.bucket.tokens).refilled now < n then none
        else some (.exchange n now last s.bucket.tokens))
  | .exchange n now last current =>
      if s.bucket.tokens = current ∧ spurious = false then
        ({ s with
          bucket := { s.bucket with tokens := (s.seen last current).refilled now - n }
          log := s.log ++ [⟨now, n⟩] }, some (.storeRefill now))
      else (s, some (.loadTokens n now last))
  | .storeRefill now => ({ s with bucket := { s.bucket with lastRefill := now } }, none)

/-- The calls of a bucket as concurrent programs; a call asks for a number of tokens. -/
def system : System Shared ℕ Input Pc where
  start := .readClock
  step inp s p := some (access inp.spurious (s.pass inp.elapsed) p)

/-- A new bucket with no call running. -/
def initial (capacity refillRate : ℕ) (created : ℤ) : Config Shared Pc :=
  ⟨⟨.new capacity refillRate created, created, []⟩, []⟩

/-- No value wraps around. -/
def Unwrapped (c : Config Shared Pc) : Event ℕ Input → Prop
  | .call _ => True
  | .run i _ =>
      match c.threads[i]? with
      | some (.loadTokens _ now last) => (c.shared.seen last c.shared.bucket.tokens).NoWrap now
      | _ => True

/-- A call that takes tokens has a clock reading and a time of the last refill that are not older
than the clock readings of the calls that have taken tokens before. -/
def Fresh (c : Config Shared Pc) : Event ℕ Input → Prop
  | .call _ => True
  | .run i inp =>
      match c.threads[i]? with
      | some (.exchange _ now last current) =>
          c.shared.bucket.tokens = current ∧ inp.spurious = false →
            ∀ call ∈ c.shared.log, call.now ≤ now ∧ call.now ≤ last
      | _ => True

instance (c : Config Shared Pc) (e : Event ℕ Input) : Decidable (Unwrapped c e) := by
  unfold Unwrapped
  split
  · infer_instance
  · split <;> infer_instance

instance (c : Config Shared Pc) (e : Event ℕ Input) : Decidable (Fresh c e) := by
  unfold Fresh
  split
  · infer_instance
  · split <;> infer_instance

/-! ### What an access does -/

section accesses
variable {spurious : Bool} {s : Shared} {p : Pc} {capacity refillRate : ℕ} {created : ℤ}

/-- The bucket was made with these values, and no time is before it was made. -/
structure Made (capacity refillRate : ℕ) (created : ℤ) (s : Shared) : Prop where
  capacity_eq : s.bucket.capacity = capacity
  refillRate_eq : s.bucket.refillRate = refillRate
  clock : created ≤ s.clock
  lastRefill : created ≤ s.bucket.lastRefill

/-- What a call has read is not older than the bucket, and an exchange takes what there is. -/
structure Sound (capacity refillRate : ℕ) (created : ℤ) (p : Pc) : Prop where
  now : ∀ n now, p = .loadRefill n now → created ≤ now
  last : ∀ n now last, p = .loadTokens n now last → created ≤ now ∧ created ≤ last
  exchange : ∀ n now last current, p = .exchange n now last current →
    created ≤ now ∧ created ≤ last ∧ n ≤ (⟨current, last, capacity, refillRate⟩ : TokenBucket).refilled now
  store : ∀ now, p = .storeRefill now → created ≤ now

theorem seen_eq (h : Made capacity refillRate created s) (last : ℤ) (current : ℕ) :
    s.seen last current = ⟨current, last, capacity, refillRate⟩ := by
  rw [Shared.seen, h.capacity_eq, h.refillRate_eq]

theorem Made.pass (h : Made capacity refillRate created s) (elapsed : ℕ) :
    Made capacity refillRate created (s.pass elapsed) where
  capacity_eq := h.capacity_eq
  refillRate_eq := h.refillRate_eq
  clock := h.clock.trans (Int.le_add_of_nonneg_right (Int.natCast_nonneg elapsed))
  lastRefill := h.lastRefill

theorem Made.access (h : Made capacity refillRate created s) (hp : Sound capacity refillRate created p) :
    Made capacity refillRate created (access spurious s p).1 := by
  cases p with
  | exchange n now last current =>
      simp only [BucketRace.access]
      split_ifs
      · exact ⟨h.capacity_eq, h.refillRate_eq, h.clock, h.lastRefill⟩
      · exact h
  | storeRefill now => exact ⟨h.capacity_eq, h.refillRate_eq, h.clock, hp.store now rfl⟩
  | readClock | loadRefill | loadTokens => exact h

theorem Sound.next (h : Made capacity refillRate created s) (hp : Sound capacity refillRate created p) {q : Pc}
    (hq : q ∈ (BucketRace.access spurious s p).2) : Sound capacity refillRate created q := by
  cases p with
  | readClock n =>
      cases hq
      exact ⟨fun _ _ he => by cases he; exact h.clock, nofun, nofun, nofun⟩
  | loadRefill n now =>
      cases hq
      exact ⟨nofun, fun _ _ _ he => by cases he; exact ⟨hp.now n now rfl, h.lastRefill⟩, nofun, nofun⟩
  | loadTokens n now last =>
      simp only [BucketRace.access] at hq
      split_ifs at hq with hfew
      · cases hq
      · cases hq
        obtain ⟨hnow, hlast⟩ := hp.last n now last rfl
        rw [seen_eq h] at hfew
        refine ⟨nofun, nofun, fun _ _ _ _ he => ?_, nofun⟩
        cases he
        exact ⟨hnow, hlast, not_lt.mp hfew⟩
  | exchange n now last current =>
      obtain ⟨hnow, hlast, -⟩ := hp.exchange n now last current rfl
      simp only [BucketRace.access] at hq
      split_ifs at hq
      · cases hq
        exact ⟨nofun, nofun, nofun, fun _ he => by cases he; exact hnow⟩
      · cases hq
        exact ⟨nofun, fun _ _ _ he => by cases he; exact ⟨hnow, hlast⟩, nofun, nofun⟩
  | storeRefill now => cases hq

/-- The calls that have taken tokens are paced by the rate, from the clock reading of the last of
them on. -/
def PacedLog (capacity refillRate : ℕ) (created : ℤ) (s : Shared) : Prop :=
  ∃ last : ℤ, (last = created ∨ ∃ call ∈ s.log, last = call.now) ∧
    Paced (capacity : ℚ) (refillRate / 1000) s.bucket.tokens last (s.log.map Call.grant)

/-- An exchange with fresh values keeps the pace. -/
theorem PacedLog.access (h : Made capacity refillRate created s) (hp : Sound capacity refillRate created p)
    (hfresh : ∀ n now last current, p = .exchange n now last current →
      s.bucket.tokens = current ∧ spurious = false → ∀ call ∈ s.log, call.now ≤ now ∧ call.now ≤ last)
    (hpaced : PacedLog capacity refillRate created s) :
    PacedLog capacity refillRate created (BucketRace.access spurious s p).1 := by
  cases p with
  | exchange n now last current =>
      simp only [BucketRace.access]
      split_ifs with hsame
      · obtain ⟨latest, hlatest, hpaced⟩ := hpaced
        obtain ⟨hnow, hlast, hn⟩ := hp.exchange n now last current rfl
        have hbefore : latest ≤ now ∧ latest ≤ last := by
          rcases hlatest with rfl | ⟨call, hcall, rfl⟩
          · exact ⟨hnow, hlast⟩
          · exact hfresh n now last current rfl hsame call hcall
        refine ⟨now, .inr ⟨⟨now, n⟩, by simp, rfl⟩, ?_⟩
        rw [seen_eq h, List.map_append]
        obtain ⟨hcap, hin⟩ := TokenBucket.refilled_le ⟨current, last, capacity, refillRate⟩ now
        rw [hsame.1] at hpaced
        have hsum : (⟨current, last, capacity, refillRate⟩ : TokenBucket).refilled now - n + n =
            (⟨current, last, capacity, refillRate⟩ : TokenBucket).refilled now := Nat.sub_add_cancel hn
        rw [← hsum] at hcap hin
        refine hpaced.grant (by exact_mod_cast hbefore.1) (Nat.cast_nonneg _) (by exact_mod_cast hcap) ?_
          (Nat.cast_nonneg _)
        exact inflow_le hbefore.2 hbefore.1 hin
      · exact hpaced
  | readClock | loadRefill | loadTokens | storeRefill => exact hpaced

end accesses

/-! ### Runs -/

section runs
variable {capacity refillRate : ℕ} {created s t : ℤ} {c c' : Config Shared Pc} {e : Event ℕ Input}

/-- An event makes no access, or the next one of a running call. -/
theorem shared_next (h : system.next c e = some c') : c'.shared = c.shared ∨
    ∃ i inp p, e = .run i inp ∧ c.threads[i]? = some p ∧
      c'.shared = (access inp.spurious (c.shared.pass inp.elapsed) p).1 := by
  obtain ⟨op, rfl, rfl⟩ | ⟨i, inp, p, s, q, l₁, l₂, rfl, hp, hs, -, rfl⟩ := System.next_cases h
  · exact .inl rfl
  · exact .inr ⟨i, inp, p, rfl, hp, (congrArg Prod.fst (Option.some.inj hs)).symm⟩

theorem paced_of_reaches (h : Reaches system Fresh (initial capacity refillRate created) c) :
    Made capacity refillRate created c.shared ∧ PacedLog capacity refillRate created c.shared ∧
      Holds (fun _ => Sound capacity refillRate created) c := by
  refine h.invariant (I := fun c => Made capacity refillRate created c.shared ∧
    PacedLog capacity refillRate created c.shared ∧ Holds (fun _ => Sound capacity refillRate created) c) ?_ ?_
  · refine ⟨⟨rfl, rfl, le_rfl, le_rfl⟩, ⟨created, .inl rfl, .start ?_ le_rfl ?_⟩, ?_⟩
    · positivity
    · positivity
    · exact fun p hp => absurd hp List.not_mem_nil
  · rintro c e c' - ⟨hmade, hpaced, hsound⟩ hok hn
    refine ⟨?_, ?_, hsound.next hn ?_ ?_⟩
    · rcases shared_next hn with hs | ⟨i, inp, p, -, hp, hs⟩
      · rwa [hs]
      · rw [hs]
        exact (hmade.pass _).access (hsound p (List.mem_of_getElem? hp))
    · rcases shared_next hn with hs | ⟨i, inp, p, rfl, hp, hs⟩
      · rwa [hs]
      · rw [hs]
        refine PacedLog.access (hmade.pass _) (hsound p (List.mem_of_getElem? hp)) ?_ hpaced
        rintro n now last current rfl
        rw [Fresh, hp] at hok
        exact hok
    · rintro n -
      exact ⟨nofun, nofun, nofun, nofun⟩
    · intro i inp p s q l₁ l₂ _ hp _ hs
      obtain rfl : (access inp.spurious (c.shared.pass inp.elapsed) p).2 = q :=
        congrArg Prod.snd (Option.some.inj hs)
      exact ⟨fun r hr => Sound.next (hmade.pass _) (hsound p (List.mem_of_getElem? hp)) hr, fun r _ hr => hr⟩

/-- **When the values with which tokens are taken are fresh, the calls whose clock readings are in an
interval take at most the capacity and what comes in during the interval.** -/
theorem taken_le_of_fresh (h : Reaches system Fresh (initial capacity refillRate created) c) (hst : s ≤ t) :
    (taken s t c.shared.log : ℚ) ≤ capacity + refillRate * (t - s) / 1000 := by
  obtain ⟨-, ⟨last, -, hpaced⟩, -⟩ := paced_of_reaches h
  exact taken_le_of_paced hpaced hst

end runs

/-! ### The same time credited twice -/

/-- The `i`-th running call goes on, with no time passing. -/
def go (i : ℕ) : Event ℕ Input := .run i ⟨0, false⟩

/-- A call takes the only token; a second later another one takes the token that has come in. -/
def oneAfterTheOther : List (Event ℕ Input) :=
  [.call 1, go 0, go 0, go 0, go 0, go 0, .call 1, .run 0 ⟨1000, false⟩, go 0, go 0, go 0, go 0]

theorem taken_le_of_fresh_second :
    ∃ c, Reaches system Fresh (initial 1 1 0) c ∧ taken 0 1000 c.shared.log = 2 ∧
      (taken 0 1000 c.shared.log : ℚ) ≤ (1 : ℕ) + (1 : ℕ) * ((1000 : ℤ) - (0 : ℤ)) / 1000 := by
  have hseen : (system.play Fresh (initial 1 1 0) oneAfterTheOther).any
      (fun c => decide (taken 0 1000 c.shared.log = 2)) = true := by
    decide
  obtain ⟨c, hr, hc⟩ := exists_reaches_of_play hseen
  exact ⟨c, hr, of_decide_eq_true hc, taken_le_of_fresh hr (by decide)⟩

/-- Two calls at the same time a second later: both add the token that has come in. -/
theorem credited_twice :
    ¬ ∀ (capacity refillRate : ℕ) (created s t : ℤ) (c : Config Shared Pc),
        Reaches system Unwrapped (initial capacity refillRate created) c → s ≤ t →
        (taken s t c.shared.log : ℚ) ≤ capacity + refillRate * (t - s) / 1000 := by
  intro hall
  have hseen : (system.play Unwrapped (initial 1 1 0)
      [.call 1, go 0, go 0, go 0, go 0, go 0, .call 1, .call 1, .run 0 ⟨1000, false⟩, go 1, go 0, go 1,
        go 0, go 0, go 1, go 1, go 0, go 0]).any
        (fun c => decide (taken 1000 1000 c.shared.log = 2)) = true := by
    decide
  obtain ⟨c, hr, hc⟩ := exists_reaches_of_play hseen
  have hbound := hall 1 1 0 1000 1000 c hr le_rfl
  rw [of_decide_eq_true hc] at hbound
  norm_num at hbound

end BucketRace

end AraNotification
