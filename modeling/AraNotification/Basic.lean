import Mathlib.Tactic

/-! # Identifiers, clock readings and durations

Identifiers are only compared, so a `Uuid` is a natural number.  A clock reading
(`DateTime<Utc>`) is the number of nanoseconds since the epoch and may be any integer.
The conversions follow the `chrono` crate and Rust's integer casts where a result can
differ from exact arithmetic: `asI64` wraps, `seconds` panics outside its range, and
`numSeconds` truncates towards zero. -/

namespace AraNotification

/-- Identifier of a connection, a notification or a stored message. -/
abbrev Uuid := ℕ

/-- A clock reading in nanoseconds since the epoch. -/
abbrev DateTime := ℤ

/-- A signed length of time in nanoseconds. -/
abbrev Duration := ℤ

/-- Nanoseconds in a second. -/
def nanosPerSecond : ℤ := 1000000000

/-- `n as i64` for an unsigned 64-bit `n`: two's complement. -/
def asI64 (n : ℕ) : ℤ := if n % 2 ^ 64 < 2 ^ 63 then (n % 2 ^ 64 : ℕ) else (n % 2 ^ 64 : ℕ) - 2 ^ 64

theorem asI64_le (n : ℕ) : asI64 n ≤ n := by
  have hmod : n % 2 ^ 64 ≤ n := Nat.mod_le n _
  unfold asI64
  split_ifs <;> omega

theorem asI64_of_lt {n : ℕ} (h : n < 2 ^ 63) : asI64 n = n := by
  have hmod : n % 2 ^ 64 = n := Nat.mod_eq_of_lt (by omega)
  rw [asI64, hmod, if_pos h]

/-- `chrono::Duration::seconds`; `none` is the panic outside `±(i64::MAX / 1000)`. -/
def Duration.seconds (s : ℤ) : Option Duration :=
  if -9223372036854775 ≤ s ∧ s ≤ 9223372036854775 then some (s * nanosPerSecond) else none

/-- `Duration::num_seconds`: whole seconds, truncated towards zero. -/
def Duration.numSeconds (d : Duration) : ℤ := Int.tdiv d nanosPerSecond

theorem Duration.numSeconds_mono {d d' : Duration} (h : d ≤ d') : numSeconds d ≤ numSeconds d' :=
  Int.tdiv_le_tdiv (show 0 < nanosPerSecond by decide) h

/-- For a length of time that is not negative, whole seconds can be compared exactly. -/
theorem Duration.le_numSeconds_iff {d : Duration} (hd : 0 ≤ d) (s : ℤ) :
    s ≤ numSeconds d ↔ s * nanosPerSecond ≤ d := by
  rw [numSeconds, Int.tdiv_eq_ediv_of_nonneg hd]
  exact Int.le_ediv_iff_mul_le (show 0 < nanosPerSecond by decide)

/-- `DateTime::timestamp`: whole Unix seconds, rounded down. -/
def DateTime.timestamp (t : DateTime) : ℤ := t / nanosPerSecond

/-- `DateTime::from_timestamp(s, 0)`. -/
def DateTime.fromTimestamp (s : ℤ) : DateTime := s * nanosPerSecond

end AraNotification
