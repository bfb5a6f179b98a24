import SoloDock.Lib.Calendar

/-!
# Times in the database

`format_time` of `db/mod.rs` stores every time as RFC 3339 text, and SQLite compares texts.
The history of deployments, the garbage collector and the expiry of sessions and nonces all
read that order as the order of time. It is, except within one second: the formatter drops
the trailing zeros of the fraction, and the `Z` behind a shorter fraction comes after every
digit. `formatTime_lt_iff` says for which pairs of instants the two orders agree.
-/

namespace SoloDock.Db

open Lib

inductive DbError where
  | invalidTimestamp
  deriving DecidableEq, Repr

def formatTime (value : Instant) : Except DbError String :=
  match rfc3339 value with
  | some text => .ok text
  | none => .error .invalidTimestamp

/-- A time that is stored is stored in its RFC 3339 form. -/
theorem formatTime_ok {value : Instant} {text : String} (h : formatTime value = .ok text) :
    rfc3339 value = some text := by
  unfold formatTime at h
  cases htext : rfc3339 value with
  | none =>
    rw [htext] at h
    cases h
  | some text' =>
    rw [htext] at h
    cases h
    rfl

/-- Two instants of one second, the digits of one fraction being the first digits of the
other. -/
def Entangled (a b : Instant) : Prop :=
  a ≠ b ∧ a.unixTimestamp = b.unixTimestamp ∧
    (fractionDigits a.nanosecond <+: fractionDigits b.nanosecond ∨
      fractionDigits b.nanosecond <+: fractionDigits a.nanosecond)

instance (a b : Instant) : Decidable (Entangled a b) := inferInstanceAs (Decidable (_ ∧ _))

theorem nanosecond_lt (t : Instant) : t.nanosecond < 10 ^ 9 := by
  have h : ∀ n : Int, (n % 1000000000).toNat < 10 ^ 9 := by
    intro n
    omega
  exact h t

/-- Instants compare by the second, and within one by the nanosecond. -/
theorem instant_lt_iff (a b : Instant) : a < b ↔ a.unixTimestamp < b.unixTimestamp ∨
      a.unixTimestamp = b.unixTimestamp ∧ a.nanosecond < b.nanosecond := by
  have h : ∀ m n : Int, m < n ↔ m / 1000000000 < n / 1000000000 ∨ m / 1000000000 = n / 1000000000 ∧
        (m % 1000000000).toNat < (n % 1000000000).toNat := by
    intro m n
    omega
  exact h a b

theorem instant_eq_iff (a b : Instant) :
    a = b ↔ a.unixTimestamp = b.unixTimestamp ∧ a.nanosecond = b.nanosecond := by
  have h : ∀ m n : Int, m = n ↔ m / 1000000000 = n / 1000000000 ∧
      (m % 1000000000).toNat = (n % 1000000000).toNat := by
    intro m n
    omega
  exact h a b

/-- The texts of two instants compare like the instants exactly if the digits of neither
fraction go on with those of the other in the same second. -/
theorem formatTime_lt_iff {a b : Instant} {s t : String} (ha : formatTime a = .ok s)
    (hb : formatTime b = .ok t) : (a < b ↔ s < t) ↔ ¬Entangled a b := by
  have hm := nanosecond_lt a
  have hn := nanosecond_lt b
  rw [rfc3339_lt_iff (formatTime_ok ha) (formatTime_ok hb), fraction_lt_iff hm hn, Entangled,
    instant_lt_iff, ne_eq, instant_eq_iff a b]
  by_cases hsecond : a.unixTimestamp = b.unixTimestamp
  · rcases Nat.lt_trichotomy a.nanosecond b.nanosecond with hlt | heq | hgt
    · have hlonger := not_prefix_of_lt hm hn hlt
      simp [hsecond, hlt, Nat.lt_asymm hlt, Nat.ne_of_lt hlt, hlonger]
    · simp [hsecond, heq]
    · have hlonger := not_prefix_of_lt hn hm hgt
      simp [hsecond, hgt, Nat.lt_asymm hgt, Nat.ne_of_gt hgt, hlonger]
  · simp [hsecond]

theorem half_second_before_next :
    (1756512000500000000 : Instant) < 1756512001000000000 ↔
      "2025-08-30T00:00:00.5Z" < "2025-08-30T00:00:01Z" :=
  (formatTime_lt_iff (a := 1756512000500000000) (b := 1756512001000000000) rfl rfl).mpr
    (by decide)

theorem zeros_dropped :
    formatTime 1756512000000000000 = .ok "2025-08-30T00:00:00Z" ∧
      formatTime 1756512000500000000 = .ok "2025-08-30T00:00:00.5Z" ∧
      (1756512000000000000 : Instant) < 1756512000500000000 ∧
      ¬"2025-08-30T00:00:00Z" < "2025-08-30T00:00:00.5Z" := by
  refine ⟨rfl, rfl, by decide, by decide⟩

end SoloDock.Db
