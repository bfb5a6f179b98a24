import SoloDock.Poll.Due
import Mathlib.Tactic.IntervalCases

/-!
# The machine integers of the jitter

`interval_with_jitter` mixes `u32`, `i32` and `i64`. No operation leaves its range
(`checkedJitter_eq`), so the model over unbounded numbers is what it computes.
-/

namespace SoloDock.Poll

open Lib Registry
open Webhook (Crypto textBytes PollState)
open Option (bind_eq_some_iff bind_some getD_some)

/-- A machine integer, where the value is one. -/
def inRange (low high n : Int) : Option Int := if low ≤ n ∧ n ≤ high then some n else none

def u32 : Int → Option Int := inRange 0 4294967295

def i32 : Int → Option Int := inRange (-2147483648) 2147483647

def i64 : Int → Option Int := inRange (-9223372036854775808) 9223372036854775807

/-- The remainder of a division, which panics at zero. -/
def rem (a b : Int) : Option Int := if b = 0 then none else some (a.tmod b)

/-- The offset of `interval_with_jitter`; none where it panics, in an index, a division or an
overflow. -/
def checkedOffset (mac : Bytes) (span : Nat) : Option Int :=
  if span = 0 then some 0
  else do
    let byte ← mac[0]?
    let doubled ← u32 (span * 2)
    let modulus ← u32 (doubled + 1)
    let remainder ← rem byte.toNat ((i32 modulus).getD 1)
    i32 (remainder - (i32 span).getD 0)

/-- `interval_with_jitter` in its machine integers, after the MAC. -/
def checkedJitter (mac : Bytes) (interval : UInt32) : Option Nat := do
  let offset ← checkedOffset mac (min (interval.toNat / 10) 30)
  let seconds ← i64 (interval.toNat + offset)
  return ((u32 (max seconds 1)).getD interval.toNat).toNat

theorem inRange_of_le {low high n : Int} (h : low ≤ n ∧ n ≤ high) : inRange low high n = some n :=
  if_pos h

theorem checkedOffset_eq (byte : UInt8) (rest : Bytes) {span : Nat} (h : span ≤ 30) :
    checkedOffset (byte :: rest) span =
      some (if span = 0 then 0 else (byte.toNat : Int) % (span * 2 + 1) - span) := by
  have hmod := emod_span byte span
  have hdouble : u32 (span * 2) = some (span * 2 : Int) := inRange_of_le (by omega)
  have hmodulus : u32 (span * 2 + 1) = some (span * 2 + 1 : Int) := inRange_of_le (by omega)
  have hsigned : i32 (span * 2 + 1) = some (span * 2 + 1 : Int) := inRange_of_le (by omega)
  have hspan : i32 span = some (span : Int) := inRange_of_le (by omega)
  unfold checkedOffset
  by_cases hzero : span = 0
  · rw [if_pos hzero, if_pos hzero]
  · rw [if_neg hzero, if_neg hzero]
    refine bind_eq_some_iff.mpr ⟨byte, rfl, bind_eq_some_iff.mpr ⟨_, hdouble,
      bind_eq_some_iff.mpr ⟨_, hmodulus, bind_eq_some_iff.mpr
        ⟨(byte.toNat : Int) % (span * 2 + 1), ?_, ?_⟩⟩⟩⟩
    · rw [hsigned, getD_some, rem, if_neg (by omega), Int.tmod_eq_emod_of_nonneg (by omega)]
    · rw [hspan, getD_some]
      exact inRange_of_le (by omega)

/-- The checked arithmetic never overflows and gives the jittered interval. -/
theorem checkedJitter_eq {mac : Bytes} (hmac : mac ≠ []) (interval : UInt32) :
    checkedJitter mac interval = some (jittered (mac.headD 0) interval.toNat) := by
  obtain ⟨byte, rest, rfl⟩ := List.exists_cons_of_ne_nil hmac
  rw [List.headD_cons]
  have hinterval : interval.toNat < 4294967296 := interval.toNat_lt
  have hspan : min (interval.toNat / 10) 30 ≤ 30 := Nat.min_le_right _ _
  have hmod := emod_span byte (min (interval.toNat / 10) 30)
  unfold checkedJitter jittered
  rw [checkedOffset_eq byte rest hspan, Option.bind_eq_bind, bind_some]
  generalize min (interval.toNat / 10) 30 = span at *
  dsimp only
  generalize hoffset : (if span = 0 then 0 else (byte.toNat : Int) % (span * 2 + 1) - span) = offset
  have hsmall : -30 ≤ offset ∧ offset ≤ 30 := by
    rw [← hoffset]
    split <;> omega
  have hsum : i64 (interval.toNat + offset) = some (interval.toNat + offset : Int) :=
    inRange_of_le (by omega)
  rw [hsum, bind_some]
  unfold u32 inRange
  split <;> split <;> first | rfl | omega

/-- At most five failures are counted. -/
theorem registryFailure_le (previous : Option PollState) (error : RegistryError) :
    (registryFailure previous error).2.2 ≤ 5 := by
  unfold registryFailure
  dsimp only
  split
  · exact Nat.min_le_right _ _
  · exact Nat.zero_le 5

/-- The back-off is read off the table. -/
theorem retrySeconds_table {failures : Nat} (h : failures ≤ 5) (hpos : 0 < failures)
    (metadata : PollMetadata) (outcome : PollOutcome) :
    [60, 120, 300, 600, 1800][failures - 1]? = some (retrySeconds metadata outcome failures) := by
  interval_cases failures <;> rfl

/-- The jitter does not panic, and moves the interval by at most its span; the failures that are
counted after any stored number of them index the table. -/
theorem interval_with_jitter_near (crypto : Crypto)
    (hmac : ∀ key message, (crypto.hmacSha256 key message).length = 32) (key : Bytes) (appId : Uuid)
    (generation : String) (interval : UInt32) (ordinal : UInt64) :
    let mac := crypto.hmacSha256 key
      (bigEndian 16 appId ++ textBytes generation ++ bigEndian 8 ordinal.toNat)
    let seconds := intervalWithJitter crypto key appId generation interval.toNat ordinal.toNat
    let span := min (interval.toNat / 10) 30
    checkedJitter mac interval = some seconds ∧ 1 ≤ seconds ∧
      (interval.toNat = 0 → seconds = 1) ∧
      (0 < interval.toNat → interval.toNat ≤ seconds + span ∧ seconds ≤ interval.toNat + span) ∧
      ∀ (previous : Option PollState) (error : RegistryError) (metadata : PollMetadata),
        let (outcome, _, failures) := registryFailure previous error
        0 < failures → [60, 120, 300, 600, 1800][failures - 1]? =
          some (retrySeconds metadata outcome failures) := by
  intro mac seconds span
  obtain ⟨hpos, hzero, hnear⟩ := jittered_near (mac.headD 0) interval.toNat
  refine ⟨?_, hpos, hzero, hnear, fun previous error metadata hpos => ?_⟩
  · exact checkedJitter_eq (List.ne_nil_of_length_eq_add_one (hmac key _)) interval
  · exact retrySeconds_table (registryFailure_le previous error) hpos metadata _

theorem shortest_interval_near :
    let crypto := Crypto.sha2 fun _ => false
    1 ≤ intervalWithJitter crypto [] 1 "g" 60 0 ∧ intervalWithJitter crypto [] 1 "g" 60 0 ≤ 66 :=
  have h := interval_with_jitter_near (.sha2 fun _ => false) Sha256.length_hmacSha256 [] 1 "g" 60 0
  ⟨h.2.1, (h.2.2.2.1 (by decide)).2⟩

end SoloDock.Poll
