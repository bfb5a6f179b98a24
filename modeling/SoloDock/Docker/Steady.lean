import SoloDock.Docker.Health

/-!
# What the health gate has seen

A container passes the gate at the end of a stretch of observations: all of the expected
container, all meeting the policy, with the same restart count and start time, over the time
the policy asks for. The loop of `verify` keeps no observations, only since when the policy
has been met and what must not change; `Track` says of these what they stand for, and every
round keeps it (`Track.round`).

A container that was created and not started when it was first seen has no start time yet,
and may get one once. The gate takes that for the same run, also when the container was
already seen running: `first_start_within_window` is such a case.
-/

namespace SoloDock.Docker

open Lib Registry

/-! ## The observations -/

/-- Observation `i` shows the container `c`. -/
def Shows (polls : Nat → Poll) (i : Nat) (c : ContainerRecord) : Prop :=
  (polls i).inspection = .answered (some c)

/-- When round `i` starts, and observation `i` is there. The first round follows the first
observation at once, the others after a sleep. -/
def startsAt (polls : Nat → Poll) : Nat → Nat
  | 0 => 0
  | 1 => (polls 0).took
  | i + 2 => startsAt polls (i + 1) + (polls (i + 1)).took + second
      + (polls (i + 1)).overslept.getD 0

def observedAt (polls : Nat → Poll) (i : Nat) : Nat := startsAt polls i + (polls i).took

variable {x : Expected} {policy : HealthPolicy} {deadline : Nat} {polls : Nat → Poll}
  {i elapsed : Nat} {c first : ContainerRecord} {b : Baseline} {since : Option Nat}

theorem startsAt_succ {overslept : Nat} (hi : 1 ≤ i) (h : (polls i).overslept = some overslept) :
    startsAt polls (i + 1) = observedAt polls i + second + overslept := by
  obtain ⟨j, rfl⟩ : ∃ j, i = j + 1 := ⟨i - 1, by omega⟩
  rw [startsAt, h]
  rfl

/-! ## The stretch of observations -/

/-- The observations from `first` up to `last` are of the expected container and meet the
policy, their restart count is `restarts`, and their start time `started`, before observation
`change` absent. -/
def Stretch (x : Expected) (policy : HealthPolicy) (polls : Nat → Poll) (first change last : Nat)
    (started : Option String) (restarts : Option Int) : Prop :=
  ∀ i, first ≤ i → i ≤ last → ∃ c, Shows polls i c ∧ x.Is c ∧
    policyReady c.runtime policy = .ok true ∧ c.runtime.restartCount = restarts ∧
    c.runtime.startedAt = if i < change then none else started

/-- The container was first seen created and not yet started. -/
def Unstarted (c : ContainerRecord) : Prop :=
  c.status = .created ∧ c.runtime.startedAt = none ∧ c.runtime.restartCount = some 0

/-- What the loop knows before round `i`: when it started, what the baseline stands for, and
the stretch that `since` is the start of. -/
structure Track (x : Expected) (policy : HealthPolicy) (polls : Nat → Poll)
    (first : ContainerRecord) (i : Nat) (b : Baseline) (since : Option Nat) (elapsed : Nat) :
    Prop where
  time : elapsed = startsAt polls i
  awaiting : b.awaitingFirstStart = true → Unstarted first ∧ b.started = none
  stretch : ∀ s, since = some s → ∃ k change, 1 ≤ k ∧ k < i ∧ s = observedAt polls k ∧
    k ≤ change ∧ (k < change → Unstarted first) ∧
    Stretch x policy polls k change (i - 1) b.started b.restarts

theorem track_start (first : ContainerRecord) :
    Track x policy polls first 1 (.of first) none (polls 0).took := by
  refine ⟨rfl, fun hawaiting => ?_, nofun⟩
  unfold Baseline.of at hawaiting ⊢
  simp only [Bool.and_eq_true, decide_eq_true_eq, Option.isNone_iff_eq_none] at hawaiting
  exact ⟨⟨hawaiting.1.1, hawaiting.1.2, hawaiting.2⟩, hawaiting.1.2⟩

/-- What an observation does to the baseline: nothing, or it brings the first start. -/
theorem see_cases (b : Baseline) (c : ContainerRecord) :
    b.see c = b ∨ b.awaitingFirstStart = true ∧ (b.see c).awaitingFirstStart = false ∧
      (b.see c).restarts = b.restarts := by
  unfold Baseline.see
  split
  next h =>
    simp only [Bool.and_eq_true] at h
    exact .inr ⟨h.1.1.1, rfl, rfl⟩
  · exact .inl rfl

theorem holds_iff :
    b.holds c = true ↔ c.runtime.startedAt = b.started ∧ c.runtime.restartCount = b.restarts := by
  simp [Baseline.holds]

theorem Track.extend (h : Track x policy polls first i b since elapsed) (hi : 1 ≤ i)
    (hshows : Shows polls i c) (hexpected : x.Is c) (hholds : (b.see c).holds c = true)
    (hready : policyReady c.runtime policy = .ok true) :
    ∃ k change, 1 ≤ k ∧ k ≤ i ∧ since.getD (observedAt polls i) = observedAt polls k ∧
      k ≤ change ∧ (k < change → Unstarted first) ∧
      Stretch x policy polls k change i (b.see c).started (b.see c).restarts := by
  obtain ⟨hstarted, hrestarts⟩ := holds_iff.mp hholds
  cases hsince : since with
  | none =>
    refine ⟨i, i, hi, Nat.le_refl i, rfl, Nat.le_refl i, fun hlt => absurd hlt (Nat.lt_irrefl i),
      fun j hj hj' => ?_⟩
    obtain rfl : i = j := Nat.le_antisymm hj hj'
    refine ⟨c, hshows, hexpected, hready, hrestarts, ?_⟩
    rw [if_neg (Nat.lt_irrefl i)]
    exact hstarted
  | some s =>
    obtain ⟨k, change, hk, hki, hs, hchange, hunstarted, hstretch⟩ := h.stretch s hsince
    rcases see_cases b c with hsame | ⟨hawaiting, -, hsees⟩
    · -- the baseline stays
      rw [hsame] at hstarted hrestarts ⊢
      refine ⟨k, min change i, hk, Nat.le_of_lt hki, hs, by omega,
        fun hlt => hunstarted (by omega), fun j hj hj' => ?_⟩
      by_cases hlast : j = i
      · subst hlast
        refine ⟨c, hshows, hexpected, hready, hrestarts, ?_⟩
        rw [if_neg (by omega)]
        exact hstarted
      · obtain ⟨d, hd, hdx, hdready, hdrestarts, hdstarted⟩ := hstretch j hj (by omega)
        refine ⟨d, hd, hdx, hdready, hdrestarts, ?_⟩
        rw [hdstarted]
        have hiff : j < change ↔ j < min change i := by omega
        simp only [hiff]
    · -- the container starts with this observation; until now it had no start time
      obtain ⟨hfirst, hnone⟩ := h.awaiting hawaiting
      refine ⟨k, i, hk, Nat.le_of_lt hki, hs, Nat.le_of_lt hki, fun _ => hfirst, fun j hj hj' => ?_⟩
      by_cases hlast : j = i
      · subst hlast
        refine ⟨c, hshows, hexpected, hready, hrestarts, ?_⟩
        rw [if_neg (Nat.lt_irrefl j)]
        exact hstarted
      · obtain ⟨d, hd, hdx, hdready, hdrestarts, hdstarted⟩ := hstretch j hj (by omega)
        refine ⟨d, hd, hdx, hdready, hdrestarts.trans hsees.symm, ?_⟩
        rw [if_pos (by omega), hdstarted, hnone]
        split <;> rfl

theorem Track.again {overslept : Nat} {ready : Bool}
    (h : Track x policy polls first i b since elapsed)
    (hi : 1 ≤ i) (hshows : Shows polls i c) (hexpected : x.Is c)
    (hholds : (b.see c).holds c = true) (hready : policyReady c.runtime policy = .ok ready)
    (hslept : (polls i).overslept = some overslept) :
    Track x policy polls first (i + 1) (b.see c) (readySince ready since (observedAt polls i))
      (observedAt polls i + second + overslept) := by
  refine ⟨(startsAt_succ hi hslept).symm, fun hawaiting => ?_, fun s hs => ?_⟩
  · rcases see_cases b c with hsame | ⟨-, hnot, -⟩
    · rw [hsame] at hawaiting ⊢
      exact h.awaiting hawaiting
    · rw [hnot] at hawaiting
      cases hawaiting
  · cases ready with
    | false => cases hs
    | true =>
      obtain ⟨k, change, hk, hki, hstart, hchange, hunstarted, hstretch⟩ :=
        h.extend hi hshows hexpected hholds hready
      refine ⟨k, change, hk, Nat.lt_succ_of_le hki, ?_, hchange, hunstarted, hstretch⟩
      rw [← hstart]
      exact (Option.some.inj hs).symm

/-! ## Whole verifications -/

/-- The container `c` passed at the end of a stretch that lasted as long as the policy asks
for. The start time may be absent at the beginning of the stretch if the container was first
seen created and not started. -/
def Steady (x : Expected) (policy : HealthPolicy) (polls : Nat → Poll) (c : ContainerRecord) :
    Prop :=
  ∃ first k change last, Shows polls 0 first ∧ 1 ≤ k ∧ k ≤ last ∧ k ≤ change ∧
    (k < change → Unstarted first) ∧ Shows polls last c ∧
    Stretch x policy polls k change last c.runtime.startedAt c.runtime.restartCount ∧
    stableRequired policy * second ≤ observedAt polls last - observedAt polls k

theorem verifyLoop_steady {fuel : Nat} (hfirst : Shows polls 0 first)
    (h : Track x policy polls first i b since elapsed) (hi : 1 ≤ i)
    (hloop : verifyLoop x policy deadline polls fuel i b since elapsed = .ok c) :
    Steady x policy polls c := by
  induction fuel generalizing i b since elapsed with
  | zero => cases hloop
  | succ fuel ih =>
    unfold verifyLoop at hloop
    cases hround : round x policy deadline (polls i) b since elapsed with
    | error e =>
      rw [hround] at hloop
      cases hloop
    | ok r =>
      rw [hround] at hloop
      obtain ⟨seen, ready, hshows, hexpected, hholds, hready, hcases⟩ := round_cases hround
      have hnow : elapsed + (polls i).took = observedAt polls i := by
        rw [h.time]
        rfl
      rw [hnow] at hcases
      rcases hcases with ⟨rfl, s, hs, hstable⟩ | ⟨late, hslept, -, rfl⟩
      · cases hloop
        cases ready with
        | false => cases hs
        | true =>
          obtain ⟨k, change, hk, hki, hstart, hchange, hunstarted, hstretch⟩ :=
            h.extend hi hshows hexpected hholds hready
          obtain ⟨hstarted, hrestarts⟩ := holds_iff.mp hholds
          have hsk : s = observedAt polls k := by
            rw [← hstart]
            exact (Option.some.inj hs).symm
          refine ⟨first, k, change, i, hfirst, hk, hki, hchange, hunstarted, hshows, ?_, ?_⟩
          · rw [hstarted, hrestarts]
            exact hstretch
          · rw [← hsk]
            exact Nat.le_trans (Nat.mul_le_mul_right _ hstable) (Nat.div_mul_le_self _ _)
      · exact ih (h.again hi hshows hexpected hholds hready hslept) (Nat.succ_pos i) hloop

/-- A container that passes was steady while it was watched. -/
theorem verify_steady (h : verify x policy polls = .ok c) : Steady x policy polls c := by
  unfold verify at h
  cases hfirst : inspectBefore x (healthDeadline policy) 0 (polls 0).inspection with
  | error e =>
    rw [hfirst] at h
    cases h
  | ok first =>
    rw [hfirst] at h
    exact verifyLoop_steady (inspectBefore_ok hfirst).1 (track_start first) (Nat.le_refl 1) h

/-- A recheck that passes finds the container that was verified, not restarted since. -/
theorem recheck_ok {verified later : ContainerRecord} (h : recheck verified later policy = .ok ()) :
    later.id = verified.id ∧ later.runtime.startedAt = verified.runtime.startedAt ∧
      later.runtime.restartCount = verified.runtime.restartCount ∧
      policyReady later.runtime policy = .ok true := by
  unfold recheck at h
  split at h
  · cases h
  next hid =>
    split at h
    · cases h
    next hsame =>
      simp only [ne_eq, not_or, Decidable.not_not] at hid hsame
      refine ⟨hid, hsame.1, hsame.2, ?_⟩
      cases hready : policyReady later.runtime policy with
      | error e =>
        rw [hready] at h
        cases h
      | ok ready =>
        rw [hready] at h
        cases ready with
        | true => rfl
        | false => cases h

/-- A verification that succeeds ends a steady stretch of observations, and a recheck then
succeeds only on a container that is still the same and meets the policy. -/
theorem health_gate_sound {c : ContainerRecord} (h : verify x policy polls = .ok c) :
    Steady x policy polls c ∧
      ∀ later, recheck c later policy = .ok () → later.id = c.id ∧
        later.runtime.startedAt = c.runtime.startedAt ∧
        later.runtime.restartCount = c.runtime.restartCount ∧
        policyReady later.runtime policy = .ok true :=
  ⟨verify_steady h, fun _ hrecheck => recheck_ok hrecheck⟩

/-! ## A container without a start time -/

def configDigest : String := "sha256:" ++ String.ofList (List.replicate 64 'b')

/-- The container `web` of release 1. -/
def webContainer (status : ContainerStatus) (startedAt : Option String) : ContainerRecord where
  id := "web"
  labels := [(releaseIdLabel, uuidText 1)]
  runtime := ⟨status, .none, none, some 0, startedAt⟩
  configuredImageRef := some "web"
  imageId := some configDigest
  manifestDescriptor := none

def webExpected : Expected :=
  ⟨"web", 1, "web", ⟨configDigest, configDigest, ⟨"linux", "amd64", none⟩⟩⟩

/-- Created, then running without a start time, then running with one. -/
def lateStart : Nat → Poll
  | 0 => ⟨.answered (some (webContainer .created none)), 0, some 0⟩
  | 1 => ⟨.answered (some (webContainer .running none)), 0, some 0⟩
  | 2 => ⟨.answered (some (webContainer .running (some "12:00"))), 0, some 0⟩
  | 3 => ⟨.answered (some (webContainer .running (some "12:00"))), 0, some 0⟩
  | _ => ⟨.cancelled, 0, none⟩

theorem lateStart_passes :
    verify webExpected (.running 2) lateStart = .ok (webContainer .running (some "12:00")) :=
  ok_of_toOption (by decide +kernel)

theorem lateStart_steady :
    Steady webExpected (.running 2) lateStart (webContainer .running (some "12:00")) ∧
      ∀ later, recheck (webContainer .running (some "12:00")) later (.running 2) = .ok () →
        later.id = "web" ∧ later.runtime.startedAt = some "12:00" ∧
        later.runtime.restartCount = some 0 ∧
        policyReady later.runtime (.running 2) = .ok true :=
  health_gate_sound lateStart_passes

/-- A stretch in which the start time is the same throughout. -/
def Unbroken (x : Expected) (policy : HealthPolicy) (polls : Nat → Poll) (c : ContainerRecord) :
    Prop :=
  ∃ k last, k ≤ last ∧ Shows polls last c ∧
    Stretch x policy polls k k last c.runtime.startedAt c.runtime.restartCount ∧
    stableRequired policy * second ≤ observedAt polls last - observedAt polls k

/-- The container passes, but it was seen with its start time for only one of the two
seconds. -/
theorem first_start_within_window :
    verify webExpected (.running 2) lateStart = .ok (webContainer .running (some "12:00")) ∧
      ¬Unbroken webExpected (.running 2) lateStart (webContainer .running (some "12:00")) := by
  refine ⟨lateStart_passes, ?_⟩
  rintro ⟨k, last, hle, hlast, hstretch, htime⟩
  have hlast3 : last ≤ 3 := by
    rcases Nat.lt_or_ge last 4 with hlt | hge
    · omega
    · obtain ⟨m, rfl⟩ : ∃ m, last = m + 4 := ⟨last - 4, by omega⟩
      cases hlast
  have hk2 : 2 ≤ k := by
    obtain ⟨c, hc, -, -, -, hstarted⟩ := hstretch k (Nat.le_refl k) hle
    rw [if_neg (Nat.lt_irrefl k)] at hstarted
    rcases Nat.lt_or_ge k 2 with hlt | hge
    · obtain rfl | rfl : k = 0 ∨ k = 1 := by omega
      · cases hc
        cases hstarted
      · cases hc
        cases hstarted
    · exact hge
  obtain ⟨rfl, rfl⟩ | ⟨rfl, rfl⟩ | ⟨rfl, rfl⟩ :
      k = 2 ∧ last = 2 ∨ k = 2 ∧ last = 3 ∨ k = 3 ∧ last = 3 := by omega
  all_goals exact absurd htime (by decide)

end SoloDock.Docker
