import SoloDock.Docker.Container

/-!
# The health gate

`HealthVerifier::verify` of `deploy/health.rs`: the container is inspected once for a
baseline and then once a second, until the policy has been met for the required time, the
deadline has passed, or something is wrong. Every inspection checks that the container is
still the expected one: its id, the release it is labelled with, the image it was
configured with and the image it runs.

Docker, the clock and the shutdown signal are a stream of `Poll`s. Times are in the
nanoseconds of `Instant`, counted from the start of the verification.
-/

namespace SoloDock.Docker

open Lib Registry

def second : Nat := 1000000000

def healthDeadline (policy : HealthPolicy) : Nat :=
  let startup := 300
  let margin := 10
  let seconds :=
    match policy with
    | .running stableWindowSeconds => startup + stableWindowSeconds + margin
    | .healthy (some http) =>
      max startup (http.startPeriodSeconds
        + http.retries * (http.intervalSeconds + http.timeoutSeconds) + margin)
    | _ => startup
  second * seconds

/-- How long the policy must have been met without a break, in seconds. -/
def stableRequired : HealthPolicy → Nat
  | .running stableWindowSeconds => stableWindowSeconds
  | .disabled => 5
  | _ => 0

/-- How an inspection ends: the process shuts down, the time is up, or Docker answers. -/
inductive Inspection where
  | cancelled
  | late
  | answered (value : Option ContainerRecord)

/-- One round: the inspection and how long it took, and how much longer than a second the
sleep after it was, unless the process shut down meanwhile. -/
structure Poll where
  inspection : Inspection
  took : Nat
  overslept : Option Nat

/-- What the inspected container must be. -/
structure Expected where
  containerId : String
  release : Uuid
  imageRef : String
  identity : ImageIdentity
deriving DecidableEq

/-- The container is the expected one. -/
def Expected.Is (x : Expected) (c : ContainerRecord) : Prop :=
  c.id = x.containerId ∧ c.label releaseIdLabel = some (uuidText x.release) ∧
    c.configuredImageRef = some x.imageRef ∧
    x.identity.matchesObservation c.imageId c.manifestDescriptor = true

def inspectExact (x : Expected) (value : Option ContainerRecord) :
    Except HealthError ContainerRecord :=
  match value with
  | none => .error .observation
  | some value =>
    if value.id ≠ x.containerId ∨ value.label releaseIdLabel ≠ some (uuidText x.release)
        ∨ value.configuredImageRef ≠ some x.imageRef then
      .error .changed
    else if !x.identity.matchesObservation value.imageId value.manifestDescriptor then
      .error .identityMismatch
    else .ok value

/-- `inspect_before`, at time `elapsed`. -/
def inspectBefore (x : Expected) (deadline elapsed : Nat) (inspection : Inspection) :
    Except HealthError ContainerRecord :=
  if deadline < elapsed then .error .timeout
  else
    match inspection with
    | .cancelled => .error .interrupted
    | .late => .error .timeout
    | .answered value => inspectExact x value

/-- What must not change from one inspection to the next. A container that was created and
not yet started may start once. -/
structure Baseline where
  started : Option String
  awaitingFirstStart : Bool
  restarts : Option Int

def Baseline.of (first : ContainerRecord) : Baseline where
  started := first.runtime.startedAt
  awaitingFirstStart := first.status = .created && first.runtime.startedAt.isNone
    && first.runtime.restartCount = some 0
  restarts := first.runtime.restartCount

/-- The first start is taken into the baseline. -/
def Baseline.see (b : Baseline) (c : ContainerRecord) : Baseline :=
  if b.awaitingFirstStart && c.runtime.startedAt.isSome
      && (c.status = .running || c.status = .exited) && c.runtime.restartCount = some 0 then
    { b with started := c.runtime.startedAt, awaitingFirstStart := false }
  else b

def Baseline.holds (b : Baseline) (c : ContainerRecord) : Bool :=
  c.runtime.startedAt = b.started && c.runtime.restartCount = b.restarts

/-- Since when the policy has been met without a break. -/
def readySince (ready : Bool) (since : Option Nat) (now : Nat) : Option Nat :=
  if ready then some (since.getD now) else none

/-- Where a round leads: the container passed, or another round follows. -/
inductive Round where
  | passed (container : ContainerRecord)
  | again (baseline : Baseline) (since : Option Nat) (elapsed : Nat)

/-- The end of a round that did not pass: sleep for a second, unless the time is up then. -/
def sleepOn (deadline : Nat) (b : Baseline) (since : Option Nat) (now : Nat) :
    Option Nat → Except HealthError Round
  | none => .error .interrupted
  | some overslept =>
    if deadline ≤ now + second + overslept then .error .timeout
    else .ok (.again b since (now + second + overslept))

/-- One round of the loop of `verify`, which starts at time `elapsed`. -/
def round (x : Expected) (policy : HealthPolicy) (deadline : Nat) (poll : Poll) (b : Baseline)
    (since : Option Nat) (elapsed : Nat) : Except HealthError Round := do
  let container ← inspectBefore x deadline elapsed poll.inspection
  let b := b.see container
  if b.holds container then
    let ready ← policyReady container.runtime policy
    let now := elapsed + poll.took
    let since := readySince ready since now
    if since.any fun s => decide (stableRequired policy ≤ (now - s) / second) then
      return .passed container
    else
      sleepOn deadline b since now poll.overslept
  else throw .restarted

/-- The loop of `verify`, from round `i` on. -/
def verifyLoop (x : Expected) (policy : HealthPolicy) (deadline : Nat) (polls : Nat → Poll) :
    (fuel i : Nat) → Baseline → (since : Option Nat) → (elapsed : Nat) →
      Except HealthError ContainerRecord
  | 0, _, _, _, _ => .error .timeout
  | fuel + 1, i, b, since, elapsed =>
    match round x policy deadline (polls i) b since elapsed with
    | .error e => .error e
    | .ok (.passed container) => .ok container
    | .ok (.again b since elapsed) =>
      verifyLoop x policy deadline polls fuel (i + 1) b since elapsed

/-- The rounds that fit into the deadline; by `verifyLoop_fuel` more of them make no
difference. -/
def rounds (deadline : Nat) : Nat := deadline / second + 2

/-- `HealthVerifier::verify`: the container as it was when it passed. -/
def verify (x : Expected) (policy : HealthPolicy) (polls : Nat → Poll) :
    Except HealthError ContainerRecord :=
  match inspectBefore x (healthDeadline policy) 0 (polls 0).inspection with
  | .error e => .error e
  | .ok first =>
    verifyLoop x policy (healthDeadline policy) polls (rounds (healthDeadline policy)) 1
      (.of first) none (polls 0).took

/-! ## What a round does -/

/-- A container that passed is the expected one and meets the policy. -/
structure Passed (x : Expected) (policy : HealthPolicy) (c : ContainerRecord) : Prop where
  expected : x.Is c
  ready : policyReady c.runtime policy = .ok true

section

variable {x : Expected} {policy : HealthPolicy} {deadline : Nat} {c : ContainerRecord}

theorem inspectExact_ok {value : Option ContainerRecord} (h : inspectExact x value = .ok c) :
    value = some c ∧ x.Is c := by
  unfold inspectExact at h
  split at h
  · cases h
  · split at h
    · cases h
    · next hsame =>
      split at h
      · cases h
      · next hidentity =>
        cases h
        simp only [ne_eq, not_or, Decidable.not_not] at hsame
        exact ⟨rfl, hsame.1, hsame.2.1, hsame.2.2, by simpa using hidentity⟩

theorem inspectBefore_ok {elapsed : Nat} {inspection : Inspection}
    (h : inspectBefore x deadline elapsed inspection = .ok c) :
    inspection = .answered (some c) ∧ x.Is c := by
  unfold inspectBefore at h
  split at h
  · cases h
  · split at h
    · cases h
    · cases h
    · obtain ⟨rfl, hexpected⟩ := inspectExact_ok h
      exact ⟨rfl, hexpected⟩

variable {poll : Poll} {b b' : Baseline} {since since' : Option Nat} {elapsed elapsed' : Nat}
  {now i : Nat} {overslept : Option Nat} {polls : Nat → Poll}

theorem sleepOn_ok {r : Round} (h : sleepOn deadline b since now overslept = .ok r) :
    ∃ late, overslept = some late ∧ now + second + late < deadline ∧
      r = .again b since (now + second + late) := by
  cases overslept with
  | none => cases h
  | some late =>
    unfold sleepOn at h
    dsimp only at h
    split at h
    · cases h
    next hbefore => exact ⟨late, rfl, Nat.not_le.mp hbefore, (Except.ok.inj h).symm⟩

theorem round_cases {r : Round} (h : round x policy deadline poll b since elapsed = .ok r) :
    ∃ c ready, poll.inspection = .answered (some c) ∧ x.Is c ∧ (b.see c).holds c = true ∧
      policyReady c.runtime policy = .ok ready ∧
      ((r = .passed c ∧ ∃ s, readySince ready since (elapsed + poll.took) = some s ∧
          stableRequired policy ≤ (elapsed + poll.took - s) / second) ∨
        ∃ late, poll.overslept = some late ∧ elapsed + poll.took + second + late < deadline ∧
          r = .again (b.see c) (readySince ready since (elapsed + poll.took))
            (elapsed + poll.took + second + late)) := by
  unfold round at h
  cases hinspect : inspectBefore x deadline elapsed poll.inspection with
  | error e => rw [hinspect] at h; cases h
  | ok c =>
    rw [hinspect] at h
    dsimp only [bind, Except.bind] at h
    obtain ⟨hanswered, hexpected⟩ := inspectBefore_ok hinspect
    split at h
    next hholds =>
      cases hready : policyReady c.runtime policy with
      | error e => rw [hready] at h; cases h
      | ok ready =>
        rw [hready] at h
        dsimp only at h
        refine ⟨c, ready, hanswered, hexpected, hholds, hready, ?_⟩
        split at h
        next hsince =>
          cases hs : readySince ready since (elapsed + poll.took) with
          | none =>
            rw [hs] at hsince
            cases hsince
          | some s =>
            rw [hs] at hsince
            exact .inl ⟨(Except.ok.inj h).symm, s, rfl, of_decide_eq_true hsince⟩
        · exact .inr (sleepOn_ok h)
    · cases h

theorem round_passed (h : round x policy deadline poll b since elapsed = .ok (.passed c)) :
    Passed x policy c := by
  obtain ⟨_, ready, -, hexpected, -, hready, ⟨hpassed, s, hsince, -⟩ | ⟨_, _, _, hagain⟩⟩ :=
    round_cases h
  · cases hpassed
    -- without readiness the time since is not known
    cases ready with
    | true => exact ⟨hexpected, hready⟩
    | false => cases hsince
  · cases hagain

theorem round_again
    (h : round x policy deadline poll b since elapsed = .ok (.again b' since' elapsed')) :
    elapsed + second ≤ elapsed' ∧ elapsed' < deadline := by
  obtain ⟨_, _, -, -, -, -, ⟨hpassed, -⟩ | ⟨late, -, hbefore, hagain⟩⟩ := round_cases h
  · cases hpassed
  · cases hagain
    omega

/-! ## The loop -/

theorem verifyLoop_ok {fuel : Nat}
    (h : verifyLoop x policy deadline polls fuel i b since elapsed = .ok c) :
    Passed x policy c := by
  induction fuel generalizing i b since elapsed with
  | zero => cases h
  | succ fuel ih =>
    unfold verifyLoop at h
    split at h
    · cases h
    · next hround =>
      cases h
      exact round_passed hround
    · exact ih h

/-- Once the rounds cover the time that is left, more of them make no difference. -/
theorem verifyLoop_fuel (fuel more : Nat) (h : deadline ≤ elapsed + fuel * second) :
    verifyLoop x policy deadline polls (fuel + 1 + more) i b since elapsed =
      verifyLoop x policy deadline polls (fuel + 1) i b since elapsed := by
  induction fuel generalizing i b since elapsed with
  | zero =>
    rw [Nat.zero_add, Nat.add_comm 1 more]
    unfold verifyLoop
    split
    · rfl
    · rfl
    · next hround =>
      have hnext := round_again hround
      omega
  | succ fuel ih =>
    rw [Nat.add_right_comm (fuel + 1) 1 more]
    unfold verifyLoop
    split
    · rfl
    · rfl
    · next hround =>
      have hnext := round_again hround
      exact ih (by rw [Nat.succ_mul] at h; omega)

theorem verify_ok (h : verify x policy polls = .ok c) : Passed x policy c := by
  unfold verify at h
  split at h
  · cases h
  · exact verifyLoop_ok h

/-- The rounds of `verify` are enough. -/
theorem verify_eq_more_rounds (polls : Nat → Poll) (first : ContainerRecord) (more : Nat) :
    verifyLoop x policy deadline polls (rounds deadline + more) 1 (.of first) none (polls 0).took =
      verifyLoop x policy deadline polls (rounds deadline) 1 (.of first) none (polls 0).took := by
  refine verifyLoop_fuel (deadline / second + 1) more ?_
  have hrounds : deadline < second * (deadline / second + 1) :=
    Nat.lt_mul_div_succ deadline (by decide)
  rw [Nat.mul_comm]
  omega

end

end SoloDock.Docker
