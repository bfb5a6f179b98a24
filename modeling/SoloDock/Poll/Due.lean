import SoloDock.Poll.Attempt

/-!
# When an app is polled next

The due time that `run` of `registry/poller.rs` computes of an app's row: the persisted deadline,
or the jitter of a pending wake, and then the clamp of a deadline that lies too far ahead. A
deadline is persisted by the three programs that record the outcome of an attempt (`Recording`).

The clamp measures a deadline by the configured interval alone. The jitter adds at most 30 seconds
to a wait (`jittered_near`), so a wait of the configured interval passes it at any later time. A
back-off that is longer does not, and is replaced by half an hour from now.
-/

namespace SoloDock.Poll

open Lib Lib.Prog Registry Deploy
open Webhook (Crypto textBytes)

/-! ## Jitter -/

/-- `interval_with_jitter` after its first byte of the MAC is known. -/
def jittered (byte : UInt8) (interval : Nat) : Nat :=
  let span := min (interval / 10) 30
  let offset : Int := if span = 0 then 0 else byte.toNat % (span * 2 + 1) - span
  let seconds : Int := max (interval + offset) 1
  -- `u32::try_from(..).unwrap_or(interval)`
  if seconds < 4294967296 then seconds.toNat else interval

theorem emod_span (byte : UInt8) (span : Nat) :
    0 ≤ (byte.toNat : Int) % (span * 2 + 1) ∧ (byte.toNat : Int) % (span * 2 + 1) < span * 2 + 1 :=
  ⟨Int.emod_nonneg _ (by omega), Int.emod_lt_of_pos _ (by omega)⟩

/-- The jitter moves the interval by at most its span. -/
theorem jittered_near (byte : UInt8) (interval : Nat) :
    1 ≤ jittered byte interval ∧ (interval = 0 → jittered byte interval = 1) ∧
      (0 < interval → interval ≤ jittered byte interval + min (interval / 10) 30 ∧
        jittered byte interval ≤ interval + min (interval / 10) 30) := by
  have hspan : min (interval / 10) 30 * 10 ≤ interval := by omega
  have hmod := emod_span byte (min (interval / 10) 30)
  unfold jittered
  dsimp only
  generalize min (interval / 10) 30 = span at *
  split <;> split <;> omega

section Due

variable (crypto : Crypto)

def intervalWithJitter (key : Bytes) (appId : Uuid) (generation : String)
    (interval ordinal : Nat) : Nat :=
  let mac := crypto.hmacSha256 key
    (bigEndian 16 appId ++ textBytes generation ++ bigEndian 8 ordinal)
  jittered (mac.headD 0) interval

def webhookJitter (appId : Uuid) (sequence : Nat) : Nat :=
  ((crypto.sha256 (bigEndian 16 appId ++ bigEndian 8 sequence)).headD 0).toNat % 6

/-! ## A pass of the coordinator -/

/-- `PollState`, as far as the due time depends on it, with its time read back. -/
structure DueState where
  generation : String
  nextCheckNotBefore : Option Instant
  consecutiveTransientFailures : Nat
  lastOutcome : PollOutcome
  webhookSequence : Nat
  webhookProcessedSequence : Nat

/-- What a pass has read of an app whose auto-deploy is enabled: the clock, the integrity key and
the metadata. -/
structure Pass where
  now : Instant
  integrityKey : Bytes
  appId : Uuid
  generation : String
  pollIntervalSeconds : Nat

def webhookMustRespectBackoff (state : DueState) (now : Instant) : Bool :=
  state.nextCheckNotBefore.any (now < ·)
    && (state.consecutiveTransientFailures > 0 || state.lastOutcome = .credentialError)

def pendingWebhook (generation : String) (current : Option DueState) : Option DueState :=
  current.filter fun value =>
    value.generation = generation ∧ value.webhookSequence > value.webhookProcessedSequence

def rawDue (pass : Pass) (current : Option DueState) : Instant :=
  match pendingWebhook pass.generation current with
  | none =>
    let initial := intervalWithJitter crypto pass.integrityKey pass.appId pass.generation
      pass.pollIntervalSeconds 0
    ((current.filter (·.generation = pass.generation)).bind (·.nextCheckNotBefore)).getD
      (pass.now + Instant.seconds initial)
  | some value =>
    let wakeDue :=
      pass.now + Instant.seconds (webhookJitter crypto pass.appId value.webhookSequence)
    if webhookMustRespectBackoff value pass.now then
      (value.nextCheckNotBefore.map (max · wakeDue)).getD wakeDue
    else wakeDue

def latestExpected (now : Instant) (configuredInterval : Nat) : Instant :=
  let allowed : Nat := min (configuredInterval + 30) 4294967295
  now + Instant.seconds allowed

def clampPersistedDue (due now : Instant) (configuredInterval : Nat) : Instant :=
  if due > latestExpected now configuredInterval then now + Instant.minutes 30 else max due now

/-- `due`. -/
def nextDue (pass : Pass) (current : Option DueState) : Instant :=
  clampPersistedDue (rawDue crypto pass current) pass.now pass.pollIntervalSeconds

/-- `due_unix` of the entry that the pass puts in its heap. -/
def dueUnix (pass : Pass) (current : Option DueState) : Int :=
  (nextDue crypto pass current).unixTimestamp

/-! ## What is persisted -/

/-- The ends of an attempt that record its outcome. -/
inductive Recording where
  | success (resolved : ResolvedImage) (etag : Option String) (outcome : PollOutcome)
  | notModified (outcome : PollOutcome)
  | error (outcome : PollOutcome) (class_ code : String) (failures : Nat)

namespace Recording

def record (metadata : PollMetadata) (generation : String) : Recording → Attempt Unit
  | .success resolved etag outcome => recordSuccess metadata generation resolved etag outcome
  | .notModified outcome => recordNotModified metadata generation outcome
  | .error outcome class_ code failures =>
    recordError metadata generation outcome class_ code failures

/-- The wait before the jitter. -/
def seconds (metadata : PollMetadata) : Recording → Nat
  | .error outcome _ _ failures => retrySeconds metadata outcome failures
  | _ => metadata.pollIntervalSeconds

/-- The transient failures that are recorded, which number the jitter too. -/
def ordinal : Recording → Nat
  | .error _ _ _ failures => failures
  | _ => 0

def outcome : Recording → PollOutcome
  | .success _ _ outcome | .notModified outcome | .error outcome .. => outcome

/-- The deadline that is persisted by an attempt that reads the clock at `checked`. -/
def deadline (metadata : PollMetadata) (generation : String) (checked : Instant)
    (r : Recording) : Instant :=
  checked + Instant.seconds (intervalWithJitter crypto (textBytes generation) metadata.id generation
    (r.seconds metadata) r.ordinal)

end Recording

/-- What a recording publishes when it reads the clock at `checked`. -/
def published (appId : Uuid) (checked : Instant) : Attempt Unit → Option PollObservation
  | .call .now k => published appId checked (k checked)
  | .call (.intervalWithJitter generation interval ordinal) k =>
    published appId checked
      (k (intervalWithJitter crypto (textBytes generation) appId generation interval ordinal))
  | .call (.publish value) _ => some value
  | _ => none

/-- The row after `publish`, whose sequences only a wake or its processing changes. -/
def PollObservation.leaves (value : PollObservation) (sequence processed : Nat) : DueState where
  generation := value.generation
  nextCheckNotBefore := value.nextCheckNotBefore
  consecutiveTransientFailures := value.transientFailures
  lastOutcome := value.outcome
  webhookSequence := sequence
  webhookProcessedSequence := processed

variable {crypto} {metadata : PollMetadata} {checked deadline now : Instant} {r : Recording}

/-- What an attempt publishes is what it records. -/
theorem published_record {generation : String} {value : PollObservation}
    (h : published crypto metadata.id checked (r.record metadata generation) = some value) :
    value.generation = generation ∧
      value.nextCheckNotBefore = some (r.deadline crypto metadata generation checked) ∧
      value.transientFailures = r.ordinal ∧ value.outcome = r.outcome := by
  cases r <;> (cases h; exact ⟨rfl, rfl, rfl, rfl⟩)

/-- Without a pending wake the deadline is due. -/
theorem rawDue_of_processed {pass : Pass} {state : DueState}
    (hgeneration : state.generation = pass.generation)
    (hdeadline : state.nextCheckNotBefore = some deadline)
    (h : state.webhookSequence ≤ state.webhookProcessedSequence) :
    rawDue crypto pass (some state) = deadline := by
  have hnone : pendingWebhook pass.generation (some state) = none := by
    exact if_neg (by simp; omega)
  have hsame : (some state).filter (fun value => value.generation = pass.generation) = some state :=
    if_pos (decide_eq_true hgeneration)
  unfold rawDue
  rw [hnone]
  rw [hsame, Option.bind_some, hdeadline]
  rfl

/-- With a wake pending the raw due time is the wake's, and not before a deadline that backs
off. -/
theorem rawDue_of_pending {pass : Pass} {state : DueState}
    (hgeneration : state.generation = pass.generation)
    (hdeadline : state.nextCheckNotBefore = some deadline) (hbefore : pass.now < deadline)
    (h : state.webhookProcessedSequence < state.webhookSequence) :
    let wake := pass.now + Instant.seconds (webhookJitter crypto pass.appId state.webhookSequence)
    rawDue crypto pass (some state) =
      if 0 < state.consecutiveTransientFailures ∨ state.lastOutcome = .credentialError then
        max deadline wake
      else wake := by
  have hsome : pendingWebhook pass.generation (some state) = some state :=
    if_pos (by simpa [hgeneration] using h)
  have hbacks : webhookMustRespectBackoff state pass.now =
      decide (0 < state.consecutiveTransientFailures ∨ state.lastOutcome = .credentialError) := by
    simp [webhookMustRespectBackoff, hdeadline, hbefore]
  simp only [rawDue, hsome, hbacks, hdeadline, Option.map_some, Option.getD_some,
    decide_eq_true_eq]

theorem unixTimestamp_add_seconds (now : Instant) (seconds : Int) :
    (now + Instant.seconds seconds).unixTimestamp = now.unixTimestamp + seconds := by
  unfold Instant.unixTimestamp Instant.seconds nanosPerSecond
  omega

theorem unixTimestamp_mono {a b : Instant} (h : a ≤ b) : a.unixTimestamp ≤ b.unixTimestamp :=
  Int.ediv_le_ediv (by decide) h

theorem latestExpected_eq {interval : Nat} (h : interval ≤ 86400) :
    latestExpected now interval = now + Instant.seconds (interval + 30) := by
  have hmin : min (interval + 30) 4294967295 = interval + 30 := by omega
  simp only [latestExpected, hmin]
  rfl

/-- A wake waits at most five seconds. -/
theorem webhookJitter_le (appId : Uuid) (sequence : Nat) :
    webhookJitter crypto appId sequence ≤ 5 :=
  Nat.le_of_lt_succ (Nat.mod_lt _ (by decide))

section Clamp

variable {interval jitter : Nat} (hinterval : interval ≤ 86400) (hjitter : jitter ≤ 5)

include hinterval

/-- A deadline that the clamp sees is kept, to the second, when it is near enough or half an
hour from now. -/
theorem clamped_deadline_iff (h : now < deadline) :
    (clampPersistedDue deadline now interval).unixTimestamp = deadline.unixTimestamp ↔
      deadline ≤ now + Instant.seconds (interval + 30) ∨
        deadline.unixTimestamp = now.unixTimestamp + 1800 := by
  have hhalf : (now + Instant.minutes 30).unixTimestamp = now.unixTimestamp + 1800 :=
    unixTimestamp_add_seconds now 1800
  unfold clampPersistedDue
  rw [latestExpected_eq hinterval]
  split
  next hfar => rw [hhalf, or_iff_right (Int.not_le.mpr hfar), eq_comm]
  next hnear =>
    rw [Int.max_eq_left (Int.le_of_lt h)]
    exact iff_of_true rfl (.inl (Int.not_lt.mp hnear))

include hjitter

/-- The clamp lets every wake pass. -/
theorem clamped_wake : clampPersistedDue (now + Instant.seconds jitter) now interval =
    now + Instant.seconds jitter := by
  unfold clampPersistedDue
  rw [latestExpected_eq hinterval, if_neg, Int.max_eq_left] <;>
    unfold Instant.seconds nanosPerSecond Instant <;> omega

/-- A deadline that a wake has to respect is kept when it is near enough and the wake does not
end in a later second. -/
theorem clamped_max_iff (h : now < deadline) :
    (clampPersistedDue (max deadline (now + Instant.seconds jitter)) now interval).unixTimestamp =
        deadline.unixTimestamp ↔
      now.unixTimestamp + jitter ≤ deadline.unixTimestamp ∧
        (deadline ≤ now + Instant.seconds (interval + 30) ∨
          deadline.unixTimestamp = now.unixTimestamp + 1800) := by
  rcases Int.le_total deadline (now + Instant.seconds jitter) with hle | hle
  · have hnear : deadline ≤ now + Instant.seconds (interval + 30) := by
      unfold Instant.seconds nanosPerSecond Instant at *
      omega
    have hmono := unixTimestamp_mono hle
    rw [Int.max_eq_right hle, clamped_wake hinterval hjitter]
    rw [unixTimestamp_add_seconds] at hmono ⊢
    simp only [hnear, true_or, and_true]
    omega
  · have hmono := unixTimestamp_mono hle
    rw [unixTimestamp_add_seconds] at hmono
    rw [Int.max_eq_left hle, clamped_deadline_iff hinterval h]
    exact (and_iff_right hmono).symm

end Clamp

theorem retrySeconds_pos (h : 0 < metadata.pollIntervalSeconds)
    (outcome : PollOutcome) (failures : Nat) : 0 < retrySeconds metadata outcome failures := by
  unfold retrySeconds
  split
  · rcases failures - 1 with _ | _ | _ | _ | _ | n <;> simp
  · split <;> omega

/-- A recorded wait of at most the interval ends near enough. -/
theorem deadline_near {generation : String}
    (hinterval : 60 ≤ metadata.pollIntervalSeconds ∧ metadata.pollIntervalSeconds ≤ 86400)
    (hnow : checked ≤ now) (h : r.seconds metadata ≤ metadata.pollIntervalSeconds) :
    r.deadline crypto metadata generation checked ≤
      now + Instant.seconds (metadata.pollIntervalSeconds + 30) := by
  have hpositive : 0 < metadata.pollIntervalSeconds := Nat.lt_of_lt_of_le (by decide) hinterval.1
  have hpos : 0 < r.seconds metadata := by
    cases r with
    | error outcome class_ code failures => exact retrySeconds_pos hpositive outcome failures
    | success | notModified => exact hpositive
  have hjitter : intervalWithJitter crypto (textBytes generation) metadata.id generation
      (r.seconds metadata) r.ordinal ≤ metadata.pollIntervalSeconds + 30 :=
    Nat.le_trans ((jittered_near ..).2.2 hpos).2 (Nat.add_le_add h (Nat.min_le_right _ _))
  unfold Recording.deadline
  unfold Instant.seconds nanosPerSecond Instant at *
  omega

/-- The due second of a row is that of the persisted deadline, at a pass before it, exactly
where this is said of the row and the clock. Without a pending wake: the deadline is at most
the configured interval and 30 seconds from now, or in the second half an hour from now, which
stands in for every later one. With a wake the jitter of the wake must not end after the
deadline's second, and with nothing to back off from it must end in that second. A wait of at
most the configured interval is always near enough. -/
theorem deadline_kept_iff (crypto : Crypto) (integrityKey : Bytes) (metadata : PollMetadata)
    (hinterval : 60 ≤ metadata.pollIntervalSeconds ∧ metadata.pollIntervalSeconds ≤ 86400)
    (generation : String) (r : Recording) (checked now : Instant) (hnow : checked ≤ now)
    (hbefore : now < r.deadline crypto metadata generation checked) (value : PollObservation)
    (hvalue : published crypto metadata.id checked (r.record metadata generation) = some value)
    (sequence processed : Nat) :
    let pass : Pass := ⟨now, integrityKey, metadata.id, generation, metadata.pollIntervalSeconds⟩
    let deadline := r.deadline crypto metadata generation checked
    let near := deadline ≤ now + Instant.seconds (metadata.pollIntervalSeconds + 30) ∨
      deadline.unixTimestamp = now.unixTimestamp + 1800
    let wake := now.unixTimestamp + webhookJitter crypto metadata.id sequence
    (dueUnix crypto pass (some (value.leaves sequence processed)) = deadline.unixTimestamp ↔
        if sequence ≤ processed then near
        else if 0 < r.ordinal ∨ r.outcome = .credentialError then
          wake ≤ deadline.unixTimestamp ∧ near
        else wake = deadline.unixTimestamp) ∧
      (r.seconds metadata ≤ metadata.pollIntervalSeconds →
        deadline ≤ now + Instant.seconds (metadata.pollIntervalSeconds + 30)) := by
  intro pass deadline near wake
  obtain ⟨hgeneration, hdeadline, hfailures, houtcome⟩ := published_record hvalue
  refine ⟨?_, deadline_near hinterval hnow⟩
  unfold dueUnix nextDue
  split
  next hprocessed =>
    rw [rawDue_of_processed hgeneration hdeadline hprocessed]
    exact clamped_deadline_iff hinterval.2 hbefore
  next hpending =>
    rw [rawDue_of_pending hgeneration hdeadline hbefore (Nat.lt_of_not_le hpending)]
    simp only [PollObservation.leaves, hfailures, houtcome]
    split
    · exact clamped_max_iff hinterval.2 (webhookJitter_le ..) hbefore
    · rw [clamped_wake hinterval.2 (webhookJitter_le ..), unixTimestamp_add_seconds]

end Due

/-! ## A back-off longer than the interval -/

/-- The hashes of the program; no payload is read here. -/
def hashes : Crypto := .sha2 fun _ => false

/-- An app polled every five minutes. -/
def everyFiveMinutes : PollMetadata where
  id := 1
  slug := "web"
  discoveryImageRef := none
  credentialRef := none
  draftRevision := none
  draftConfigSha256 := none
  autoDeployEnabled := true
  pollIntervalSeconds := 300

/-- What an attempt of `everyFiveMinutes` that ends so publishes at second 0. -/
def publishedAtZero (r : Recording) : Option PollObservation :=
  published hashes 1 0 (r.record everyFiveMinutes "g")

/-- The due second of the row, with this many wakes, a second later. -/
def dueAfter (value : PollObservation) (wakes : Nat) : Int :=
  dueUnix hashes ⟨Instant.seconds 1, [], 1, "g", 300⟩ (some (value.leaves wakes 0))

/-- The deadline of a successful check is kept; so is that of a first failure, with a wake
pending. -/
theorem recorded_deadlines_kept :
    (∃ value, publishedAtZero (.notModified .unchanged) = some value ∧ dueAfter value 0 = 321) ∧
      ∃ value, publishedAtZero (.error .registryError "transient" "" 1) = some value ∧
        dueAfter value 1 = 57 := by
  constructor
  · obtain ⟨value, hvalue⟩ :
      ∃ value, publishedAtZero (.notModified .unchanged) = some value := ⟨_, rfl⟩
    refine ⟨value, hvalue, Eq.trans ((deadline_kept_iff hashes [] everyFiveMinutes (by decide) "g" _
      0 (Instant.seconds 1) (by decide) ?_ value hvalue 0 0).1.mpr ?_) ?_⟩ <;> decide +kernel
  · obtain ⟨value, hvalue⟩ :
      ∃ value, publishedAtZero (.error .registryError "transient" "" 1) = some value := ⟨_, rfl⟩
    refine ⟨value, hvalue, Eq.trans ((deadline_kept_iff hashes [] everyFiveMinutes (by decide) "g" _
      0 (Instant.seconds 1) (by decide) ?_ value hvalue 1 0).1.mpr ?_) ?_⟩ <;> decide +kernel

/-- The fourth failure in a row waits ten minutes and a half, and a second later half an hour. -/
theorem backoff_replaced :
    (publishedAtZero (.error .registryError "transient" "" 4)).map
        (fun value => (value.nextCheckNotBefore, dueAfter value 0)) =
      some (some (Instant.seconds 630), 1801) := by
  decide +kernel

end SoloDock.Poll
