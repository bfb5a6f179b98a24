import SoloDock.Deploy.Poll
import SoloDock.Mutation.Ledger
import SoloDock.Webhook.Ingress

/-!
# One poll attempt

`poll_one` of `registry/poller.rs`, with the `PollStateStore` it reads and writes and the
scheduler of `deploy/scheduler.rs` it ends in. An attempt resolves the app's reference,
compares the image with the active release, and schedules a deployment of the new target
unless something stands in its way: the target failed before (the column
`suppressed_target_key` of the app's row), the links or the container are not as expected,
a deployment of the target is under way, or the target's idempotency record is still there.

Digests are represented by the text they are taken of. The jitter of the next check is an
answer of the interface.
-/

namespace SoloDock.Poll

open Lib Lib.Prog Registry Deploy
open Webhook (PollState newPollState wake)
open Mutation (IdempotencyError)

/-! ## The row of an app -/

inductive PollOutcome where
  | disabled | scheduled | unchanged | configPendingManual | busySkipped | blockedDrift
  | blockedAttention | suppressedFailedTarget | registryError | credentialError | invalidSource
  | cancelled
deriving DecidableEq, Repr

def PollOutcome.asStr : PollOutcome → String
  | .disabled => "disabled"
  | .scheduled => "scheduled"
  | .unchanged => "unchanged"
  | .configPendingManual => "config_pending_manual"
  | .busySkipped => "busy_skipped"
  | .blockedDrift => "blocked_drift"
  | .blockedAttention => "blocked_attention"
  | .suppressedFailedTarget => "suppressed_failed_target"
  | .registryError => "registry_error"
  | .credentialError => "credential_error"
  | .invalidSource => "invalid_source"
  | .cancelled => "cancelled"

structure PollObservation where
  generation : String
  enabled : Bool
  nextCheckNotBefore : Option Instant
  checkedAt : Option Instant
  success : Bool
  replaceObservedFields : Bool
  sourceDescriptorDigest : Option String
  etag : Option String
  manifestDigest : Option String
  platform : Option String
  outcome : PollOutcome
  errorClass : Option String
  errorCode : Option String
  transientFailures : Nat

/-- `optional_time`: a time that cannot be written is an error. -/
def optionalTime : Option Instant → Option (Option String)
  | none => some none
  | some t => (rfc3339 t).map some

/-- The insert of `publish`. -/
def PollObservation.insert (value : PollObservation) (next checked : Option String)
    (now : String) : PollState where
  generation := value.generation
  enabled := value.enabled
  consecutiveTransientFailures := value.transientFailures
  nextCheckNotBefore := next
  lastCheckedAt := checked
  lastSuccessAt := if value.success then checked else none
  lastSourceDescriptorDigest := value.sourceDescriptorDigest
  lastEtag := value.etag
  lastManifestDigest := value.manifestDigest
  lastPlatform := value.platform
  lastOutcome := value.outcome.asStr
  lastErrorClass := value.errorClass
  lastErrorCode := value.errorCode
  suppressedTargetKey := none
  suppressedDeploymentId := none
  webhookSequence := 0
  webhookProcessedSequence := 0
  lastWebhookReceivedAt := none
  lastWakeSource := none
  updatedAt := now

/-- The update of `publish`: the observed fields are kept where nothing was observed and
the generation is the same, and only a new generation clears the suppression. -/
def PollObservation.update (value : PollObservation) (next checked : Option String)
    (now : String) (row : PollState) : PollState :=
  let other := row.generation ≠ value.generation
  let observed (new old : Option String) : Option String :=
    if other ∨ value.replaceObservedFields then new else new.or old
  { row with
    generation := value.generation
    enabled := value.enabled
    consecutiveTransientFailures := value.transientFailures
    nextCheckNotBefore := next
    lastCheckedAt := checked.or row.lastCheckedAt
    lastSuccessAt := if value.success then checked.or row.lastSuccessAt else row.lastSuccessAt
    lastSourceDescriptorDigest :=
      observed value.sourceDescriptorDigest row.lastSourceDescriptorDigest
    lastEtag := observed value.etag row.lastEtag
    lastManifestDigest := observed value.manifestDigest row.lastManifestDigest
    lastPlatform := observed value.platform row.lastPlatform
    lastOutcome := value.outcome.asStr
    lastErrorClass := value.errorClass
    lastErrorCode := value.errorCode
    suppressedTargetKey := if other then none else row.suppressedTargetKey
    suppressedDeploymentId := if other then none else row.suppressedDeploymentId
    updatedAt := now }

/-- `publish`; `none` is an error. -/
def publish (value : PollObservation) (now : Instant) (row : Option PollState) :
    Option PollState :=
  if value.transientFailures > 5 then none
  else do
    let next ← optionalTime value.nextCheckNotBefore
    let checked ← optionalTime value.checkedAt
    let now ← rfc3339 now
    some (match row with
      | none => value.insert next checked now
      | some row => value.update next checked now row)

theorem publish_cases {value : PollObservation} {now : Instant} {row : Option PollState}
    {row' : PollState} (h : publish value now row = some row') : ∃ next checked text,
      (row = none ∧ row' = value.insert next checked text) ∨
        ∃ old, row = some old ∧ row' = value.update next checked text old := by
  unfold publish at h
  split at h
  · cases h
  simp only [Option.bind_eq_bind, Option.bind_eq_some_iff, Option.some.injEq] at h
  obtain ⟨next, -, checked, -, text, -, rfl⟩ := h
  refine ⟨next, checked, text, ?_⟩
  cases row with
  | none => exact .inl ⟨rfl, rfl⟩
  | some old => exact .inr ⟨old, rfl, rfl⟩

/-- `try_initialize_generation`, where the row still has the generation the coordinator
saw. The sequences of the wakes are kept. -/
def initializeGeneration (generation : String) (due now : String) : Option PollState → PollState
  | none =>
    { newPollState generation now with
      nextCheckNotBefore := some due
      webhookSequence := 0
      lastWebhookReceivedAt := none
      lastWakeSource := none }
  | some row =>
    { newPollState generation now with
      nextCheckNotBefore := some due
      webhookSequence := row.webhookSequence
      webhookProcessedSequence := row.webhookProcessedSequence
      lastWebhookReceivedAt := row.lastWebhookReceivedAt
      lastWakeSource := row.lastWakeSource }

def clearSuppressionIfTarget (targetKey : String) (now : String) (row : PollState) : PollState :=
  if row.suppressedTargetKey = some targetKey then
    { row with suppressedTargetKey := none, suppressedDeploymentId := none, updatedAt := now }
  else row

def markWebhookProcessed (generation : String) (captured : Nat) (now : String)
    (row : PollState) : PollState :=
  if row.generation = generation then
    { row with
      webhookProcessedSequence :=
        min row.webhookSequence (max row.webhookProcessedSequence captured)
      lastWakeSource :=
        if row.webhookSequence > captured then some "webhook" else row.lastWakeSource
      updatedAt := now }
  else row

/-! ## What an attempt reads and calls -/

/-- `AppMetadata`, as far as the poller reads it. -/
structure PollMetadata extends AppMetadata where
  pollIntervalSeconds : Nat
deriving DecidableEq, Repr

/-- A row of `deployments`. -/
structure Deployment where
  record : Record
  status : Status
deriving DecidableEq, Repr

namespace Deployment

/-- The deployment has not ended. -/
def unfinished (d : Deployment) : Bool :=
  d.status == .queued || d.status == .running

end Deployment

/-- The deployment was scheduled by a poll under the generation, for the target. -/
def polls (record : Record) (generation targetKey : String) : Bool :=
  record.trigger == .poll && record.pollGeneration == some generation
    && record.scheduledTargetKey == some targetKey

/-- What both `actual_fact`s fail with. -/
inductive ActualError where
  | appNotFound
  | docker (code : String)
  | containerInvalid
deriving DecidableEq, Repr

structure ScheduleFacts where
  draftRevision : Uuid
  activeReleaseId : Option Uuid
  pendingReleaseId : Option Uuid
  actualReleaseId : Option Uuid
  actualContainerId : Option String
  acknowledgeNonRollbackableData : Bool
deriving DecidableEq, Repr

structure ScheduledResolvedTarget where
  image : ResolvedImage
  generation : String
  targetKey : String
deriving DecidableEq, Repr

/-- `ScheduleCommand` of a poll: its trigger is `poll`, and it rolls nothing back. -/
structure ScheduleCommand where
  route : String
  idempotencyKey : String
  fingerprint : String
  appId : Uuid
  facts : ScheduleFacts
  scheduled : ScheduledResolvedTarget
deriving DecidableEq, Repr

inductive ScheduleError where
  | appNotFound | unconfigured | busy | factsChanged | dataAckRequired | containerInvalid
  | docker (code : String) | configInvalid | idempotency (err : IdempotencyError) | internal
deriving DecidableEq, Repr

inductive ScheduleResult where
  | scheduled (deployment : Uuid)
  | replay
deriving DecidableEq, Repr

/-- The calls of an attempt. A credential is handed on as its user name and secret. -/
inductive Call where
  | readMetadata
  | pollGeneration (metadata : PollMetadata)
  | latestDeployment
  | loadCredential (id : Uuid)
  | probe
  | pollState
  | resolvePoll (image : ImageReference) (platform : Platform)
      (credential : Option (String × String)) (etag : Option String)
  | resolve (image : ImageReference) (platform : Platform) (credential : Option (String × String))
  | readLink (link : Link)
  | actualFact (active : Option Uuid)
  | loadRelease (id : Uuid)
  | clearSuppression (targetKey : String)
  | now
  | intervalWithJitter (generation : String) (interval ordinal : Nat)
  | publish (value : PollObservation)
  | cancelled
  | completedForActor (route key fingerprint : String)
  | tryApp
  | tryComposeOwned
  | loadConfig (revision : Uuid)
  | claimDeployment (command : ScheduleCommand) (draftRevision : Uuid)
      (active pending : Option Uuid) (actual : Option (Uuid × String))

/-- Their answers. `none` is an error the attempt does not look at; the two resolutions
answer `none` on a shutdown, and `loadConfig` says whether the app has volumes or binds. -/
def Answer : Call → Type
  | .readMetadata => Option PollMetadata
  | .pollGeneration _ => Option String
  | .latestDeployment => Option (Option Deployment)
  | .loadCredential _ => Option Credential
  | .probe => Option Probe
  | .pollState => Option (Option PollState)
  | .resolvePoll .. => Option (Except RegistryError PollResolve)
  | .resolve .. => Option (Except RegistryError ResolvedImage)
  | .readLink _ => Option (Option Uuid)
  | .actualFact _ => Except ActualError (Option (Uuid × String))
  | .loadRelease _ => Option Release
  | .clearSuppression _ => Unit
  | .now => Instant
  | .intervalWithJitter .. => Nat
  | .publish _ => Option Unit
  | .cancelled => Bool
  | .completedForActor .. => Except IdempotencyError Bool
  | .tryApp => Bool
  | .tryComposeOwned => Bool
  | .loadConfig _ => Option Bool
  | .claimDeployment .. => Except IdempotencyError ScheduleResult

/-- An attempt: its error is the empty one. -/
abbrev Attempt := Prog Call Answer Unit

/-- Stop if there is no answer. -/
def orGiveUp {α : Type} (o : Option α) : Attempt α := orStop o ()

/-! ## What is written down -/

def formatPlatform (platform : Platform) : String :=
  match platform.variant with
  | some variant => platform.os ++ "/" ++ platform.architecture ++ "/" ++ variant
  | none => platform.os ++ "/" ++ platform.architecture

/-- The target key up to its platform: the app, its configuration and the manifest. -/
def keyStem (metadata : AppMetadata) (manifestDigest : String) : String :=
  uuidText metadata.id ++ ":" ++ metadata.draftConfigSha256.getD "unconfigured" ++ ":"
    ++ manifestDigest ++ ":"

def targetKey (metadata : AppMetadata) (resolved : ResolvedImage) : String :=
  keyStem metadata resolved.manifestDigest ++ (resolved.platform.os ++ "/"
    ++ resolved.platform.architecture ++ "/" ++ resolved.platform.variant.getD "")

def recordSuccess (metadata : PollMetadata) (generation : String) (resolved : ResolvedImage)
    (etag : Option String) (outcome : PollOutcome) : Attempt Unit := do
  let checked : Instant ← ask Call.now
  let seconds : Nat ← ask (Call.intervalWithJitter generation metadata.pollIntervalSeconds 0)
  orGiveUp (← ask (Call.publish {
    generation
    enabled := true
    nextCheckNotBefore := some (checked + Instant.seconds seconds)
    checkedAt := some checked
    success := true
    replaceObservedFields := true
    sourceDescriptorDigest := some resolved.sourceDescriptorDigest
    etag
    manifestDigest := some resolved.manifestDigest
    platform := some (formatPlatform resolved.platform)
    outcome
    errorClass := none
    errorCode := none
    transientFailures := 0 }))

def recordNotModified (metadata : PollMetadata) (generation : String) (outcome : PollOutcome) :
    Attempt Unit := do
  let checked : Instant ← ask Call.now
  let seconds : Nat ← ask (Call.intervalWithJitter generation metadata.pollIntervalSeconds 0)
  orGiveUp (← ask (Call.publish {
    generation
    enabled := true
    nextCheckNotBefore := some (checked + Instant.seconds seconds)
    checkedAt := some checked
    success := true
    replaceObservedFields := false
    sourceDescriptorDigest := none
    etag := none
    manifestDigest := none
    platform := none
    outcome
    errorClass := none
    errorCode := none
    transientFailures := 0 }))

/-- The wait after a failed attempt, before the jitter. -/
def retrySeconds (metadata : PollMetadata) (outcome : PollOutcome) (failures : Nat) : Nat :=
  if failures > 0 then [60, 120, 300, 600, 1800].getD (failures - 1) 1800
  else if outcome = .credentialError then max metadata.pollIntervalSeconds 1800
  else metadata.pollIntervalSeconds

def recordError (metadata : PollMetadata) (generation : String) (outcome : PollOutcome)
    (class_ code : String) (failures : Nat) : Attempt Unit := do
  let checked : Instant ← ask Call.now
  let seconds : Nat ← ask
    (Call.intervalWithJitter generation (retrySeconds metadata outcome failures) failures)
  orGiveUp (← ask (Call.publish {
    generation
    enabled := true
    nextCheckNotBefore := some (checked + Instant.seconds seconds)
    checkedAt := some checked
    success := false
    replaceObservedFields := false
    sourceDescriptorDigest := none
    etag := none
    manifestDigest := none
    platform := none
    outcome
    errorClass := some class_
    errorCode := some code
    transientFailures := failures }))

/-! ## The scheduler -/

/-- The scheduler: it fails with a `ScheduleError`. -/
abbrev Scheduler := Prog Call Answer ScheduleError

/-- The errors of `actual_fact`. -/
def ActualError.toScheduleError : ActualError → ScheduleError
  | .appNotFound => .appNotFound
  | .docker code => .docker code
  | .containerInvalid => .containerInvalid

/-- What `schedule` reads under the locks is what the command was made of. -/
def factsMatch (facts : ScheduleFacts) (draftRevision : Uuid) (active pending : Option Uuid)
    (actual : Option (Uuid × String)) : Bool :=
  draftRevision == facts.draftRevision && active == facts.activeReleaseId
    && pending == facts.pendingReleaseId && actual.map (·.1) == facts.actualReleaseId
    && actual.map (·.2) == facts.actualContainerId

/-- `schedule` after the replay check: the locks, the facts, and the claim. -/
def scheduleClaim (command : ScheduleCommand) : Scheduler ScheduleResult := do
  ensure (← ask Call.tryApp) .busy
  ensure (← ask Call.tryComposeOwned) .busy
  let metadata ← orStop (← ask Call.readMetadata) .appNotFound
  let draftRevision ← orStop metadata.draftRevision .unconfigured
  let active ← orStop (← ask (Call.readLink .active)) .internal
  let pending ← orStop (← ask (Call.readLink .pending)) .internal
  let actual ← orElse (← ask (Call.actualFact active)) ActualError.toScheduleError
  ensure (factsMatch command.facts draftRevision active pending actual) .factsChanged
  ensure metadata.autoDeployEnabled .factsChanged
  let generation ← orStop (← ask (Call.pollGeneration metadata)) .configInvalid
  ensure (command.scheduled.generation == generation) .factsChanged
  let keepsData ← orStop (← ask (Call.loadConfig draftRevision)) .configInvalid
  ensure (!keepsData || command.facts.acknowledgeNonRollbackableData) .dataAckRequired
  orElse (← ask (Call.claimDeployment command draftRevision active pending actual)) .idempotency

/-- `schedule`, for a poll's command. -/
def schedule (command : ScheduleCommand) : Scheduler ScheduleResult := do
  ensure (!(← ask Call.cancelled)) .busy
  let completed ← orElse
    (← ask (Call.completedForActor command.route command.idempotencyKey command.fingerprint))
    .idempotency
  if completed then return .replay
  else scheduleClaim command

/-! ## The attempt -/

/-- `DueEntry`, as far as an attempt reads it. -/
structure DueEntry where
  generation : String
  webhookSequence : Nat

/-- The suffix of the idempotency key with which an interrupted deployment is taken up
again. -/
def convergenceSuffix (latest : Option Deployment) (generation targetKey : String) : String :=
  match latest with
  | some d =>
    if polls d.record generation targetKey ∧ d.status = .interrupted then
      ":converge:" ++ uuidText d.record.id
    else ""
  | none => ""

/-- The text under the idempotency key of a target. -/
def keyText (metadata : AppMetadata) (generation targetKey suffix : String) : String :=
  uuidText metadata.id ++ ":" ++ generation ++ ":" ++ targetKey ++ suffix

/-- The command of an attempt. -/
def pollCommand (metadata : PollMetadata) (generation : String) (resolved : ResolvedImage)
    (draftRevision : Uuid) (active pending : Option Uuid) (actual : Option (Uuid × String))
    (suffix : String) : ScheduleCommand :=
  let target := targetKey metadata.toAppMetadata resolved
  { route := "/internal/poll/" ++ uuidText metadata.id
    idempotencyKey := keyText metadata.toAppMetadata generation target suffix
    fingerprint := "poll:" ++ keyText metadata.toAppMetadata generation target suffix
    appId := metadata.id
    facts :=
      { draftRevision
        activeReleaseId := active
        pendingReleaseId := pending
        actualReleaseId := actual.map (·.1)
        actualContainerId := actual.map (·.2)
        acknowledgeNonRollbackableData := true }
    scheduled := { image := resolved, generation, targetKey := target } }

/-- The result of the scheduler, as the outcome that is recorded; an attempt that has
scheduled records nothing more, and other errors give it up. -/
def scheduledOutcome : Except ScheduleError ScheduleResult → Option (Option PollOutcome)
  | .ok (.scheduled _) => some none
  | .ok .replay => some (some .busySkipped)
  | .error .busy | .error .factsChanged => some (some .busySkipped)
  | .error .containerInvalid => some (some .blockedDrift)
  | .error _ => none

/-- The end of an attempt: the row is published, then the command is scheduled. -/
def pollSchedule (fresh : PollMetadata) (generation : String) (resolved : ResolvedImage)
    (etag : Option String) (active pending : Option Uuid) (actual : Option (Uuid × String))
    (suffix : String) : Attempt Unit := do
  let draftRevision ← orGiveUp fresh.draftRevision
  recordSuccess fresh generation resolved etag .scheduled
  let result ← (schedule
    (pollCommand fresh generation resolved draftRevision active pending actual suffix)).attempt
  match ← orGiveUp (scheduledOutcome result) with
  | none => return ()
  | some outcome => recordSuccess fresh generation resolved etag outcome

/-- Whether the pending release and the container let a deployment of the target start;
otherwise the outcome that says why not. -/
def pollBlocked (active : Option Uuid) (pending : Option (Uuid × Release))
    (actual : Option Uuid) (resolved : ResolvedImage) : Option PollOutcome :=
  match pending with
  | some (pendingId, release) =>
    if release.manifestDigest ≠ resolved.manifestDigest
        ∨ (actual ≠ some pendingId ∧ actual ≠ active) then some .blockedAttention
    else none
  | none => if actual.isSome ∧ actual ≠ active then some .blockedDrift else none

/-- The release a link names, loaded. -/
def loadLinked : Option Uuid → Attempt (Option (Uuid × Release))
  | none => return none
  | some id => do
    let release ← orGiveUp (← ask (Call.loadRelease id))
    return some (id, release)

/-- The attempt on an image that is not the active one. -/
def pollTarget (fresh : PollMetadata) (generation : String) (latest : Option Deployment)
    (resolved : ResolvedImage) (etag : Option String) (active pending : Option Uuid)
    (actual : Option (Uuid × String)) : Attempt Unit := do
  let target := targetKey fresh.toAppMetadata resolved
  let row ← orGiveUp (← ask Call.pollState)
  if row.bind (·.suppressedTargetKey) = some target then
    recordSuccess fresh generation resolved etag .suppressedFailedTarget
  else
    let pendingRelease ← loadLinked pending
    match pollBlocked active pendingRelease (actual.map (·.1)) resolved with
    | some outcome => recordSuccess fresh generation resolved etag outcome
    | none =>
      if latest.any fun d => polls d.record generation target && d.unfinished then
        recordSuccess fresh generation resolved etag .busySkipped
      else
        pollSchedule fresh generation resolved etag active pending actual
          (convergenceSuffix latest generation target)

/-- The draft is the configuration of the release. -/
def draftDeployed (metadata : AppMetadata) (release : Release) : Bool :=
  some release.configRevision == metadata.draftRevision
    && some release.configSha256 == metadata.draftConfigSha256

/-- The outcome of an attempt that finds the active image again. -/
def unchangedOutcome (metadata : AppMetadata) (release : Release) : PollOutcome :=
  if draftDeployed metadata release then .unchanged else .configPendingManual

/-- The attempt on the active image: a failure of this target is forgotten. -/
def pollUnchanged (fresh : PollMetadata) (generation : String) (resolved : ResolvedImage)
    (etag : Option String) (activeId : Uuid) (release : Release) (pending : Option Uuid)
    (actual : Option (Uuid × String)) : Attempt Unit := do
  if pending.isSome ∨ actual.map (·.1) ≠ some activeId then
    recordSuccess fresh generation resolved etag .blockedDrift
  else
    ask (Call.clearSuppression (targetKey fresh.toAppMetadata resolved))
    recordSuccess fresh generation resolved etag (unchangedOutcome fresh.toAppMetadata release)

/-- The attempt once the image is known. -/
def pollResolved (generation : String) (latest : Option Deployment) (resolved : ResolvedImage)
    (etag : Option String) : Attempt Unit := do
  let fresh ← orGiveUp (← ask Call.readMetadata)
  let current ← orGiveUp (← ask (Call.pollGeneration fresh))
  if current ≠ generation ∨ fresh.autoDeployEnabled = false then return ()
  else
    let active ← orGiveUp (← ask (Call.readLink .active))
    let pending ← orGiveUp (← ask (Call.readLink .pending))
    match ← ask (Call.actualFact active) with
    | .error _ => recordSuccess fresh generation resolved etag .blockedDrift
    | .ok actual =>
      match ← loadLinked active with
      | some (activeId, release) =>
        if release.manifestDigest = resolved.manifestDigest then
          pollUnchanged fresh generation resolved etag activeId release pending actual
        else pollTarget fresh generation latest resolved etag active pending actual
      | none => pollTarget fresh generation latest resolved etag active pending actual

/-- What `NotModified` is worth: the release it confirms, if it does. -/
def pollConfirmed (previous : Option PollState) (active : Option (Uuid × Release))
    (pending : Option Uuid) (actual : Option (Uuid × String)) : Option Release :=
  match active, previous with
  | some (activeId, release), some previous =>
    if pending = none ∧ actual.map (·.1) = some activeId
        ∧ previous.lastManifestDigest = some release.manifestDigest then some release
    else none
  | _, _ => none

/-- The release of the active link, loaded where there is a row to compare it with. -/
def loadIfSeen (previous : Option PollState) (active : Option Uuid) :
    Attempt (Option (Uuid × Release)) :=
  if previous.isSome then loadLinked active else return none

/-- The attempt when the registry reports no change: it ends if the active release is the
manifest last seen and is running, and otherwise resolves in full. -/
def pollNotModified (generation : String) (latest : Option Deployment)
    (previous : Option PollState) (image : ImageReference) (platform : Platform)
    (credential : Option (String × String)) : Attempt Unit := do
  let fresh ← orGiveUp (← ask Call.readMetadata)
  let current ← orGiveUp (← ask (Call.pollGeneration fresh))
  if current ≠ generation ∨ fresh.autoDeployEnabled = false then return ()
  else
    let active ← orGiveUp (← ask (Call.readLink .active))
    let pending ← orGiveUp (← ask (Call.readLink .pending))
    let actual := (← ask (Call.actualFact active)).toOption.join
    let release ← loadIfSeen previous active
    match pollConfirmed previous release pending actual with
    | some release =>
      recordNotModified fresh generation (unchangedOutcome fresh.toAppMetadata release)
    | none =>
      match ← ask (Call.resolve image platform credential) with
      | none => return ()
      | some result =>
        let resolved ← orGiveUp result.toOption
        pollResolved generation latest resolved none

/-- How an error of the registry is recorded: its outcome, its class, and the number of
failures in a row. -/
def registryFailure (previous : Option PollState) (error : RegistryError) :
    PollOutcome × String × Nat :=
  let transient := error = .timeout ∨ error = .unavailable ∨ error = .rateLimited
  let failures :=
    if transient then
      min ((previous.map (·.consecutiveTransientFailures)).getD 0 + 1) 5
    else 0
  let outcome :=
    if error = .credentialRequired ∨ error = .credentialInvalid ∨ error = .forbidden then
      .credentialError
    else .registryError
  (outcome, if transient then "transient" else "deterministic", failures)

/-- The resolution and what follows from it. -/
def pollRegistry (metadata : PollMetadata) (generation : String) (latest : Option Deployment)
    (image : ImageReference) (credential : Option Credential) : Attempt Unit := do
  let probe ← orGiveUp (← ask Call.probe)
  let os ← orGiveUp probe.os
  let architecture ← orGiveUp probe.architecture
  let platform ← orGiveUp (Platform.canonical os architecture none).toOption
  let previous ← orGiveUp (← ask Call.pollState)
  let etag := (previous.filter (·.generation = generation)).bind (·.lastEtag)
  let login := credential.map fun c => (c.username, c.secret)
  match ← ask (Call.resolvePoll image platform login etag) with
  | none => return ()
  | some (.ok (.modified resolved etag)) => pollResolved generation latest resolved etag
  | some (.ok .notModified) =>
    pollNotModified generation latest previous image platform login
  | some (.error error) =>
    let (outcome, class_, failures) := registryFailure previous error
    recordError metadata generation outcome class_ error.publicCode failures

/-- The credential of the app, loaded. -/
def loadCredential : Option Uuid → Attempt (Option Credential)
  | none => return none
  | some id => do
    let credential ← orGiveUp (← ask (Call.loadCredential id))
    return some credential

/-- The attempt on an app whose last deployment does not need attention. -/
def pollApp (metadata : PollMetadata) (generation : String) (latest : Option Deployment) :
    Attempt Unit :=
  match metadata.discoveryImageRef with
  | none => return ()
  | some reference =>
    match ImageReference.parse reference with
    | .error error =>
      recordError metadata generation .invalidSource "deterministic" error.publicCode 0
    | .ok image => do
      let credential ← loadCredential metadata.credentialRef
      if credential.any fun c => c.registry != image.logicalRegistry then
        recordError metadata generation .credentialError "credential"
          "REGISTRY_CREDENTIAL_MISMATCH" 0
      else pollRegistry metadata generation latest image credential

def pollOne (due : DueEntry) : Attempt Unit := do
  let metadata ← orGiveUp (← ask Call.readMetadata)
  let generation ← orGiveUp (← ask (Call.pollGeneration metadata))
  if metadata.autoDeployEnabled = false ∨ generation ≠ due.generation then return ()
  else
    let latest ← orGiveUp (← ask Call.latestDeployment)
    if latest.any fun d => d.status = .needsAttention then
      recordError metadata generation .blockedAttention "attention" "DEPLOYMENT_NEEDS_ATTENTION" 0
    else pollApp metadata generation latest

end SoloDock.Poll
