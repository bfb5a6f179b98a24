import SoloDock.Deploy.Interface

/-!
# The deployment engine

`DeploymentEngine::run` of `deploy/worker.rs` and the functions it calls, as
programs over the interface of `Deploy/Interface.lean`, in the source's order: a
candidate is resolved (a new one, a pending one resumed, or an older release),
pulled, its predecessor stopped, the candidate started by Compose, observed,
verified, and committed; a candidate that fails is compensated by
`rollbackOrFail`. Every early exit is an `EngineError`, and `terminalStatus` maps it
to the terminal status of the deployment (`spawn`).
-/

namespace SoloDock.Deploy

open Lib Lib.Prog Registry Docker
open ImageReference (parse)

/-! ## Small steps -/

/-- `minimal_app`: what ownership is checked against. -/
def minimalApp (appId : Uuid) : EngineProg AppIdentity := do
  let metadata ← readMetadata .interrupted
  return { id := appId, projectName := projectName metadata.slug }

def resolvedFromRelease (r : Release) : ResolvedImage :=
  { sourceImageRef := r.sourceImageRef
    logicalRegistry := r.logicalRegistry
    repository := r.repository
    sourceTag := r.sourceTag
    sourceDescriptorDigest := r.sourceDescriptorDigest
    indexDigest := r.indexDigest
    manifestDigest := r.manifestDigest
    runnableImageRef := r.runnableImageRef
    platform := ⟨r.platformOs, r.platformArchitecture, r.platformVariant⟩
    localImageId := r.localImageId }

def Release.imageIdentity (r : Release) : Except RegistryError ImageIdentity :=
  ImageIdentity.new r.manifestDigest r.localImageId
    ⟨r.platformOs, r.platformArchitecture, r.platformVariant⟩

def candidateMatchesRelease (c : ContainerRecord) (r : Release) : Bool :=
  match r.imageIdentity with
  | .error _ => false
  | .ok identity =>
    c.configuredImageRef = some r.runnableImageRef
      && identity.matchesObservation c.imageId c.manifestDescriptor
      && (c.status = .running || c.status = .created || c.status = .restarting
        || c.status = .exited)

/-- The desired state a committed release leaves. -/
def desiredStateFor (config : Config) : DesiredState :=
  if config.health = .completed then .stopped else .running

/-- The platform text the ledger stores. -/
def platformText (os architecture : String) : String := os ++ "/" ++ architecture

/-- `release_run_context`: the metadata and the release are read before Compose runs;
the context itself is the release's Compose file. -/
def context (release : Uuid) : EngineProg Uuid := do
  let _ ← readMetadata .interrupted
  let _ ← loadV2Release .interrupted release
  return release

def cleanupPending (candidate : Uuid) : EngineProg Unit :=
  removePendingIf candidate

/-- `revalidate_bind_identity` on each bind. -/
def revalidateAll (err : EngineError) : List BindIdentity → EngineProg Unit
  | [] => return ()
  | identity :: rest => do
    revalidateBindIdentity err identity
    revalidateAll err rest

def validateRuntimePathsFresh (config : Config) : EngineProg (List BindIdentity) := do
  let snapshot ← probe fun _ => .interrupted
  validateRuntimePaths config snapshot.dockerRootDirectory

/-- `load_credential` and `load_credential_ref`: the credential of a reference must be
for the image's registry. -/
def loadCredentialRef (credentialRef : Option Uuid) (image : ImageReference) :
    EngineProg (Option Credential) :=
  match credentialRef with
  | none => return none
  | some id => do
    let value ← loadCredentialById id image.logicalRegistry
    ensure (value.registry = image.logicalRegistry) (.stable "REGISTRY_CREDENTIAL_MISMATCH")
    return some value

def verifyReleaseLinks (active : Option Uuid) (pending : Uuid) : EngineProg Unit := do
  let currentActive ← readReleaseLink .active
  ensure (currentActive = active) (.needsAttention "DEPLOYMENT_FACTS_CHANGED")
  let currentPending ← readReleaseLink .pending
  ensure (currentPending = some pending) (.needsAttention "DEPLOYMENT_FACTS_CHANGED")
  let _ ← loadV2Release (.needsAttention "RELEASE_INVALID") pending

/-! ## Observing the app's container -/

/-- `preflight`: the app has exactly the container the caller expects. -/
def preflight (appId : Uuid) (expectedRelease : Option Uuid)
    (expectedContainerId : Option String) : EngineProg (Option ContainerRecord) := do
  let app ← minimalApp appId
  let candidates ← listComposeAppContainers (.stable "DOCKER_UNAVAILABLE") app.projectName
  match candidates with
  | [] => do
    ensure (expectedRelease = none && expectedContainerId = none)
      (.needsAttention "CONTAINER_CHANGED")
    return none
  | [candidate] => do
    let release ← orStop (validateSyntacticIdentity candidate app)
      (.needsAttention "APP_CONTAINER_INVALID")
    ensure (some release = expectedRelease && expectedContainerId = some candidate.id)
      (.needsAttention "APP_CONTAINER_INVALID")
    return some candidate
  | _ => stop (.needsAttention "APP_CONTAINER_AMBIGUOUS")

def schedulePredecessor (record : Record) : EngineProg (Option ContainerRecord) :=
  preflight record.appId record.expectedActualReleaseId record.expectedActualContainerId

def noOpRuntimeConverged (record : Record) (active : Uuid) (release : Release) :
    EngineProg Bool :=
  if record.expectedActualReleaseId ≠ some active then return false
  else do
    match ← schedulePredecessor record with
    | none => return false
    | some container =>
      if !candidateMatchesRelease container release then return false
      else do
        let config ← loadVerified (.stable "RELEASE_INVALID") release.configRevision
        return match policyReady container.runtime config.health with
          | .ok ready => ready
          | .error _ => false

/-- `observe_owned_candidate`: exactly one container, of the release, and not the old
one. -/
def observeOwnedCandidate (appId release : Uuid) (oldId : Option String) :
    EngineProg ContainerRecord := do
  let app ← minimalApp appId
  let candidates ← listComposeAppContainers .interrupted app.projectName
  match candidates with
  | [candidate] => do
    let owner ← orStop (validateSyntacticIdentity candidate app)
      (.needsAttention "APP_CONTAINER_INVALID")
    ensure (owner = release) (.needsAttention "APP_CONTAINER_INVALID")
    ensure (oldId ≠ some candidate.id) (.needsAttention "CONTAINER_CHANGED")
    return candidate
  | _ => stop (.needsAttention "APP_CONTAINER_AMBIGUOUS")

inductive FailedApplyObservation where
  | noEffect
  | candidate (container : ContainerRecord)

/-- The single container after a failed apply is still the predecessor. -/
def isPredecessor (record : Record) (container : ContainerRecord) : Bool :=
  container.id = record.expectedActualContainerId.getD ""

def observeFailedApply (record : Record) (candidateId : Uuid) :
    EngineProg FailedApplyObservation := do
  let app ← minimalApp record.appId
  let candidates ← listComposeAppContainers .interrupted app.projectName
  match candidates with
  | [] => do
    ensure (record.expectedActualContainerId = none && record.expectedActualReleaseId = none)
      .interrupted
    return .noEffect
  | [container] =>
    if isPredecessor record container then do
      let predecessor ← minimalApp record.appId
      let owner ← orStop (validateSyntacticIdentity container predecessor) .interrupted
      if some owner = record.expectedActualReleaseId then return .noEffect
      else do
        let owner ← orStop (validateSyntacticIdentity container app) .interrupted
        ensure (owner = candidateId) .interrupted
        return .candidate container
    else do
      let owner ← orStop (validateSyntacticIdentity container app) .interrupted
      ensure (owner = candidateId) .interrupted
      return .candidate container
  | _ => stop .interrupted

/-! ## Resolving the candidate -/

/-- A resolved candidate: the image, its release id and its release. -/
structure Candidate where
  resolved : ResolvedImage
  id : Uuid
  release : Release

/-- A new candidate is recorded, published and returned. -/
def publishCandidate (metadata : AppMetadata) (active : Option Uuid) (image : ResolvedImage)
    (trigger : Trigger) (result : String) : EngineProg Candidate := do
  let candidateId ← newUuid
  resolvedRow candidateId active image.sourceImageRef image.sourceDescriptorDigest
    image.manifestDigest (platformText image.platform.os image.platform.architecture)
  transition .preparing .running result none
  let release ← publishV2Release metadata candidateId image trigger
  return ⟨image, candidateId, release⟩

/-- An existing release becomes the candidate. -/
def resumeRelease (active : Option Uuid) (release : Release) (id : Uuid) (result : String) :
    EngineProg Candidate := do
  resolvedRow id active release.sourceImageRef release.sourceDescriptorDigest
    release.manifestDigest (platformText release.platformOs release.platformArchitecture)
  transition .preparing .running result none
  return ⟨resolvedFromRelease release, id, release⟩

/-- `load_v2_release` where a failure is not an error. -/
def tryLoadV2Release (id : Uuid) : EngineProg (Option Release) :=
  .call (.loadV2Release id) .done

/-- The no-op branch of `resolve_manual`: the active release already is what was
resolved and its container is ready. -/
def manualNoOp (record : Record) (metadata : AppMetadata) (active : Option Uuid)
    (image : ResolvedImage) : EngineProg Unit :=
  match active with
  | none => return ()
  | some activeId => do
    let loaded ← tryLoadV2Release activeId
    match loaded with
    | none => return ()
    | some old =>
      if old.manifestDigest = image.manifestDigest
          ∧ some old.configRevision = metadata.draftRevision
          ∧ some old.configSha256 = metadata.draftConfigSha256
          ∧ record.expectedPendingReleaseId = none then do
        if ← noOpRuntimeConverged record activeId old then
          let config ← loadVerified (.stable "RELEASE_INVALID") old.configRevision
          finalizeActive (some activeId) activeId (desiredStateFor config)
          transition .terminal .noOp "no_op" none
          stop .alreadyTerminal
        else
          return ()
      else return ()

def resolveManual (record : Record) (metadata : AppMetadata) (active : Option Uuid) :
    EngineProg Candidate := do
  let reference ← orStop metadata.discoveryImageRef (.stable "APP_UNCONFIGURED")
  let image ← orElse (parse reference) fun e => .stable e.publicCode
  let snapshot ← probe .stable
  let os ← orStop snapshot.os (.stable "DOCKER_API_INCOMPATIBLE")
  let architecture ← orStop snapshot.architecture (.stable "DOCKER_API_INCOMPATIBLE")
  let platform ← orElse (Platform.canonical os architecture none) fun _ =>
    .stable "DOCKER_API_INCOMPATIBLE"
  let credential ← loadCredentialRef metadata.credentialRef image
  let resolved ← resolve image platform credential.isSome
  manualNoOp record metadata active resolved
  publishCandidate metadata active resolved .manual "resolved"

def resolveRollback (record : Record) (active : Option Uuid) : EngineProg Candidate := do
  let target ← orStop record.rollbackTargetReleaseId (.stable "ROLLBACK_TARGET_INVALID")
  let release ← loadV2Release (.stable "ROLLBACK_TARGET_INVALID") target
  resumeRelease active release target "rollback_target_verified"

/-- The part of `resolve_poll` that rebuilds the target from the ledger row. -/
def pollTarget (record : Record) (metadata : AppMetadata) : EngineProg ResolvedImage := do
  ensure metadata.autoDeployEnabled (.stable "AUTO_DEPLOY_DISABLED")
  let source ← orStop record.scheduledSourceImageRef (.stable "POLL_TARGET_INVALID")
  ensure (some source = metadata.discoveryImageRef) (.stable "DEPLOYMENT_FACTS_CHANGED")
  let image ← orElse (parse source) fun _ => .stable "POLL_TARGET_INVALID"
  let manifest ← orStop record.scheduledManifestDigest (.stable "POLL_TARGET_INVALID")
  let os ← orStop record.scheduledPlatformOs (.stable "POLL_TARGET_INVALID")
  let architecture ← orStop record.scheduledPlatformArchitecture (.stable "POLL_TARGET_INVALID")
  let platform ← orElse
    (Platform.canonical os architecture record.scheduledPlatformVariant) fun _ =>
      .stable "POLL_TARGET_INVALID"
  let repository ← orStop (record.scheduledRepository.filter (· = image.repository))
    (.stable "POLL_TARGET_INVALID")
  let descriptor ← orStop record.scheduledSourceDescriptorDigest (.stable "POLL_TARGET_INVALID")
  let runnable ← orElse (image.runnable manifest) fun _ => .stable "POLL_TARGET_INVALID"
  let localImageId ← orStop record.scheduledLocalImageId (.stable "POLL_TARGET_INVALID")
  return {
    sourceImageRef := source
    logicalRegistry := image.logicalRegistry
    repository
    sourceTag := image.tag
    sourceDescriptorDigest := descriptor
    indexDigest := record.scheduledIndexDigest
    manifestDigest := manifest
    runnableImageRef := runnable
    platform
    localImageId }

/-- The no-op branch of `resolve_poll`. -/
def pollNoOp (record : Record) (metadata : AppMetadata) (active : Option Uuid)
    (image : ResolvedImage) : EngineProg Unit :=
  match active with
  | none => return ()
  | some activeId => do
    let loaded ← tryLoadV2Release activeId
    match loaded with
    | none => return ()
    | some old =>
      if old.manifestDigest = image.manifestDigest then do
        ensure (some old.configRevision = metadata.draftRevision
          && some old.configSha256 = metadata.draftConfigSha256) (.stable "CONFIG_PENDING_MANUAL")
        if record.expectedPendingReleaseId = none then
          if ← noOpRuntimeConverged record activeId old then
            transition .terminal .noOp "no_op" none
            stop .alreadyTerminal
          else
            return ()
        else
          return ()
      else return ()

def resolvePoll (record : Record) (metadata : AppMetadata) (active : Option Uuid) :
    EngineProg Candidate := do
  let image ← pollTarget record metadata
  pollNoOp record metadata active image
  publishCandidate metadata active image .poll "poll_target_verified"

def resumePending (record : Record) (pending : Uuid) : EngineProg Candidate := do
  let release ← loadV2Release (.needsAttention "PENDING_RELEASE_INVALID") pending
  ensure (release.configRevision = record.requestedRevision) (.stable "DEPLOYMENT_FACTS_CHANGED")
  resumeRelease record.fromReleaseId release pending "pending_resumed"

def resumePollPending (record : Record) (pending : Uuid) : EngineProg Candidate := do
  let value ← resumePending record pending
  ensure (record.scheduledManifestDigest = some value.release.manifestDigest
    && record.scheduledSourceImageRef = some value.release.sourceImageRef
    && record.scheduledTargetKey.isSome && record.pollGeneration.isSome)
    (.needsAttention "POLL_PENDING_TARGET_CHANGED")
  return value

/-- The candidate of a run, by its trigger. -/
def resolveCandidate (record : Record) (metadata : AppMetadata) (active : Option Uuid) :
    EngineProg Candidate :=
  match record.trigger, record.expectedPendingReleaseId with
  | .manual, some pending => resumePending record pending
  | .manual, none => resolveManual record metadata active
  | .rollback, _ => resolveRollback record active
  | .poll, some pending => resumePollPending record pending
  | .poll, none => resolvePoll record metadata active

/-! ## Compensation -/

/-- The release and its configuration, read again right before an effect. -/
def reloadCandidate (candidate : Uuid) (release : Release) : EngineProg Config := do
  let final ← loadV2Release (.needsAttention "RELEASE_INVALID") candidate
  ensure (final = release) (.needsAttention "RELEASE_INVALID")
  loadVerified (.needsAttention "RELEASE_INVALID") final.configRevision

/-- `remove_first_deploy_candidate`: stop and remove the only container and see that
none is left. -/
def removeFirstDeployCandidate (candidate : Uuid) : EngineProg Unit := do
  let metadata ← readMetadata .interrupted
  let _ ← loadV2Release .interrupted candidate
  let stopped ← composeRun .stop candidate
  orElse stopped fun _ => .needsAttention "CANDIDATE_CLEANUP_FAILED"
  let removed ← composeRun .remove candidate
  orElse removed fun _ => .needsAttention "CANDIDATE_CLEANUP_FAILED"
  let remaining ← listComposeAppContainers (.needsAttention "CANDIDATE_CLEANUP_FAILED")
    (projectName metadata.slug)
  ensure remaining.isEmpty (.needsAttention "CANDIDATE_CLEANUP_FAILED")
  markRollbackObserved none
  removePendingIf candidate

/-- The branch of `rollback_or_fail` without an active release. -/
def compensateFirstDeploy (record : Record) (candidate : Uuid) (release : Release)
    (container : ContainerRecord) (code : String) : EngineProg Unit := do
  markRollbackStarted container.id
  verifyReleaseLinks none candidate
  let config ← reloadCandidate candidate release
  let binds ← validateRuntimePathsFresh config
  validateResourcesForDetach config (some container.id)
  let final ← observeOwnedCandidate record.appId candidate none
  ensure (final.id = container.id) .interrupted
  revalidateAll (.needsAttention "BIND_CHANGED") binds
  removeFirstDeployCandidate candidate
  stop (.stable code)

/-- The checks `rollback_or_fail` makes before it stops the candidate: the two releases
again, the old one's configuration, binds, resources and network. -/
def prepareRollback (record : Record) (oldId candidate : Uuid) (old release : Release)
    (container : ContainerRecord) :
    EngineProg (Config × List BindIdentity × ContainerRecord) := do
  verifyReleaseLinks (some oldId) candidate
  let finalOld ← loadV2Release (.needsAttention "ROLLBACK_TARGET_INVALID") oldId
  let finalCandidate ← loadV2Release (.needsAttention "RELEASE_INVALID") candidate
  ensure (finalOld = old && finalCandidate = release) (.needsAttention "RELEASE_INVALID")
  let config ← loadVerified (.needsAttention "ROLLBACK_TARGET_INVALID") finalOld.configRevision
  let binds ← validateRuntimePathsFresh config
  let fresh ← observeOwnedCandidate record.appId candidate none
  ensure (fresh.id = container.id) .interrupted
  validateResources config (some fresh.id)
  revalidateAll (.needsAttention "BIND_CHANGED") binds
  validateBindPlan false config
  if config.serviceDiscoveryEnabled then
    let slug ← catalogGet
    ensureForApp false slug [fresh.id]
    return (config, binds, fresh)
  else
    return (config, binds, fresh)

/-- Compose stops the candidate, and its binds are checked again. -/
def stopCandidate (record : Record) (candidate : Uuid) (config : Config)
    (binds : List BindIdentity) (fresh : ContainerRecord) : EngineProg Unit := do
  let release ← context candidate
  let stopped ← composeRun .stop release
  orElse stopped fun _ => .needsAttention "ROLLBACK_FAILED"
  let observed ← observeOwnedCandidate record.appId candidate none
  ensure (observed.id = fresh.id && observed.status = .exited) (.needsAttention "ROLLBACK_FAILED")
  let postStop ← validateRuntimePathsFresh config
  ensure (postStop = binds) (.needsAttention "BIND_CHANGED")
  revalidateAll (.needsAttention "BIND_CHANGED") postStop
  validateBindPlan false config

/-- What `rollback_or_fail` makes of a failed start of the old release. -/
def rollbackComposeError (e : ComposeError) : EngineError :=
  if e.isValidation then .needsAttention "ROLLBACK_FAILED" else .interrupted

/-- The old release is started, observed and verified. -/
def startOldRelease (record : Record) (oldId : Uuid) (old : Release) (config : Config)
    (fresh : ContainerRecord) : EngineProg Unit := do
  let release ← context oldId
  let started ← composeRun .deployCandidate release
  orElse started rollbackComposeError
  let container ← observeOwnedCandidate record.appId oldId (some fresh.id)
  ensure (candidateMatchesRelease container old) (.needsAttention "ROLLBACK_FAILED")
  markRollbackObserved (some container.id)
  transition .verifyingRollback .running "rollback_applied" none
  let identity ← orElse old.imageIdentity fun _ => .needsAttention "ROLLBACK_TARGET_INVALID"
  let health ← verifyHealth container.id oldId old.runnableImageRef identity config.health
  let verified ← orElse health fun _ => .needsAttention "ROLLBACK_HEALTH_FAILED"
  let final ← observeOwnedCandidate record.appId oldId none
  ensure (final.id = container.id && candidateMatchesRelease final old)
    (.needsAttention "ROLLBACK_HEALTH_FAILED")
  orElse (recheck verified final config.health) fun _ =>
    .needsAttention "ROLLBACK_HEALTH_FAILED"

/-- What `rollback_or_fail` makes of a failed pull of the old image. -/
def rollbackPullError : PullError → EngineError
  | .interrupted => .interrupted
  | e => .needsAttention e.publicCode

/-- The branch of `rollback_or_fail` with an active release. -/
def rollBack (record : Record) (oldId candidate : Uuid) (release : Release)
    (container : ContainerRecord) (code : String) : EngineProg Unit := do
  let old ← loadV2Release (.needsAttention "ROLLBACK_TARGET_INVALID") oldId
  let image ← orElse (parse old.sourceImageRef) fun _ =>
    .needsAttention "ROLLBACK_TARGET_INVALID"
  let credential ← loadCredentialRef old.credentialRef image
  let pulled ← pull (resolvedFromRelease old) credential
  orElse pulled rollbackPullError
  markRollbackStarted container.id
  let (config, binds, fresh) ← prepareRollback record oldId candidate old release container
  stopCandidate record candidate config binds fresh
  startOldRelease record oldId old config fresh
  cleanupPending candidate
  refresh
  transition .terminal .rolledBack "rolled_back" (some code)

def rollbackOrFail (record : Record) (active : Option Uuid) (candidate : Uuid)
    (container : ContainerRecord) (code : String) : EngineProg Unit := do
  let release ← loadV2Release (.needsAttention "RELEASE_INVALID") candidate
  transition .rollingBack .running "candidate_failed" (some code)
  match active with
  | none => compensateFirstDeploy record candidate release container code
  | some oldId => rollBack record oldId candidate release container code

/-- `restore_predecessor`: start the stopped predecessor again and see it run. -/
def restorePredecessor (record : Record) (predecessor : Option ContainerRecord)
    (expectedBinds : List BindIdentity) : EngineProg Unit :=
  match predecessor with
  | none => return ()
  | some predecessor =>
    if predecessor.status = .exited then return ()
    else do
      let releaseId ← orStop record.expectedActualReleaseId
        (.needsAttention "PREDECESSOR_RESTORE_FAILED")
      let release ← loadV2Release (.needsAttention "PREDECESSOR_RESTORE_FAILED") releaseId
      let config ← loadVerified (.needsAttention "PREDECESSOR_RESTORE_FAILED")
        release.configRevision
      let identities ← validateRuntimePathsFresh config
      ensure (identities = expectedBinds) (.needsAttention "BIND_CHANGED")
      revalidateAll (.needsAttention "BIND_CHANGED") identities
      validateBindPlan false config
      let target ← context releaseId
      let started ← composeRun .start target
      orElse started fun _ => .needsAttention "PREDECESSOR_RESTORE_FAILED"
      let observed ← (preflight record.appId (some releaseId) (some predecessor.id)).attempt
      let observed ← orElse observed fun _ => .needsAttention "PREDECESSOR_RESTORE_FAILED"
      let restored ← orStop observed (.needsAttention "PREDECESSOR_RESTORE_FAILED")
      ensure (restored.status = .running) (.needsAttention "PREDECESSOR_RESTORE_FAILED")

/-! ## The run -/

/-- The pending link names the candidate, unless it does already. -/
def publishPending (candidate : Uuid) : EngineProg Unit := do
  let pendingBefore ← readReleaseLink .pending
  if pendingBefore ≠ some candidate then setPending candidate else return ()

/-- What `run` makes of a failed pull. -/
def pullFailed (record : Record) (candidate : Uuid) : PullError → EngineProg Unit
  | .interrupted => stop .interrupted
  | .cleanupFailed => stop (.needsAttention PullError.cleanupFailed.publicCode)
  | .outputUnsafe => stop (.needsAttention PullError.outputUnsafe.publicCode)
  | e =>
    -- a resumed candidate may already exist even though this attempt has not applied it
    if record.expectedPendingReleaseId.isNone then do
      cleanupPending candidate
      stop (.stable e.publicCode)
    else
      stop (.needsAttention e.publicCode)

/-- Publish the pending link and pull the candidate's image. -/
def pullCandidate (record : Record) (candidate : Candidate) : EngineProg Unit := do
  publishPending candidate.id
  refresh
  transition .pulling .running "candidate_published" none
  let image ← orElse (parse candidate.release.sourceImageRef) fun e =>
    .stable e.publicCode
  let credential ← loadCredentialRef candidate.release.credentialRef image
  match ← pull candidate.resolved credential with
  | .ok () => return ()
  | .error e => pullFailed record candidate.id e

/-- What is fixed right before the effects: the configuration, its binds, the observed
predecessor and the predecessor's binds. -/
structure Prepared where
  config : Config
  binds : List BindIdentity
  predecessor : Option ContainerRecord
  predecessorBinds : List BindIdentity

/-- The network check of an app with service discovery. -/
def checkNetwork (config : Config) (predecessor : Option ContainerRecord) : EngineProg Unit :=
  if config.serviceDiscoveryEnabled then do
    let slug ← catalogGet
    ensureForApp true slug (predecessor.map (·.id)).toList
  else return ()

/-- The predecessor's release, configuration and binds. -/
def loadPredecessorBinds (record : Record) : EngineProg (List BindIdentity) :=
  match record.expectedActualReleaseId with
  | none => return []
  | some releaseId => do
    let _ ← context releaseId
    let release ← loadV2Release (.needsAttention "PREDECESSOR_RESTORE_FAILED") releaseId
    let config ← loadVerified (.needsAttention "PREDECESSOR_RESTORE_FAILED")
      release.configRevision
    validateRuntimePathsFresh config

/-- The checks between the pull and the first effect. -/
def prepareEffects (record : Record) (active : Option Uuid) (candidate : Candidate) :
    EngineProg Prepared := do
  transition .applying .running "image_verified" none
  let predecessor ← schedulePredecessor record
  markEffectStarted (predecessor.map (·.id)) (predecessor.bind (·.runtime.startedAt))
  verifyReleaseLinks active candidate.id
  let config ← reloadCandidate candidate.id candidate.release
  let binds ← validateRuntimePathsFresh config
  validateBindPlan true config
  let finalPredecessor ← schedulePredecessor record
  ensure (finalPredecessor.map (·.id) = predecessor.map (·.id))
    (.needsAttention "CONTAINER_CHANGED")
  validateResources config (finalPredecessor.map (·.id))
  revalidateAll (.stable "BIND_CHANGED") binds
  checkNetwork config finalPredecessor
  let predecessorBinds ← loadPredecessorBinds record
  return ⟨config, binds, predecessor, predecessorBinds⟩

/-- Compose stops the predecessor, which must then be seen exited. -/
def stopPredecessor (record : Record) : EngineProg Unit :=
  match record.expectedActualReleaseId with
  | none => return ()
  | some releaseId => do
    match ← composeRun .stop releaseId with
    | .error _ => stop .interrupted
    | .ok () =>
      match ← schedulePredecessor record with
      | some stopped => ensure (stopped.status = .exited) .interrupted
      | none => stop .interrupted

/-- The binds are checked once more after the predecessor stopped. -/
def recheckBinds (prepared : Prepared) : EngineProg Unit := do
  let postStop ← validateRuntimePathsFresh prepared.config
  ensure (postStop = prepared.binds) (.stable "BIND_CHANGED")
  revalidateAll (.stable "BIND_CHANGED") postStop
  validateBindPlan true prepared.config

/-- What a run does when Compose failed to start the candidate. -/
def handleFailedApply (record : Record) (active : Option Uuid) (candidate : Candidate)
    (prepared : Prepared) (error : ComposeError) : EngineProg Unit := do
  if error = .cancelled then
    stop .interrupted
  else
    match ← observeFailedApply record candidate.id with
    | .candidate container => do
      markEffectObserved container.id
      rollbackOrFail record active candidate.id container error.publicCode
    | .noEffect => do
      restorePredecessor record prepared.predecessor prepared.predecessorBinds
      if error.isValidation then
        cleanupPending candidate.id
        stop (.stable error.publicCode)
      else
        stop .interrupted

/-- The commit, after the health gate. -/
def commitCandidate (record : Record) (active : Option Uuid) (candidate : Candidate)
    (config : Config) (container verified : ContainerRecord) : EngineProg Unit := do
  setHealth config.health verified
  transition .committing .running "health_passed" none
  verifyReleaseLinks active candidate.id
  let final ← observeOwnedCandidate record.appId candidate.id none
  ensure (final.id = container.id) (.needsAttention "CONTAINER_CHANGED")
  let finalHealth : Except HealthError Unit :=
    if !candidateMatchesRelease final candidate.release then .error .identityMismatch
    else recheck verified final config.health
  match finalHealth with
  | .error e => rollbackOrFail record active candidate.id final e.publicCode
  | .ok () => do
    finalizeActive active candidate.id (desiredStateFor config)
    refresh
    transition .terminal .succeeded "committed" none

/-- Observe, verify and commit a candidate that Compose started. -/
def verifyCandidate (record : Record) (active : Option Uuid) (candidate : Candidate)
    (prepared : Prepared) : EngineProg Unit := do
  let container ← observeOwnedCandidate record.appId candidate.id (prepared.predecessor.map (·.id))
  markEffectObserved container.id
  if !candidateMatchesRelease container candidate.release then
    rollbackOrFail record active candidate.id container "CANDIDATE_INVALID"
  else
    transition .verifying .running "candidate_applied" none
    let identity ← orElse candidate.release.imageIdentity fun _ =>
      .needsAttention "RELEASE_INVALID"
    match ← verifyHealth container.id candidate.id candidate.release.runnableImageRef identity
        prepared.config.health with
    | .ok verified => commitCandidate record active candidate prepared.config container verified
    | .error .interrupted => stop .interrupted
    | .error .observation => stop .interrupted
    | .error .changed => stop .interrupted
    | .error e => rollbackOrFail record active candidate.id container e.publicCode

/-- The part of `run` after the candidate is known. -/
def applyCandidate (record : Record) (active : Option Uuid) (candidate : Candidate) :
    EngineProg Unit := do
  pullCandidate record candidate
  let prepared ← prepareEffects record active candidate
  stopPredecessor record
  recheckBinds prepared
  let release ← context candidate.id
  match ← composeRun .deployCandidate release with
  | .error e => handleFailedApply record active candidate prepared e
  | .ok () => verifyCandidate record active candidate prepared

def run : EngineProg Unit := do
  let record ← ledgerGet .internal
  transition .resolving .running "started" none
  let metadata ← readMetadata (.stable "APP_NOT_FOUND")
  ensure (metadata.draftRevision = some record.requestedRevision)
    (.stable "DEPLOYMENT_FACTS_CHANGED")
  let active ← readReleaseLink .active
  let pending ← readReleaseLink .pending
  ensure (active = record.fromReleaseId && pending = record.expectedPendingReleaseId)
    (.stable "DEPLOYMENT_FACTS_CHANGED")
  let _ ← schedulePredecessor record
  match ← (resolveCandidate record metadata active).attempt with
  | .ok candidate => applyCandidate record active candidate
  | .error .alreadyTerminal => return ()
  | .error e => stop e

/-- The terminal status and code of an error, as `record_terminal_error` maps it. -/
def terminalStatus : EngineError → Status × String
  | .interrupted => (.interrupted, "DEPLOYMENT_INTERRUPTED")
  | .needsAttention code => (.needsAttention, code)
  | .stable code => (.failed, code)
  | .internal | .alreadyTerminal => (.interrupted, "DEPLOYMENT_INTERNAL")

/-- `DeploymentEngine::spawn`: run, and record an error as the terminal status. -/
def spawn : EngineProg Unit := do
  match ← run.attempt with
  | .ok () => return ()
  | .error e => do
    refresh
    let (status, code) := terminalStatus e
    let _recorded : Option Unit ← .call (.transition .terminal status "failed" (some code)) .done
    return ()

end SoloDock.Deploy
