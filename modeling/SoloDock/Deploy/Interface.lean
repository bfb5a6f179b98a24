import SoloDock.Docker.Container

/-!
# What a deployment reads and calls

The data of `deploy/ledger.rs`, `app_store/releases.rs` and `domain/` that the
deployment engine reads, and the calls it makes: the ledger, the app store, the
credential store, the registry, the puller, Docker, Compose, the health verifier
and the checks of `api/mutations.rs` it shares with the lifecycle handler.

An answer `none` is the interface's error where the engine does not look at it.
-/

namespace SoloDock.Deploy

open Lib Registry Docker
open Lib.Prog (orStop)

/-- `DeploymentTrigger`. -/
inductive Trigger where
  | manual | rollback | poll
deriving DecidableEq, Repr

/-- `DeploymentStatus`. -/
inductive Status where
  | queued | running | succeeded | noOp | failed | rolledBack | needsAttention | interrupted
deriving DecidableEq, Repr

/-- `DeploymentPhase`. -/
inductive Phase where
  | queued | resolving | preparing | pulling | applying | verifying | committing | rollingBack
  | verifyingRollback | terminal
deriving DecidableEq, Repr

inductive DesiredState where
  | stopped | running
deriving DecidableEq, Repr

/-- `DeploymentRecord`: the facts a run was scheduled on, and where it is. -/
structure Record where
  id : Uuid
  appId : Uuid
  trigger : Trigger
  requestedRevision : Uuid
  fromReleaseId : Option Uuid
  expectedPendingReleaseId : Option Uuid
  expectedActualReleaseId : Option Uuid
  expectedActualContainerId : Option String
  rollbackTargetReleaseId : Option Uuid
  scheduledSourceImageRef : Option String
  scheduledSourceDescriptorDigest : Option String
  scheduledManifestDigest : Option String
  scheduledIndexDigest : Option String
  scheduledPlatformOs : Option String
  scheduledPlatformArchitecture : Option String
  scheduledPlatformVariant : Option String
  scheduledLocalImageId : Option String
  scheduledRepository : Option String
  scheduledTargetKey : Option String
  pollGeneration : Option String
deriving DecidableEq, Repr

/-- `AppMetadata`, as far as a deployment reads it. -/
structure AppMetadata where
  id : Uuid
  slug : String
  discoveryImageRef : Option String
  credentialRef : Option Uuid
  draftRevision : Option Uuid
  draftConfigSha256 : Option String
  autoDeployEnabled : Bool
deriving DecidableEq, Repr

/-- `AppResourceIdentity::resource_names`, the Compose project. -/
def projectName (slug : String) : String := "solodock-" ++ slug

/-- `ReleaseV2`. -/
structure Release where
  schemaVersion : Nat
  composeSchemaVersion : Nat
  id : Uuid
  appId : Uuid
  configRevision : Uuid
  configSha256 : String
  stopGracePeriodSeconds : Nat
  serviceDiscoveryEnabled : Bool
  sourceImageRef : String
  logicalRegistry : String
  repository : String
  sourceTag : String
  sourceDescriptorDigest : String
  indexDigest : Option String
  manifestDigest : String
  runnableImageRef : String
  platformOs : String
  platformArchitecture : String
  platformVariant : Option String
  localImageId : String
  composeSha256 : String
  credentialRef : Option Uuid
  trigger : Trigger
  sourceReleaseId : Option Uuid
  createdAt : String
  integrityHmac : String
deriving DecidableEq, Repr

/-- `ConfigMetadata`, as far as a deployment reads it; the binds are read by the path
checks only, through the revision they belong to. -/
structure Config where
  revision : Uuid
  serviceDiscoveryEnabled : Bool
  health : HealthPolicy
deriving DecidableEq, Repr

structure BindIdentity where
  path : String
  device : Nat
  inode : Nat
deriving DecidableEq, Repr

/-- `ProbeSnapshot`, as far as a deployment reads it. -/
structure Probe where
  os : Option String
  architecture : Option String
  dockerRootDirectory : Option String
deriving DecidableEq, Repr

/-- A loaded registry credential. -/
structure Credential where
  registry : String
  username : String
  secret : String
deriving DecidableEq, Repr

inductive PullError where
  | unavailable | permissionDenied | credentialInvalid | diskPressure | memoryPressure
  | verificationFailed | interrupted | outputUnsafe | unsafePath | cleanupFailed
deriving DecidableEq, Repr

def PullError.publicCode : PullError → String
  | .unavailable => "DOCKER_PULL_UNAVAILABLE"
  | .permissionDenied => "DOCKER_PERMISSION_DENIED"
  | .credentialInvalid => "REGISTRY_CREDENTIAL_INVALID"
  | .diskPressure | .memoryPressure => "RESOURCE_PRESSURE"
  | .verificationFailed => "IMAGE_VERIFICATION_FAILED"
  | .interrupted => "DEPLOYMENT_INTERRUPTED"
  | .outputUnsafe => "SECRET_OUTPUT_REJECTED"
  | .unsafePath => "RUNTIME_PATH_UNSAFE"
  | .cleanupFailed => "CREDENTIAL_CLEANUP_FAILED"

inductive ComposeError where
  | unavailable | incompatible | permissionDenied | validationFailed | timeout | cancelled
  | unknownEffect | outputInvalid | unsafePath
deriving DecidableEq, Repr

def ComposeError.publicCode : ComposeError → String
  | .unavailable => "COMPOSE_UNAVAILABLE"
  | .incompatible => "COMPOSE_INCOMPATIBLE"
  | .permissionDenied => "COMPOSE_PERMISSION_DENIED"
  | .validationFailed | .outputInvalid | .unsafePath => "COMPOSE_VALIDATION_FAILED"
  | .timeout => "COMPOSE_TIMEOUT"
  | .cancelled => "OPERATION_INTERRUPTED"
  | .unknownEffect => "COMPOSE_EFFECT_UNKNOWN"

/-- Compose refused the document before it touched anything. -/
def ComposeError.isValidation : ComposeError → Bool
  | .validationFailed | .outputInvalid | .unsafePath => true
  | _ => false

/-- The `ComposeAction`s a deployment runs. -/
inductive ComposeAction where
  | start | deployCandidate | stop | remove
deriving DecidableEq, Repr

/-- The two release links of an app. -/
inductive Link where
  | active | pending
deriving DecidableEq, Repr

inductive EngineError where
  | stable (code : String)
  | needsAttention (code : String)
  | interrupted
  | internal
  | alreadyTerminal
deriving DecidableEq, Repr

/-- The calls of a deployment run. -/
inductive Call where
  -- the deployment ledger
  | ledgerGet
  | transition (phase : Phase) (status : Status) (result : String) (code : Option String)
  | resolved (candidate : Uuid) (predecessor : Option Uuid)
      (source descriptor manifest platform : String)
  | markEffectStarted (preContainerId preStartedAt : Option String)
  | markEffectObserved (postContainerId : String)
  | markRollbackStarted (preContainerId : String)
  | markRollbackObserved (postContainerId : Option String)
  | setHealth (policy : HealthPolicy) (verified : ContainerRecord)
  -- the app store
  | readMetadata
  | readReleaseLink (link : Link)
  | loadV2Release (id : Uuid)
  | loadVerified (revision : Uuid)
  | publishV2Release (app : AppMetadata) (id : Uuid) (resolved : ResolvedImage)
      (trigger : Trigger)
  | setPending (id : Uuid)
  | removePendingIf (expected : Uuid)
  | finalizeActive (expectedActive : Option Uuid) (candidate : Uuid) (desired : DesiredState)
  | newUuid
  | refresh
  | catalogGet
  -- registry, credentials and images
  | loadCredential (id : Uuid) (expected : String)
  | resolve (image : ImageReference) (platform : Platform) (authenticated : Bool)
  | pull (image : ResolvedImage) (credential : Option Credential)
  -- Docker and Compose
  | probe
  | listComposeAppContainers (project : String)
  | compose (action : ComposeAction) (release : Uuid)
  | verifyHealth (containerId : String) (release : Uuid) (imageRef : String)
      (identity : ImageIdentity) (policy : HealthPolicy)
  | ensureForApp (slug : String) (allowed : List String)
  -- the checks shared with the lifecycle handler
  | validateRuntimePaths (config : Config) (dockerRoot : Option String)
  | validateBindPlan (config : Config)
  | validateResources (config : Config) (container : Option String)
  | validateResourcesForDetach (config : Config) (container : Option String)
  | revalidateBindIdentity (identity : BindIdentity)

/-- What each call is answered with. -/
def Call.Answer : Call → Type
  | .ledgerGet => Option Record
  | .transition .. | .resolved .. | .markEffectStarted .. | .markEffectObserved ..
  | .markRollbackStarted .. | .markRollbackObserved .. | .setHealth .. => Option Unit
  | .readMetadata .. => Option AppMetadata
  | .readReleaseLink .. => Option (Option Uuid)
  | .loadV2Release .. => Option Release
  | .loadVerified _ => Option Config
  | .publishV2Release .. => Option Release
  | .setPending _ | .removePendingIf _ | .finalizeActive .. => Option Unit
  | .newUuid => Uuid
  | .refresh => Unit
  | .catalogGet => Option String
  | .loadCredential .. => Option Credential
  | .resolve .. => Except RegistryError ResolvedImage
  | .pull .. => Except PullError Unit
  | .probe => Except String Probe
  | .listComposeAppContainers .. => Option (List ContainerRecord)
  | .compose .. => Except ComposeError Unit
  | .verifyHealth .. => Except HealthError ContainerRecord
  | .ensureForApp .. => Except String Unit
  | .validateRuntimePaths .. => Except String (List BindIdentity)
  | .validateBindPlan .. => Except String Unit
  | .validateResources .. | .validateResourcesForDetach .. => Except String Unit
  | .revalidateBindIdentity .. => Option Unit

/-- A program of the deployment engine. -/
abbrev EngineProg := Prog Call Call.Answer EngineError

/-! One function per call; `err` is what the engine makes of a failure there. -/

section Calls

variable (err : EngineError)

def ledgerGet : EngineProg Record := .call .ledgerGet (orStop · err)

def transition (phase : Phase) (status : Status) (result : String) (code : Option String) :
    EngineProg Unit :=
  .call (.transition phase status result code) (orStop · .internal)

def resolvedRow (candidate : Uuid) (predecessor : Option Uuid)
    (source descriptor manifest platform : String) : EngineProg Unit :=
  .call (.resolved candidate predecessor source descriptor manifest platform)
    (orStop · .internal)

def markEffectStarted (preContainerId preStartedAt : Option String) : EngineProg Unit :=
  .call (.markEffectStarted preContainerId preStartedAt) (orStop · .internal)

def markEffectObserved (postContainerId : String) : EngineProg Unit :=
  .call (.markEffectObserved postContainerId) (orStop · .internal)

def markRollbackStarted (preContainerId : String) : EngineProg Unit :=
  .call (.markRollbackStarted preContainerId) (orStop · .internal)

def markRollbackObserved (postContainerId : Option String) : EngineProg Unit :=
  .call (.markRollbackObserved postContainerId) (orStop · .internal)

def setHealth (policy : HealthPolicy) (verified : ContainerRecord) : EngineProg Unit :=
  .call (.setHealth policy verified) (orStop · .internal)

def readMetadata : EngineProg AppMetadata := .call .readMetadata (orStop · err)

def readReleaseLink (link : Link) : EngineProg (Option Uuid) :=
  .call (.readReleaseLink link) (orStop · .internal)

def loadV2Release (id : Uuid) : EngineProg Release :=
  .call (.loadV2Release id) (orStop · err)

def loadVerified (revision : Uuid) : EngineProg Config :=
  .call (.loadVerified revision) (orStop · err)

def publishV2Release (app : AppMetadata) (id : Uuid) (resolved : ResolvedImage)
    (trigger : Trigger) : EngineProg Release :=
  .call (.publishV2Release app id resolved trigger) (orStop · (.stable "RELEASE_INVALID"))

def setPending (id : Uuid) : EngineProg Unit :=
  .call (.setPending id) (orStop · .internal)

def removePendingIf (expected : Uuid) : EngineProg Unit :=
  .call (.removePendingIf expected) (orStop · .interrupted)

def finalizeActive (expectedActive : Option Uuid) (candidate : Uuid) (desired : DesiredState) :
    EngineProg Unit :=
  .call (.finalizeActive expectedActive candidate desired)
    (orStop · (.needsAttention "ACTIVE_FINALIZE_FAILED"))

def newUuid : EngineProg Uuid := .call .newUuid .done

def refresh : EngineProg Unit := .call .refresh .done

def catalogGet : EngineProg String :=
  .call .catalogGet (orStop · (.needsAttention "APP_NOT_FOUND"))

def loadCredentialById (id : Uuid) (registry : String) : EngineProg Credential :=
  .call (.loadCredential id registry) (orStop · (.stable "REGISTRY_CREDENTIAL_INVALID"))

def resolve (image : ImageReference) (platform : Platform) (authenticated : Bool) :
    EngineProg ResolvedImage :=
  .call (.resolve image platform authenticated) (Prog.orElse · fun e => .stable e.publicCode)

def pull (image : ResolvedImage) (credential : Option Credential) :
    EngineProg (Except PullError Unit) :=
  .call (.pull image credential) .done

def probe (onError : String → EngineError) : EngineProg Probe :=
  .call .probe (Prog.orElse · onError)

def listComposeAppContainers (project : String) : EngineProg (List ContainerRecord) :=
  .call (.listComposeAppContainers project) (orStop · err)

def composeRun (action : ComposeAction) (release : Uuid) : EngineProg (Except ComposeError Unit) :=
  .call (.compose action release) .done

def verifyHealth (containerId : String) (release : Uuid) (imageRef : String)
    (identity : ImageIdentity) (policy : HealthPolicy) :
    EngineProg (Except HealthError ContainerRecord) :=
  .call (.verifyHealth containerId release imageRef identity policy) .done

/-- A failed check ends the deployment, or asks for attention. -/
def verdict (rejects : Bool) (code : String) : EngineError :=
  if rejects then .stable code else .needsAttention code

def ensureForApp (rejects : Bool) (slug : String) (allowed : List String) : EngineProg Unit :=
  .call (.ensureForApp slug allowed) (Prog.orElse · (verdict rejects))

def validateRuntimePaths (config : Config) (dockerRoot : Option String) :
    EngineProg (List BindIdentity) :=
  .call (.validateRuntimePaths config dockerRoot) (Prog.orElse · .needsAttention)

def validateBindPlan (rejects : Bool) (config : Config) : EngineProg Unit :=
  .call (.validateBindPlan config) (Prog.orElse · (verdict rejects))

def validateResources (config : Config) (container : Option String) : EngineProg Unit :=
  .call (.validateResources config container) (Prog.orElse · .needsAttention)

def validateResourcesForDetach (config : Config) (container : Option String) :
    EngineProg Unit :=
  .call (.validateResourcesForDetach config container) (Prog.orElse · .needsAttention)

def revalidateBindIdentity (identity : BindIdentity) : EngineProg Unit :=
  .call (.revalidateBindIdentity identity) (orStop · err)

end Calls

end SoloDock.Deploy
