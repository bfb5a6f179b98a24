import SoloDock.Registry.Client

/-!
# Containers and their owner

What Docker reports about a container, and when a container belongs to an app:
`validate_syntactic_identity` of `docker/ownership.rs` reads seven labels, all of
which must be exact. Image identity (`registry/image_identity.rs`) and health
readiness (`deploy/health.rs`) are predicates on one observed container.
-/

namespace SoloDock.Docker

open Lib Registry

inductive ContainerStatus where
  | missing | created | running | paused | restarting | removing | exited | dead | unknown
deriving DecidableEq, Repr

inductive HealthStatus where
  | none | starting | healthy | unhealthy | unknown
deriving DecidableEq, Repr

structure ManifestDescriptor where
  digest : Option String
  os : Option String
  architecture : Option String
  variant : Option String
deriving DecidableEq, Repr

/-- The part of a container that its own life changes. -/
structure Runtime where
  status : ContainerStatus
  health : HealthStatus
  exitCode : Option Int
  restartCount : Option Int
  startedAt : Option String
deriving DecidableEq, Repr

/-- `ContainerRecord`, as far as the deployment engine and the lifecycle handler read
it. -/
structure ContainerRecord where
  id : String
  labels : List (String × String)
  runtime : Runtime
  configuredImageRef : Option String
  imageId : Option String
  manifestDescriptor : Option ManifestDescriptor
deriving DecidableEq, Repr

/-- The container's status. -/
abbrev ContainerRecord.status (c : ContainerRecord) : ContainerStatus := c.runtime.status

def managedLabel : String := "com.solodock.managed"
def schemaLabel : String := "com.solodock.schema-version"
def appIdLabel : String := "com.solodock.app-id"
def releaseIdLabel : String := "com.solodock.release-id"
def projectLabel : String := "com.docker.compose.project"
def serviceLabel : String := "com.docker.compose.service"
def oneoffLabel : String := "com.docker.compose.oneoff"

/-- The labels of a container, read by name. -/
def ContainerRecord.label (c : ContainerRecord) (name : String) : Option String :=
  c.labels.lookup name

/-- The release a container's label names. -/
def ContainerRecord.releaseId (c : ContainerRecord) : Option Uuid :=
  (c.label releaseIdLabel).bind canonicalUuid

/-- What ownership is checked against: the app's id and its Compose project. -/
structure AppIdentity where
  id : Uuid
  projectName : String
deriving DecidableEq, Repr

/-- `validate_syntactic_identity`: the release of a container that carries exactly the
app's labels. -/
def validateSyntacticIdentity (c : ContainerRecord) (app : AppIdentity) : Option Uuid := do
  let appId ← (c.label appIdLabel).bind canonicalUuid
  let releaseId ← c.releaseId
  if c.label managedLabel = some "true" ∧ c.label schemaLabel = some "1" ∧ appId = app.id
      ∧ c.label projectLabel = some app.projectName ∧ c.label serviceLabel = some "app"
      ∧ c.label oneoffLabel = some "False" then
    some releaseId
  else none

theorem validateSyntacticIdentity_releaseId {c : ContainerRecord} {app : AppIdentity} {r : Uuid}
    (h : validateSyntacticIdentity c app = some r) : c.releaseId = some r := by
  unfold validateSyntacticIdentity at h
  simp only [Option.bind_eq_bind, Option.bind_eq_some_iff] at h
  obtain ⟨_, _, releaseId, hrel, h⟩ := h
  split at h
  · rwa [← Option.some.inj h]
  · cases h

/-! ## Image identity -/

structure ImageIdentity where
  manifestDigest : String
  configDigest : String
  platform : Platform
deriving DecidableEq, Repr

def ImageIdentity.new (manifestDigest configDigest : String) (platform : Platform) :
    Except RegistryError ImageIdentity := do
  validateDigest manifestDigest
  validateDigest configDigest
  let platform ← Platform.canonical platform.os platform.architecture platform.variant
  return { manifestDigest, configDigest, platform }

/-- A valid digest, as a test. -/
def isDigest (value : String) : Bool :=
  match validateDigest value with
  | .ok _ => true
  | .error _ => false

def ImageIdentity.matchesEngineImageId (i : ImageIdentity) (observed : Option String) : Bool :=
  observed.any fun value =>
    isDigest value && (value = i.configDigest || value = i.manifestDigest)

def ImageIdentity.matchesManifestDescriptor (i : ImageIdentity) (d : ManifestDescriptor) : Bool :=
  match d.digest, d.os, d.architecture with
  | some digest, some os, some architecture =>
    isDigest digest && digest = i.manifestDigest &&
      (match Platform.canonical os architecture d.variant with
        | .ok p => decide (p = i.platform)
        | .error _ => false)
  | _, _, _ => false

def ImageIdentity.matchesObservation (i : ImageIdentity) (imageId : Option String)
    (descriptor : Option ManifestDescriptor) : Bool :=
  i.matchesEngineImageId imageId && descriptor.all i.matchesManifestDescriptor

/-! ## Health -/

/-- `HttpHealthcheck`, as far as the health gate reads it; the probe itself is Compose's
business. -/
structure HttpHealthcheck where
  intervalSeconds : Nat
  timeoutSeconds : Nat
  retries : Nat
  startPeriodSeconds : Nat
deriving DecidableEq, Repr

inductive HealthPolicy where
  | healthy (http : Option HttpHealthcheck)
  | running (stableWindowSeconds : Nat)
  | completed
  | disabled
deriving DecidableEq, Repr

inductive HealthError where
  | missing | unhealthy | timeout | exited | restarted | completedNonzero | notReady | changed
  | identityMismatch | observation | interrupted
deriving DecidableEq, Repr

def HealthError.publicCode : HealthError → String
  | .notReady => "CONTAINER_NOT_READY"
  | .missing => "HEALTHCHECK_MISSING"
  | .unhealthy => "HEALTH_UNHEALTHY"
  | .timeout => "HEALTH_TIMEOUT"
  | .exited => "CONTAINER_EXITED"
  | .restarted => "CONTAINER_RESTARTED"
  | .completedNonzero => "COMPLETED_NONZERO"
  | .changed => "CONTAINER_CHANGED"
  | .identityMismatch => "CANDIDATE_INVALID"
  | .observation => "DOCKER_OBSERVATION_FAILED"
  | .interrupted => "DEPLOYMENT_INTERRUPTED"

def policyReady (c : Runtime) (policy : HealthPolicy) : Except HealthError Bool :=
  if policy = .completed then
    match c.status with
    | .exited => if c.exitCode = some 0 then .ok true else .error .completedNonzero
    | .dead => .error .exited
    | _ => .ok false
  else
    match c.status with
    | .exited | .dead => .error .exited
    | .paused | .removing => .error .notReady
    | .running =>
      match policy with
      | .healthy _ =>
        match c.health with
        | .healthy => .ok true
        | .starting => .ok false
        | .unhealthy => .error .unhealthy
        | .none | .unknown => .error .missing
      | _ => .ok true
    | _ => .ok false

/-- `HealthResult::recheck`, against the container that passed verification. -/
def recheck (verified container : ContainerRecord) (policy : HealthPolicy) :
    Except HealthError Unit :=
  if container.id ≠ verified.id then .error .changed
  else if container.runtime.startedAt ≠ verified.runtime.startedAt
      ∨ container.runtime.restartCount ≠ verified.runtime.restartCount then
    .error .restarted
  else do
    if ← policyReady container.runtime policy then
      return ()
    else
      throw .notReady

end SoloDock.Docker
