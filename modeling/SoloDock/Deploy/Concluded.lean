import SoloDock.Deploy.Runs

/-!
# What a terminal status says

A deployment that is recorded as `succeeded`, `rolled_back` or `no_op` was so: the links
name the release, the container that the ledger names passed the health gate and was found
the same on the last look, and a no-op touched nothing.
-/

namespace SoloDock.Deploy

open Lib Lib.Prog Registry Docker

/-- A scheduled deployment after the first `k` calls of its run; a run that is over stays as
it is. -/
def runState (record : Record) (slug : String) (active pending : Option Uuid)
    (containers : List ContainerRecord) (o : deployWorld.Script) (k : Nat) : State :=
  engineWorld.cut o 0 k spawn (scheduled record slug active pending containers, [])

/-- In every state of every run: `succeeded` means that the candidate is active, nothing is
pending, and the container recorded as started passed the gate and the recheck; `rolled_back`
that the old release is active, nothing is pending, and another container than the failed one
passed them; `no_op` that no Compose action was issued and the links are as they were. -/
theorem terminal_status_means (record : Record) (slug : String) (active pending : Option Uuid)
    (containers : List ContainerRecord) (o : deployWorld.Script) (k : Nat) :
    let s := runState record slug active pending containers o k
    (s.1.status = .succeeded → Committed s) ∧ (s.1.status = .rolledBack → RolledBack s) ∧
      (s.1.status = .noOp → Untouched active pending s) := by
  intro s
  have hlaw : Law record active pending s :=
    law_cut (scheduled record slug active pending containers) rfl o k
  exact ⟨hlaw.2.succeeded, hlaw.2.rolledBack, hlaw.2.noOp⟩

/-! ## A first deployment that succeeds -/

/-- The running container of release 7 of app 1. -/
def runningPredecessor : ContainerRecord where
  id := "old"
  labels :=
    [(managedLabel, "true"), (schemaLabel, "1"), (appIdLabel, uuidText 1),
      (releaseIdLabel, uuidText 7), (projectLabel, "solodock-web"), (serviceLabel, "app"),
      (oneoffLabel, "False")]
  runtime :=
    { status := .running, health := .none, exitCode := none, restartCount := none
      startedAt := none }
  configuredImageRef := none
  imageId := none
  manifestDescriptor := none

/-- A manual deployment over it. -/
def manualRecord : Record where
  id := 3
  appId := 1
  trigger := .manual
  requestedRevision := 2
  fromReleaseId := some 7
  expectedPendingReleaseId := none
  expectedActualReleaseId := some 7
  expectedActualContainerId := some "old"
  rollbackTargetReleaseId := none
  scheduledSourceImageRef := none
  scheduledSourceDescriptorDigest := none
  scheduledManifestDigest := none
  scheduledIndexDigest := none
  scheduledPlatformOs := none
  scheduledPlatformArchitecture := none
  scheduledPlatformVariant := none
  scheduledLocalImageId := none
  scheduledRepository := none
  scheduledTargetKey := none
  pollGeneration := none

def webApp : AppMetadata where
  id := 1
  slug := "web"
  discoveryImageRef := some "ghcr.io/acme/web:2"
  credentialRef := none
  draftRevision := some 2
  draftConfigSha256 := some "c"
  autoDeployEnabled := false

def webImage : ResolvedImage where
  sourceImageRef := "ghcr.io/acme/web:2"
  logicalRegistry := "ghcr.io"
  repository := "acme/web"
  sourceTag := "2"
  sourceDescriptorDigest := "d"
  indexDigest := none
  manifestDigest := "m"
  runnableImageRef := "ghcr.io/acme/web@m"
  platform := ⟨"linux", "amd64", none⟩
  localImageId := "l"

def webRelease : Release where
  schemaVersion := 2
  composeSchemaVersion := 2
  id := 8
  appId := 1
  configRevision := 2
  configSha256 := "c"
  stopGracePeriodSeconds := 10
  serviceDiscoveryEnabled := false
  sourceImageRef := "ghcr.io/acme/web:2"
  logicalRegistry := "ghcr.io"
  repository := "acme/web"
  sourceTag := "2"
  sourceDescriptorDigest := "d"
  indexDigest := none
  manifestDigest := "m"
  runnableImageRef := "ghcr.io/acme/web@m"
  platformOs := "linux"
  platformArchitecture := "amd64"
  platformVariant := none
  localImageId := "l"
  composeSha256 := "s"
  credentialRef := none
  trigger := .manual
  sourceReleaseId := none
  createdAt := "t"
  integrityHmac := "h"

def exitedRuntime : Runtime where
  status := .exited
  health := .none
  exitCode := some 0
  restartCount := none
  startedAt := none

/-- Every call succeeds, but no container stays up. -/
def exitsAtOnce : deployWorld.Script
  | _, .ledgerGet | _, .transition .. | _, .resolved .. | _, .markEffectStarted ..
  | _, .markEffectObserved .. | _, .markRollbackStarted .. | _, .markRollbackObserved ..
  | _, .setHealth .. | _, .readReleaseLink .. => true
  | _, .readMetadata => some webApp
  | _, .loadV2Release .. => some webRelease
  | _, .loadVerified _ => some ⟨2, false, .disabled⟩
  | _, .publishV2Release .. => some webRelease
  | _, .setPending _ | _, .removePendingIf _ => .ok
  | _, .finalizeActive .. => .ok
  | _, .newUuid => (0 : Nat)
  | _, .refresh => ()
  | _, .catalogGet => some "web"
  | _, .loadCredential .. => none
  | _, .resolve .. => .ok webImage
  | _, .pull .. => .ok ()
  | _, .probe => .ok ⟨some "linux", some "amd64", none⟩
  | _, .listComposeAppContainers _ => true
  | _, .compose .. => ⟨.ok (), fun _ => exitedRuntime, fun _ => true, []⟩
  | _, .verifyHealth .. => (fun _ => ⟨.late, 0, none⟩, fun _ => exitedRuntime)
  | _, .ensureForApp .. => .ok ()
  | _, .validateRuntimePaths .. => .ok []
  | _, .validateBindPlan .. | _, .validateResources .. | _, .validateResourcesForDetach .. => .ok ()
  | _, .revalidateBindIdentity .. => some ()

def hexDigest (digit : Char) : String := "sha256:" ++ String.ofList (List.replicate 64 digit)

/-- A release whose image can be told. -/
def verifiableRelease : Release :=
  { webRelease with
    manifestDigest := hexDigest 'a'
    localImageId := hexDigest 'b'
    runnableImageRef := "ghcr.io/acme/web@" ++ hexDigest 'a' }

/-- A running container of it, labelled with the release id of a first candidate. -/
def startedContainer : ContainerRecord where
  id := "new"
  labels :=
    [(managedLabel, "true"), (schemaLabel, "1"), (appIdLabel, uuidText 1),
      (releaseIdLabel, uuidText 1), (projectLabel, "solodock-web"), (serviceLabel, "app"),
      (oneoffLabel, "False")]
  runtime := runningPredecessor.runtime
  configuredImageRef := some verifiableRelease.runnableImageRef
  imageId := some (hexDigest 'b')
  manifestDescriptor := none

/-- Compose starts the container, and it stays up. -/
def startsWell : deployWorld.Script
  | _, .loadV2Release .. => some verifiableRelease
  | _, .publishV2Release .. => some verifiableRelease
  | _, .loadVerified _ => some ⟨2, false, .running 0⟩
  | _, .compose .. =>
    ⟨.ok (), fun _ => runningPredecessor.runtime, fun _ => false, [startedContainer]⟩
  | _, .verifyHealth .. =>
    (fun _ => ⟨.answered (some startedContainer), 0, some 0⟩, fun _ => runningPredecessor.runtime)
  | n, e => exitsAtOnce n e

def firstRecord : Record :=
  { manualRecord with
    fromReleaseId := none
    expectedActualReleaseId := none
    expectedActualContainerId := none }

example :
    let s := runState firstRecord "web" none none [] startsWell 100
    s.1.status = .succeeded ∧ s.1.active = some 1 ∧ s.1.effects.postContainerId = some "new" := by
  decide +kernel

end SoloDock.Deploy
