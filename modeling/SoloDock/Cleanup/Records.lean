import SoloDock.Docker.Container
import SoloDock.Lib.Time

/-!
# What cleanups keep records of

The data of `storage_cleanup.rs`: an artifact of the app store that may be cleaned up, the
plan of a cleanup, and the record of the image of a release that was cleaned.
-/

namespace SoloDock.Cleanup

open Lib

inductive CleanupTempLocation where
  | appsRoot
  | appRoot
  | releases
  | configRevisions
  deriving DecidableEq, Repr

inductive CleanupArtifact where
  | release (app release configRevision : Uuid)
  | configRevision (app revision : Uuid)
  | temporary (app : Option Uuid) (location : CleanupTempLocation) (name : String)
  deriving DecidableEq, Repr

/-- `CleanedReleaseRecord`: the image that a release ran. -/
structure CleanedReleaseRecord where
  manifestDigest : String
  localImageId : String
  platformOs : String
  platformArchitecture : String
  platformVariant : Option String
  deriving DecidableEq, Repr

structure CleanupCandidate where
  artifact : CleanupArtifact
  estimatedLogicalBytes : Nat
  releaseCreatedAt : Option Instant
  releaseRecord : Option CleanedReleaseRecord
  deriving DecidableEq, Repr

inductive ProtectionReason where
  | active
  | pending
  | currentDraft
  | recentRollback
  | deploymentRecovery
  | cleanupInProgress
  deriving DecidableEq, Repr

structure ProtectedArtifact where
  app : Option Uuid
  artifactKind : String
  artifactId : String
  reason : ProtectionReason
  deriving DecidableEq, Repr

structure CleanupPlan where
  candidates : List CleanupCandidate
  protectedArtifacts : List ProtectedArtifact
  estimatedLogicalBytes : Nat
  deriving DecidableEq, Repr

structure ArtifactInventory where
  plan : CleanupPlan
  appIds : List Uuid
  releases : List CleanedReleaseRecord
  deriving DecidableEq, Repr

inductive CleanupError where
  | busy
  | store
  | database
  | inventoryIncomplete
  | recoveryReferenceMissing (app deployment : Uuid)
  | recordInvalid
  deriving DecidableEq, Repr

def maxCleanupItems : Nat := 100

end SoloDock.Cleanup
