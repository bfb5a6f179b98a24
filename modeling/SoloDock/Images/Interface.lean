import SoloDock.Cleanup.Records
import SoloDock.Mutation.Ledger

/-!
# What image cleanups work on

The images of cleaned releases are removed from Docker by a plan: previewed and confirmed
by the operator (`api/image_cleanup.rs`), or made by the retention policy of an app
(`retention.rs`). This module has the identities of images (`docker/image_cleanup.rs`,
`image_cleanup.rs`), the rows of the tables, and one `Call` for each thing the programs ask
of the store, the database and Docker.

The identity of an image is up to three digests: the id by which the engine knows it, the
digest of its configuration, and that of its manifest.
-/

namespace SoloDock.Images

open Lib Mutation Docker Registry Cleanup

/-! ## Images -/

/-- `ExactImageId`: only a complete digest. -/
structure ExactImageId where
  value : String
  exact : isDigest value = true
  deriving DecidableEq, Repr

def ExactImageId.parse (value : String) : Option ExactImageId :=
  if h : isDigest value = true then some ⟨value, h⟩ else none

structure ImageRecord where
  id : String
  manifestDescriptor : Option ManifestDescriptor
  repoDigests : List String
  os : String
  architecture : String
  variant : Option String
  deriving DecidableEq, Repr

structure CleanupImage where
  image : ImageRecord
  isIndex : Bool
  reportedSizeBytes : Nat
  repoTags : List String
  deriving DecidableEq, Repr

inductive RemoveImageResult where
  | accepted
  | retained
  deriving DecidableEq, Repr

/-- `.map_err(|_| CleanupError::InventoryIncomplete)`. -/
def incomplete {ε α : Type} : Except ε α → Except CleanupError α
  | .ok a => .ok a
  | .error _ => .error .inventoryIncomplete

/-- `.ok_or(CleanupError::InventoryIncomplete)`. -/
def required {α : Type} : Option α → Except CleanupError α
  | some a => .ok a
  | none => .error .inventoryIncomplete

def identity (r : CleanedReleaseRecord) : Except CleanupError ImageIdentity := do
  let platform ← incomplete (Platform.canonical r.platformOs r.platformArchitecture
    r.platformVariant)
  incomplete (ImageIdentity.new r.manifestDigest r.localImageId platform)

/-- The part of a reference after its last `@`. -/
def repoDigest (value : String) : Option String :=
  match value.toList.reverse.span (· != '@') with
  | (_, []) => none
  | (digest, _ :: _) => some (String.ofList digest.reverse)

/-- `matches_inspect`: Docker's image is the one of the record. An engine without
descriptors must prove the manifest by a repository digest. -/
def matchesInspect (r : CleanedReleaseRecord) (observed : CleanupImage) :
    Except CleanupError Bool :=
  if observed.isIndex then .ok false
  else do
    let image := observed.image
    let _ ← required (ExactImageId.parse image.id)
    let platform ← incomplete (Platform.canonical image.os image.architecture image.variant)
    let expected ← incomplete
      (Platform.canonical r.platformOs r.platformArchitecture r.platformVariant)
    let identity ← identity r
    return platform == expected
      && identity.matchesObservation (some image.id) image.manifestDescriptor
      && (image.manifestDescriptor.isSome
        || image.repoDigests.any fun value => repoDigest value == some r.manifestDigest)

/-- `ImageCandidate`. The engine's id is one of the digests of the release's record: that
is what the inspection found, and plans are stored only as they were made. -/
structure ImageCandidate where
  imageId : ExactImageId
  identity : CleanedReleaseRecord
  reportedSizeBytes : Nat
  repoDigests : List String
  repoTags : List String
  known : imageId.value = identity.localImageId ∨ imageId.value = identity.manifestDigest
  deriving DecidableEq, Repr

/-- What `facts_hash` is the digest of; the digest stands as the facts. -/
structure PlanFacts where
  inventory : CleanupPlan
  cleaned : List CleanedReleaseRecord
  retained : List CleanedReleaseRecord
  containers : List (String × Option String × Option String)
  observations : List ImageCandidate
  deriving DecidableEq, Repr

structure ImagePlan where
  candidates : List ImageCandidate
  protectedCount : Nat
  facts : PlanFacts
  deriving DecidableEq, Repr

/-! ## Rows -/

/-- A row of `cleaned_releases`. -/
structure CleanedRow where
  app : Uuid
  release : Uuid
  cleanupOperation : Uuid
  record : CleanedReleaseRecord
  deriving DecidableEq, Repr

abbrev Cursor := Uuid × Uuid

def CleanedRow.key (r : CleanedRow) : Cursor := (r.app, r.release)

/-- `(c.app_id, c.release_id) > cursor`; the first cursor is below every key. -/
def Cursor.precedes : Option Cursor → Cursor → Bool
  | none, _ => true
  | some c, k => c.1 < k.1 || (c.1 == k.1 && c.2 < k.2)

/-- The status of a storage cleanup. -/
inductive CleanupStatus where
  | planned
  | running
  | completed
  | completedWithFailures
  deriving DecidableEq, Repr

/-- A row of `storage_cleanup_operations`: `plan` is what its text decodes to, and the
stored digest stands as what it is the digest of. -/
structure CleanupOperation where
  id : Uuid
  plan : Option CleanupPlan
  planHash : Option CleanupPlan
  status : CleanupStatus
  retirementPending : Bool
  deriving DecidableEq, Repr

/-- The status of an item of a storage cleanup. -/
inductive CleanupItemStatus where
  | planned
  | detached
  | failed
  deriving DecidableEq, Repr

/-- A row of `storage_cleanup_items`. -/
structure CleanupItem where
  operation : Uuid
  ordinal : Nat
  app : Option Uuid
  artifactId : Uuid
  artifactKind : String
  status : CleanupItemStatus
  deriving DecidableEq, Repr

/-- A row of the join of `cleaned_releases` with its operation. -/
structure JoinedRow where
  row : CleanedRow
  operation : CleanupOperation
  deriving DecidableEq, Repr

/-- `status` of an item of an image cleanup. -/
inductive ItemStatus where
  | planned
  | started
  | removed
  | retained
  deriving DecidableEq, Repr

def ItemStatus.terminal : ItemStatus → Bool
  | removed => true
  | retained => true
  | _ => false

/-- A row of `image_cleanup_items`. -/
structure ImageItem where
  operation : Uuid
  ordinal : Nat
  imageId : ExactImageId
  status : ItemStatus
  deriving DecidableEq, Repr

/-- A row of `image_cleanup_operations`; an operation of a retention policy has no
token. -/
structure ImageOperation where
  id : Uuid
  token : Option String
  plan : List ImageCandidate
  deriving DecidableEq, Repr

/-- A row of `image_cleanup_previews`; the token's HMAC stands as the token. -/
structure ImagePreview where
  token : String
  session : String
  plan : ImagePlan
  expiresAt : Instant
  consumed : Bool
  deriving DecidableEq, Repr

/-- `(image_id, created_at, operation_id)` of a former attempt under a retention policy. -/
structure FormerAttempt where
  imageId : ExactImageId
  createdAt : Instant
  operation : Uuid
  deriving DecidableEq, Repr

/-! ## Requests and responses -/

structure ApplyRequest where
  token : String
  imageIds : List ExactImageId
  acknowledgeImageRemoval : Bool
  deriving DecidableEq, Repr

inductive Route where
  /-- `/api/v1/system/image-cleanup/apply` -/
  | apply
  deriving DecidableEq, Repr

structure Query where
  key : String
  request : ApplyRequest
  session : String
  requestId : Uuid
  deriving DecidableEq, Repr

/-- `terminal_result`: the statuses of the items, and whether one was retained. -/
structure TerminalResult where
  operation : Uuid
  plan : List ImageCandidate
  withFailures : Bool
  items : List (ExactImageId × ItemStatus)
  deriving DecidableEq, Repr

inductive Body where
  | result (value : TerminalResult)
  | error (code message : String) (requestId : Uuid)
  deriving DecidableEq, Repr

/-! ## Calls -/

inductive DockerError where
  | unavailable
  | observationFailed
  deriving DecidableEq, Repr

inductive Call where
  -- the idempotency ledger
  | claim (query : Query)
  | finish (key : String) (status : Nat) (body : Body) (errorCode : Option String)
  | markInterrupted (key : String)
  | interruptPending
  -- what a plan reads of the store and the database
  | validateOperations
  | imageProtectionInventory
  | cleanupTombstones
  | unfinishedOperations
  | tombstoneReleases
  | countCleaned
  | cleanedPage (cursor : Option Cursor)
  | cleanupItem (operation : Uuid) (ordinal : Nat)
  | commit
  | formerAttempts (app : Uuid)
  -- Docker
  | allContainers
  | inspect (id : ExactImageId)
  | remove (id : ExactImageId)
  -- locks and the clock
  | lockCatalog
  | tryApp (app : Uuid)
  | tryCompose
  | nowUtc
  | randomToken
  -- the tables of image cleanups
  | insertPreview (row : ImagePreview)
  | preview (token : String)
  | published (operation : Uuid)
  | publish (operation : Uuid) (token : String) (selected : List ImageCandidate)
  | items (operation : Uuid)
  | markStarted (operation : Uuid) (ordinal : Nat)
  | setStatus (operation : Uuid) (ordinal : Nat) (status : ItemStatus)
  -- retention policies
  | policyEnabled (app : Uuid)
  | pendingAutomatic (app : Uuid)
  | registered (app : Uuid)
  | hasSource (app : Uuid)
  | authorization (operation : Uuid)
  | planOf (operation : Uuid)
  | publishAutomatic (app : Uuid) (selected : List ImageCandidate)
  | complete (operation : Uuid) (result : TerminalResult)

abbrev Answer : Call → Type
  | .claim _ => Except IdempotencyError (ClaimResult Body)
  | .finish _ _ _ _ => Except IdempotencyError Unit
  | .markInterrupted _ => Except IdempotencyError Unit
  | .interruptPending => Except IdempotencyError Unit
  | .validateOperations => Except CleanupError Unit
  | .imageProtectionInventory => Except CleanupError ArtifactInventory
  | .cleanupTombstones => Except CleanupError (List Uuid)
  | .unfinishedOperations => Except CleanupError (List ImageOperation)
  | .tombstoneReleases => Except CleanupError (List CleanedReleaseRecord)
  | .countCleaned => Except CleanupError Nat
  | .cleanedPage _ => Except CleanupError (List JoinedRow)
  | .cleanupItem _ _ => Except CleanupError CleanupItem
  | .commit => Except CleanupError Unit
  | .formerAttempts _ => Except CleanupError (List FormerAttempt)
  | .allContainers => Except DockerError (List ContainerRecord)
  | .inspect _ => Except DockerError (Option CleanupImage)
  | .remove _ => Except DockerError RemoveImageResult
  | .lockCatalog => Unit
  | .tryApp _ => Bool
  | .tryCompose => Bool
  | .nowUtc => Instant
  | .randomToken => Option String
  | .insertPreview _ => Except CleanupError Unit
  | .preview _ => Except CleanupError (Option ImagePreview)
  | .published _ => Except CleanupError (Option ImageOperation)
  | .publish _ _ _ => Except CleanupError Unit
  | .items _ => Except CleanupError (List ImageItem)
  | .markStarted _ _ => Except CleanupError Unit
  | .setStatus _ _ _ => Except CleanupError Unit
  | .policyEnabled _ => Except CleanupError Bool
  | .pendingAutomatic _ => Except CleanupError (Option Uuid)
  | .registered _ => Bool
  | .hasSource _ => Except CleanupError Bool
  | .authorization _ => Except CleanupError (Option Uuid)
  | .planOf _ => Except CleanupError (List ImageCandidate)
  | .publishAutomatic _ _ => Except CleanupError Uuid
  | .complete _ _ => Except CleanupError Unit

end SoloDock.Images
