import SoloDock.Deploy.Interface
import SoloDock.Lib.Service
import SoloDock.Lib.Time
import SoloDock.Lib.Tree
import SoloDock.Mutation.Ledger

/-!
# What the application handlers ask of the rest of the system

`api/mutations.rs` and `api/presets.rs` create, configure, run and delete applications.
Every handler claims its idempotency key, takes its locks, checks what it finds on disk,
in the database and in Docker, makes its changes in order, and records one response. This
module has the requests, the data those handlers pass around, and one `Call` for each
thing they ask: every decision a handler makes rests on the answer of a single call.
-/

namespace SoloDock.Apps

open Lib Mutation Docker
open Deploy (AppMetadata BindIdentity ComposeError DesiredState)

/-! ## Requests -/

inductive LifecycleAction where
  | start
  | stop
  | restart
  deriving DecidableEq, Repr

namespace LifecycleAction

/-- The desired state an action sets; a restart keeps what is stored. -/
def desired : LifecycleAction → Option DesiredState
  | start => some .running
  | stop => some .stopped
  | restart => none

end LifecycleAction

/-- The draft of an app as the request gives it. The rest of its fields only pass through
the normalisation, and stand as `content`. -/
structure DraftInput where
  autoDeployEnabled : Bool
  autoDeployAcknowledged : Bool
  content : String
  deriving DecidableEq, Repr

/-- `NormalizedDraft`. -/
structure Draft where
  displayName : String
  discoveryImageRef : String
  credentialRef : Option Uuid
  autoDeployEnabled : Bool
  pollIntervalSeconds : Nat
  configSha256 : String
  deriving DecidableEq, Repr

inductive Request where
  | create (slug : String)
  | createFromPreset (slug preset : String)
  | updateDraft (app : Uuid) (expected : Option Uuid) (draft : DraftInput)
  | lifecycle (app : Uuid) (action : LifecycleAction)
  | delete (app : Uuid) (token slug : String) (expected : Option Uuid) (removeContainer : Bool)
  deriving DecidableEq, Repr

/-- The routes the handlers claim their keys under. -/
inductive Route where
  /-- `/api/v1/apps` -/
  | apps
  /-- `/api/v1/apps/from-preset` -/
  | fromPreset
  /-- `/api/v1/apps/{app}/draft` -/
  | draft (app : Uuid)
  /-- `/api/v1/apps/{app}/actions/{action}` -/
  | action (app : Uuid) (action : LifecycleAction)
  /-- `/api/v1/apps/{id}`, which only a deletion uses -/
  | app (id : Uuid)
  deriving DecidableEq, Repr

def Request.route : Request → Route
  | create _ => .apps
  | createFromPreset _ _ => .fromPreset
  | updateDraft app _ _ => .draft app
  | lifecycle app action => .action app action
  | delete app _ _ _ _ => .app app

/-- A request with its idempotency key, its session and its request id. -/
structure Query where
  key : String
  request : Request
  session : String
  requestId : Uuid
  deriving DecidableEq, Repr

/-- A request past its claim. -/
structure Attempt where
  query : Query
  operation : Uuid
  resumed : Bool
  deriving DecidableEq, Repr

/-! ## Data on disk and in the database -/

/-- `app.toml`. -/
structure Metadata extends AppMetadata where
  displayName : String
  desiredState : DesiredState
  pollIntervalSeconds : Nat
  lastOperationId : Uuid
  createdAt : Instant
  updatedAt : Instant
  deriving DecidableEq, Repr

/-- `DeletionMarker`, the contents of `deletion.toml`. -/
structure DeletionMarker where
  schemaVersion : Nat
  appId : Uuid
  operationId : Uuid
  deriving DecidableEq, Repr

/-- What lies in an app's directory: the two files a tombstone is recognised by, and
everything else. -/
inductive Node where
  | directory
  | marker (value : DeletionMarker)
  | metadata (value : Metadata)
  | file
  deriving DecidableEq, Repr

/-- A directory `.trash/<app>-<operation>`. -/
structure Tombstone where
  app : Uuid
  operation : Uuid
  tree : FileTree Node
  deriving DecidableEq, Repr

/-- `source` of an `app_unregistrations` row; a repair by the operator has its audit
event or not. -/
inductive ReceiptSource where
  | deletion
  | operatorRepair (audited : Bool)
  deriving DecidableEq, Repr

/-- A row of `app_unregistrations`. -/
structure Receipt where
  app : Uuid
  operation : Uuid
  source : ReceiptSource
  finalized : Bool
  deriving DecidableEq, Repr

/-- `DeletionFacts`; the retained resources are named only. -/
structure DeletionFacts where
  appId : Uuid
  slug : String
  expectedRevision : Option Uuid
  projectName : String
  activeReleaseId : Option Uuid
  activeConfigRevision : Option Uuid
  pendingReleaseId : Option Uuid
  pendingConfigRevision : Option Uuid
  removeContainer : Bool
  containerIds : List String
  managedFiles : List String
  retained : List String
  orphanWarning : Bool
  webhookConfigured : Bool
  deriving DecidableEq, Repr

/-- A row of `deletion_previews`. Its hash is a digest of the facts, and stands as the facts
themselves. -/
structure Preview where
  token : String
  app : Uuid
  session : String
  slug : String
  revision : Option Uuid
  facts : DeletionFacts
  removeContainer : Bool
  containerIds : List String
  expiresAt : Instant
  consumed : Bool
  deriving DecidableEq, Repr

structure DeletionSnapshot where
  facts : DeletionFacts
  container : Option ContainerRecord
  deriving DecidableEq, Repr

/-- `VerifiedActive`, as far as the handlers read it. -/
structure Verified where
  releaseId : Uuid
  activeReleaseId : Option Uuid
  pendingReleaseId : Option Uuid
  slug : String
  serviceDiscoveryEnabled : Bool
  bindIdentities : List BindIdentity
  deriving DecidableEq, Repr

/-- Which release is verified: the active one, the active one without its bind guard, or
the pending one without its bind guard. -/
inductive VerifiedRelease where
  | active
  | activeForStop
  | pendingForStop
  deriving DecidableEq, Repr

/-- The `ComposeAction`s of the handlers. -/
inductive ComposeAction where
  | start
  | stop
  | recreate
  | remove
  deriving DecidableEq, Repr

/-! ## Responses -/

structure DeleteResponse where
  appId : Uuid
  unregistered : Bool
  containerRemoved : Bool
  retained : List String
  orphanWarning : Bool
  projectionWarning : Option String
  deriving DecidableEq, Repr

/-- The JSON bodies the handlers record. -/
inductive Body where
  | app (value : Metadata) (projectionWarning : Option String)
  | lifecycle (app : Uuid) (action : LifecycleAction) (desired : DesiredState) (observed : String)
      (projectionWarning : Option String)
  | deleted (value : DeleteResponse)
  | error (code message : String) (requestId : Uuid)
  deriving DecidableEq, Repr

/-- `valid_response`: the body says that this app was unregistered. -/
def Body.unregisters (app : Uuid) : Body → Bool
  | deleted value => value.unregistered && value.appId == app
  | _ => false

abbrev AppLedger := Ledger Route Request Body
abbrev AppRecord := Record Route Request Body
abbrev AppClaim := Claim Route Request

/-- `StoreError`, as far as these handlers tell its cases apart. -/
inductive StoreError where
  | notFound
  | io
  | contentInvalid
  | appConflict
  | revisionStale
  | configRevisionConflict
  deriving DecidableEq, Repr

/-! ## Calls -/

inductive Call where
  -- the ledger
  | claim (query : Query)
  | finish (route : Route) (key : String) (status : Nat) (body : Body) (errorCode : Option String)
  | markInterrupted (route : Route) (key : String)
  | interruptPending
  | effectMarker (route : Route) (key : String)
  | markEffectStarted (route : Route) (key : String) (containerId startedAt : Option String)
  | markEffectObserved (route : Route) (key containerId : String)
  | markEffectCompleted (route : Route) (key : String)
  -- locks
  | tryApp (app : Uuid)
  | tryCompose
  -- the app store
  | readMetadata (app : Uuid)
  | scanSlugs
  | createApp (slug : String) (operation : Uuid) (draft : Option Draft)
  | repairAppDurability (app : Uuid)
  | updateDraft (app : Uuid) (expected : Option Uuid) (operation : Uuid) (draft : Draft)
  | readPendingLink (app : Uuid)
  | setDesiredState (app : Uuid) (desired : DesiredState) (operation : Uuid)
  | appDirectoryExists (app : Uuid)
  | tombstone (app operation : Uuid)
  | readTombstoneMetadata (app operation : Uuid)
  | tombstones
  | syncUnregisteredApp (app : Uuid)
  | removeTombstone (app operation : Uuid)
  -- configuration
  | loadConfig (app revision : Uuid)
  | normalizeVerified (metadata : Metadata)
  | normalizeDraft (input : DraftInput)
  | renderPreset (slug preset : String)
  | validateRegistryCredential (draft : Draft)
  | validateStoredBindPlan (app : Uuid) (draft : Draft)
  -- the runtime
  | loadVerified (which : VerifiedRelease) (app : Uuid)
  | validateRuntimePaths (app : Uuid)
  | validateBindPlan (app : Uuid)
  | mutationContainer (app : Uuid) (allowPending : Bool)
  | observeAgainst (marker : EffectMarker) (app : Uuid) (allowPending : Bool)
  | containerIs (ids : List String) (app : Uuid) (allowPending : Bool)
  | validateResources (app : Uuid) (containerId : Option String) (action : LifecycleAction)
  | ensureForApp (slug : String) (allowed : List String)
  | composeUnready
  | composeRun (action : ComposeAction) (app operation : Uuid)
  | revalidateBinds (identities : List BindIdentity)
  | deadlinePassed
  | cancelAppStreams (app : Uuid)
  | refresh
  | publishDeletion (app : Uuid)
  -- deletion
  | cleanupInProgress (app : Uuid)
  | preview (token : String) (app : Uuid)
  | consumePreview (token : String)
  | deletionSnapshot (app : Uuid) (removeContainer : Bool)
  | nowUtc
  -- unregistration
  | recordOf (app operation : Uuid)
  | succeededDeletions
  | receipts
  | receiptOf (app : Uuid)
  | insertReceipt (app operation : Uuid)
  | markFinalized (app operation : Uuid)

/-- What the finalizers read of a record. -/
abbrev RecordView := Ledger.View Body

abbrev Answer : Call → Type
  | .claim _ => Except IdempotencyError (ClaimResult Body)
  | .finish _ _ _ _ _ => Except IdempotencyError Unit
  | .markInterrupted _ _ => Except IdempotencyError Unit
  | .interruptPending => Except IdempotencyError Unit
  | .effectMarker _ _ => Except IdempotencyError (Option EffectMarker)
  | .markEffectStarted _ _ _ _ => Except IdempotencyError Unit
  | .markEffectObserved _ _ _ => Except IdempotencyError Unit
  | .markEffectCompleted _ _ => Except IdempotencyError Unit
  | .tryApp _ => Bool
  | .tryCompose => Bool
  | .readMetadata _ => Except StoreError Metadata
  | .scanSlugs => Except StoreError (List String)
  | .createApp _ _ _ => Except StoreError Metadata
  | .repairAppDurability _ => Except StoreError Unit
  | .updateDraft _ _ _ _ => Except StoreError Metadata
  | .readPendingLink _ => Except StoreError (Option Uuid)
  | .setDesiredState _ _ _ => Except StoreError Metadata
  | .appDirectoryExists _ => Bool
  | .tombstone _ _ => Except StoreError Unit
  | .readTombstoneMetadata _ _ => Except StoreError Metadata
  | .tombstones => Except StoreError (List (Uuid × Uuid))
  | .syncUnregisteredApp _ => Except StoreError Unit
  | .removeTombstone _ _ => Except StoreError Unit
  | .loadConfig _ _ => Except StoreError Unit
  | .normalizeVerified _ => Except String Draft
  | .normalizeDraft _ => Except String Draft
  | .renderPreset _ _ => Except String Draft
  | .validateRegistryCredential _ => Bool
  | .validateStoredBindPlan _ _ => Except String Unit
  | .loadVerified _ _ => Except String Verified
  | .validateRuntimePaths _ => Except String Unit
  | .validateBindPlan _ => Except String Unit
  | .mutationContainer _ _ => Except String (Option ContainerRecord)
  | .observeAgainst _ _ _ => Option ContainerRecord
  | .containerIs _ _ _ => Bool
  | .validateResources _ _ _ => Except (String × Nat) Unit
  | .ensureForApp _ _ => Except String Unit
  | .composeUnready => Option String
  | .composeRun _ _ _ => Except ComposeError Unit
  | .revalidateBinds _ => Bool
  | .deadlinePassed => Bool
  | .cancelAppStreams _ => Bool
  | .refresh => Option String
  | .publishDeletion _ => Option String × Bool
  | .cleanupInProgress _ => Except IdempotencyError Nat
  | .preview _ _ => Except IdempotencyError (Option Preview)
  | .consumePreview _ => Except IdempotencyError Nat
  | .deletionSnapshot _ _ => Except String DeletionSnapshot
  | .nowUtc => Instant
  | .recordOf _ _ => Except IdempotencyError (Option RecordView)
  | .succeededDeletions => Except IdempotencyError (List (Uuid × Uuid × Body))
  | .receipts => Except IdempotencyError (List Receipt)
  | .receiptOf _ => Except IdempotencyError (Option Receipt)
  | .insertReceipt _ _ => Except IdempotencyError Unit
  | .markFinalized _ _ => Except IdempotencyError Nat

end SoloDock.Apps
