import SoloDock.Lib.Service
import SoloDock.Lib.Time
import SoloDock.Lib.Tree
import SoloDock.Mutation.Ledger
import SoloDock.Registry.Reference

/-!
# Registry credentials

`registry/credentials.rs` and its handlers in `api/deployments.rs`. A credential is a
directory with its metadata and the revisions of its secret; it is created by a rename,
updated by writing its metadata, and deleted by moving it to the trash with a marker
`deletion.toml`, which is removed for good once the response is recorded.

The integrity HMAC over metadata and secret always fits what the store itself wrote. A
file that is damaged, unreadable or not private is an outcome of the call that reads it.
-/

namespace SoloDock.Credentials

open Lib Mutation Registry
open Lib.Prog (accept ask ensure)

/-! ## Requests and data -/

inductive Request where
  | create (registry username secret : String)
  /-- The secret is replaced, or kept when there is none. -/
  | update (id expected : Uuid) (username : String) (secret : Option String)
  | delete (id expected : Uuid)
  deriving DecidableEq, Repr

inductive Route where
  /-- `/api/v1/registry-credentials` -/
  | credentials
  /-- `/api/v1/registry-credentials/{id}` -/
  | credential (id : Uuid)
  deriving DecidableEq, Repr

def Request.route : Request → Route
  | create _ _ _ => .credentials
  | update id _ _ _ => .credential id
  | delete id _ => .credential id

structure Query where
  key : String
  request : Request
  requestId : Uuid
  deriving DecidableEq, Repr

/-- A request past its claim. -/
structure Attempt where
  query : Query
  operation : Uuid
  resumed : Bool
  deriving DecidableEq, Repr

/-- `CredentialMetadata`, without its integrity HMAC. -/
structure CredentialMetadata where
  id : Uuid
  revision : Uuid
  registry : String
  username : String
  secretRevision : Uuid
  lastOperationId : Uuid
  createdAt : Instant
  rotatedAt : Instant
  deriving DecidableEq, Repr

/-- A credential's directory: the metadata, and the token of each secret revision. -/
structure Credential where
  metadata : CredentialMetadata
  tokens : List (Uuid × String)
  deriving DecidableEq, Repr

/-- `CredentialDeletionMarker`. -/
structure DeletionMarker where
  schemaVersion : Nat
  credentialId : Uuid
  operationId : Uuid
  deriving DecidableEq, Repr

inductive Node where
  | directory
  | marker (value : DeletionMarker)
  | file
  deriving DecidableEq, Repr

/-- A directory `.trash/<credential>-<operation>`. -/
structure Tombstone where
  id : Uuid
  operation : Uuid
  tree : FileTree Node
  deriving DecidableEq, Repr

structure CredentialResponse where
  id : Uuid
  registry : String
  username : String
  revision : Uuid
  createdAt : Instant
  rotatedAt : Instant
  referencedByApps : Nat
  deriving DecidableEq, Repr

inductive Body where
  | credential (value : CredentialResponse)
  | deleted (id : Uuid) (deleted : Bool)
  | error (code message : String) (requestId : Uuid)
  deriving DecidableEq, Repr

/-- The body says that this credential was deleted. -/
def Body.deletes (id : Uuid) : Body → Bool
  | deleted id' flag => id' == id && flag
  | _ => false

abbrev CredentialLedger := Ledger Route Request Body
/-- `StoreError`, as far as the handlers tell its cases apart. -/
inductive StoreError where
  | contentInvalid
  | appConflict
  | revisionStale
  | io
  deriving DecidableEq, Repr

/-- What the finalizer reads of a record. -/
abbrev RecordView := Ledger.View Body

/-! ## Calls -/

inductive Call where
  | claim (query : Query)
  | finish (route : Route) (key : String) (status : Nat) (body : Body) (errorCode : Option String)
  | markInterrupted (route : Route) (key : String)
  | interruptPending
  | recordOf (id operation : Uuid)
  | directoryExists (id : Uuid)
  | loadMetadata (id : Uuid)
  | load (id : Uuid)
  | list
  | newUuid
  | nowUtc
  | publish (metadata : CredentialMetadata) (secret : String)
  | placeSecret (id revision : Uuid) (secret : String)
  | writeMetadata (metadata : CredentialMetadata)
  | exactTombstone (id operation : Uuid)
  | moveToTrash (id operation : Uuid)
  | tombstones
  | removeTombstone (id operation : Uuid)
  | syncTrash
  | cleanRevisions
  | credentialInUse (id : Uuid)
  | referencedByApps (id : Uuid)
  | refresh

abbrev Answer : Call → Type
  | .claim _ => Except IdempotencyError (ClaimResult Body)
  | .finish _ _ _ _ _ => Except IdempotencyError Unit
  | .markInterrupted _ _ => Except IdempotencyError Unit
  | .interruptPending => Except IdempotencyError Unit
  | .recordOf _ _ => Except IdempotencyError (Option RecordView)
  | .directoryExists _ => Except StoreError Bool
  | .loadMetadata _ => Except StoreError CredentialMetadata
  | .load _ => Except StoreError (CredentialMetadata × String)
  | .list => Except StoreError (List CredentialMetadata)
  | .newUuid => Uuid
  | .nowUtc => Instant
  | .publish _ _ => Except StoreError Unit
  | .placeSecret _ _ _ => Except StoreError Unit
  | .writeMetadata _ => Except StoreError Unit
  | .exactTombstone _ _ => Except StoreError Bool
  | .moveToTrash _ _ => Except StoreError Unit
  | .tombstones => Except StoreError (List (Uuid × Uuid))
  | .removeTombstone _ _ => Except StoreError Unit
  | .syncTrash => Except StoreError Unit
  | .cleanRevisions => Except StoreError Unit
  | .credentialInUse _ => Except String Bool
  | .referencedByApps _ => Nat
  | .refresh => Unit

/-! ## The store -/

abbrev Store := Prog Call Answer StoreError

def isAsciiControl (c : Char) : Bool := c.toNat < 0x20 || c.toNat = 0x7f

/-- `validate_username`. -/
def validUsername (value : String) : Bool :=
  !(value.isEmpty || value.utf8ByteSize > 255 || value.toList.any isAsciiControl)

/-- `validate_secret`. -/
def validSecret (value : String) : Bool :=
  !(value.isEmpty || value.utf8ByteSize > 8192 || value.toList.any isAsciiControl)

def validateLogicalRegistry (value : String) : Except RegistryError String :=
  if value = "registry-1.docker.io" then .error .referenceInvalid
  else
    (validateRegistry value.toList).map fun _ =>
      if isDockerHub value.toList then "docker.io" else value

/-- `create`: a directory that is there must be this operation's own. -/
def createStore (id operation : Uuid) (registry username secret : String) :
    Store CredentialMetadata := do
  if ← accept (← ask (Call.directoryExists id)) then
    let existing ← accept (← ask (Call.loadMetadata id))
    ensure (existing.lastOperationId == operation) .appConflict
    return existing
  else
    let credentials ← accept (← ask Call.list)
    ensure (credentials.length < 32) .contentInvalid
    let registry ← Prog.orElse (validateLogicalRegistry registry) fun _ => .contentInvalid
    ensure (validUsername username) .contentInvalid
    ensure (validSecret secret) .contentInvalid
    let credentials ← accept (← ask Call.list)
    ensure
      (!credentials.any fun item => item.registry == registry && item.username == username)
      .appConflict
    let now ← ask Call.nowUtc
    let secretRevision ← ask Call.newUuid
    let revision ← ask Call.newUuid
    let metadata : CredentialMetadata :=
      { id, revision, registry, username, secretRevision
        lastOperationId := operation
        createdAt := now
        rotatedAt := now }
    accept (← ask (Call.publish metadata secret))
    return metadata

/-- The metadata with the replaced secret, once that is on disk. -/
def rotate (current : CredentialMetadata) (now : Instant) :
    Option String → Store CredentialMetadata
  | none => return current
  | some secret => do
    ensure (validSecret secret) .contentInvalid
    let revision ← ask Call.newUuid
    accept (← ask (Call.placeSecret current.id revision secret))
    return { current with secretRevision := revision, rotatedAt := now }

/-- `update`, where the credential does not carry this operation's mark. -/
def replace (current : CredentialMetadata) (expected operation : Uuid) (username : String)
    (replacement : Option String) : Store CredentialMetadata := do
  ensure (current.revision == expected) .revisionStale
  let credentials ← accept (← ask Call.list)
  ensure
    (!credentials.any fun candidate => candidate.id != current.id
      && candidate.registry == current.registry && candidate.username == username)
    .appConflict
  let now ← ask Call.nowUtc
  let rotated ← rotate current now replacement
  let revision ← ask Call.newUuid
  let metadata := { rotated with username, revision, lastOperationId := operation }
  accept (← ask (Call.writeMetadata metadata))
  return metadata

/-- `update`. -/
def updateStore (id expected operation : Uuid) (username : String)
    (replacement : Option String) : Store CredentialMetadata := do
  ensure (validUsername username) .contentInvalid
  let (current, _) ← accept (← ask (Call.load id))
  if current.lastOperationId = operation then return current
  else replace current expected operation username replacement

/-- `tombstone`: one that is there already is taken as it is. -/
def tombstone (id operation : Uuid) : Store Unit := do
  if ← accept (← ask (Call.exactTombstone id operation)) then return ()
  else
    let _ ← accept (← ask (Call.loadMetadata id))
    accept (← ask (Call.moveToTrash id operation))

/-- The removal of a tombstone that is there. -/
def removeExact (id operation : Uuid) (present : Bool) : Store Unit :=
  if present then do accept (← ask (Call.removeTombstone id operation))
  else return ()

/-- `finalize_tombstone`: the trash is synced even when the tombstone is gone. -/
def finalizeTombstone (id operation : Uuid) : Store Unit := do
  let present ← accept (← ask (Call.exactTombstone id operation))
  removeExact id operation present
  accept (← ask Call.syncTrash)

/-! ## Finalizer and startup -/

abbrev Finalizer := Prog Call Answer IdempotencyError

/-- Run a part of the store; its errors become the ledger's. -/
def fromStore {α : Type} (p : Store α) : Finalizer α := do
  match ← p.attempt with
  | .ok a => return a
  | .error _ => Prog.stop .database

/-- The record of a tombstone is open, or has succeeded with the response that says so. -/
def ownedBy (id : Uuid) (row : Option RecordView) : Except IdempotencyError Bool :=
  Ledger.owned (Body.deletes id) row

def finalizeEach : List (Uuid × Uuid) → Finalizer Unit
  | [] => pure ()
  | (id, operation) :: rest => do
    let row ← accept (← ask (Call.recordOf id operation))
    if ← accept (ownedBy id row) then
      fromStore (finalizeTombstone id operation)
      finalizeEach rest
    else finalizeEach rest

def finalizeSucceededCredentialTombstones : Finalizer Unit := do
  let tombstones ← fromStore (do accept (← ask Call.tombstones))
  finalizeEach tombstones

/-- `startup_cleanup`: every tombstone must be exact; staging directories and secret
revisions nothing refers to are removed. -/
def startupCleanup : Store Unit := do
  let _ ← accept (← ask Call.tombstones)
  accept (← ask Call.cleanRevisions)

/-- The secret of every credential is loaded, for the redactor. -/
def loadEach : List CredentialMetadata → Store Unit
  | [] => pure ()
  | metadata :: rest => do
    let _ ← accept (← ask (Call.load metadata.id))
    loadEach rest

/-- What `main` does about credentials before it listens. -/
def startup : Finalizer Unit := do
  accept (← ask Call.interruptPending)
  fromStore startupCleanup
  finalizeSucceededCredentialTombstones
  let credentials ← fromStore (do accept (← ask Call.list))
  fromStore (loadEach credentials)

/-! ## Handlers -/

inductive ApiError where
  | internal
  deriving DecidableEq, Repr

structure Response where
  status : Nat
  body : Body
  deriving DecidableEq, Repr

abbrev Handler := Prog Call Answer ApiError

/-- `interrupt_credential`: the operation stays open for a retry under its key. -/
def interruptCredential (a : Attempt) : Handler Response := do
  let _ ← ask (Call.markInterrupted a.query.request.route a.query.key)
  Prog.stop .internal

/-- Record a response; when that fails the operation stays open. -/
def record (a : Attempt) (status : Nat) (body : Body) (errorCode : Option String) :
    Handler Response := do
  match ← ask (Call.finish a.query.request.route a.query.key status body errorCode) with
  | .ok _ => return ⟨status, body⟩
  | .error _ => interruptCredential a

def finishJson (a : Attempt) (status : Nat) (body : Body) : Handler Response :=
  record a status body none

def finishError (a : Attempt) (code : String) (status : Nat) : Handler Response :=
  record a status (.error code "The operation could not be completed" a.query.requestId)
    (some code)

/-- Answer with the credential as it is now. -/
def finishCredential (a : Attempt) (status : Nat) (value : CredentialMetadata) :
    Handler Response := do
  let _ ← ask Call.refresh
  let referencedByApps ← ask (Call.referencedByApps value.id)
  finishJson a status (.credential
    { id := value.id
      registry := value.registry
      username := value.username
      revision := value.revision
      createdAt := value.createdAt
      rotatedAt := value.rotatedAt
      referencedByApps })

/-- `create_credential`, past the claim: the credential's id is the operation's. -/
def createCredential (a : Attempt) (registry username secret : String) : Handler Response := do
  match ← (createStore a.operation a.operation registry username secret).attempt with
  | .ok metadata => finishCredential a 201 metadata
  | .error .contentInvalid => finishError a "CREDENTIAL_INVALID" 422
  | .error .appConflict => finishError a "CREDENTIAL_INVALID" 422
  | .error _ => interruptCredential a

/-- `update_credential`, past the claim. -/
def updateCredential (a : Attempt) (id expected : Uuid) (username : String)
    (secret : Option String) : Handler Response := do
  match ← (updateStore id expected a.operation username secret).attempt with
  | .ok metadata => finishCredential a 200 metadata
  | .error .revisionStale => finishError a "CREDENTIAL_REVISION_STALE" 409
  | .error .contentInvalid => finishError a "CREDENTIAL_INVALID" 422
  | .error .appConflict => finishError a "CREDENTIAL_INVALID" 422
  | .error _ => interruptCredential a

/-- `finalize_credential_or_reconcile`; a failed finalizer is left to the reconciler. -/
def finalizeCredentialOrReconcile {ε : Type} : Prog Call Answer ε Unit := do
  let _ ← finalizeSucceededCredentialTombstones.attempt

/-- The credential is in the trash: record that, and remove what is left. -/
def finishDeleted (a : Attempt) (id : Uuid) : Handler Response := do
  let response ← finishJson a 200 (.deleted id true)
  finalizeCredentialOrReconcile
  return response

/-- The credential is unused and as the request expects it. -/
def moveAway (a : Attempt) (id : Uuid) : Handler Response := do
  match ← (tombstone id a.operation).attempt with
  | .error _ => interruptCredential a
  | .ok _ =>
    let _ ← ask Call.refresh
    finishDeleted a id

/-- `delete_credential`, past the claim. -/
def deleteCredential (a : Attempt) (id expected : Uuid) : Handler Response := do
  match ← ask (Call.exactTombstone id a.operation) with
  | .error _ => interruptCredential a
  | .ok true =>
    let response ← finishDeleted a id
    let _ ← ask Call.refresh
    return response
  | .ok false =>
    match ← ask Call.list with
    | .error _ => interruptCredential a
    | .ok values =>
      match values.find? fun value => value.id == id with
      | none => finishError a "CREDENTIAL_NOT_FOUND" 404
      | some metadata =>
        if metadata.revision ≠ expected then finishError a "CREDENTIAL_REVISION_STALE" 409
        else
          match ← ask (Call.credentialInUse id) with
          | .error code => finishError a code 409
          | .ok true => finishError a "CREDENTIAL_IN_USE" 409
          | .ok false => moveAway a id

end SoloDock.Credentials
