import SoloDock.Apps.Delete

/-!
# What the application handlers act on

`Host` is the ledger, the app directories, the trash, the receipts and the deletion
previews, with three accounts that no program reads: the operations that have changed an
app's desired state, container or registration, those that have published an app or a
draft, and the apps whose deletion has succeeded. `act` is what each call does to it, for
every way the environment may let the call end.

`appService` puts the handlers together: a request is claimed, waits for its locks and is
served, or given up at any call; the reconciler and the replay of a deletion run the
finalizer; a restart interrupts what was pending and runs startup.
-/

namespace SoloDock.Apps

open Lib Mutation Docker
open Deploy (ComposeError DesiredState)

structure Host where
  ledger : AppLedger
  live : List Metadata
  trash : List Tombstone
  receipts : List Receipt
  previews : List Preview
  next : Uuid
  changed : List Uuid
  published : List Uuid
  deleted : List Uuid
  deriving DecidableEq, Repr

/-- How far the move to the trash gets: nothing is written, the metadata is marked, or the
directory is moved with the rest of its contents, durably or not. -/
inductive TombstoneChoice where
  | failed
  | marked (now : Instant)
  | renamed (now : Instant) (rest : FileTree Node) (synced : Bool)
  deriving DecidableEq, Repr

/-- How far a recursive delete gets. -/
inductive RemovalChoice where
  | stopped (order : List Path)
  | removed (synced : Bool)
  deriving DecidableEq, Repr

/-- What the environment decides about a call. -/
abbrev Choice : Call → Type
  | .claim _ => Outcome × Nat
  | .finish _ _ _ _ _ => Outcome
  | .markInterrupted _ _ => Outcome
  | .interruptPending => Outcome
  | .effectMarker _ _ => Bool
  | .markEffectStarted _ _ _ _ => Outcome
  | .markEffectObserved _ _ _ => Outcome
  | .markEffectCompleted _ _ => Outcome
  | .tryApp _ => Bool
  | .tryCompose => Bool
  | .readMetadata _ => Bool
  | .scanSlugs => Option (Uuid → Bool)
  | .createApp _ _ _ => Outcome × Instant
  | .repairAppDurability _ => Outcome
  | .updateDraft _ _ _ _ => Outcome × Bool × Instant
  | .readPendingLink _ => Except StoreError (Option Uuid)
  | .setDesiredState _ _ _ => Outcome × Instant
  | .appDirectoryExists _ => Bool
  | .tombstone _ _ => TombstoneChoice
  | .readTombstoneMetadata _ _ => Bool
  | .tombstones => Bool
  | .syncUnregisteredApp _ => Outcome
  | .removeTombstone _ _ => RemovalChoice
  | .loadConfig _ _ => Except StoreError Unit
  | .normalizeVerified _ => Except String Draft
  | .normalizeDraft _ => Except String Draft
  | .renderPreset _ _ => Except String Draft
  | .validateRegistryCredential _ => Bool
  | .validateStoredBindPlan _ _ => Except String Unit
  | .loadVerified _ _ => Except String Verified
  | .validateRuntimePaths _ => Except String Unit
  | .validateBindPlan _ => Except String Unit
  | .mutationContainer _ _ => Except String (Option ContainerRecord)
  | .observeAgainst _ _ _ => Option ContainerRecord
  | .containerIs _ _ _ => Bool
  | .validateResources _ _ _ => Except (String × Nat) Unit
  | .ensureForApp _ _ => Except String Unit
  | .composeUnready => Option String
  | .composeRun _ _ _ => Bool × Except ComposeError Unit
  | .revalidateBinds _ => Bool
  | .deadlinePassed => Bool
  | .cancelAppStreams _ => Bool
  | .refresh => Option String
  | .publishDeletion _ => Option String × Bool
  | .cleanupInProgress _ => Except IdempotencyError Nat
  | .preview _ _ => Bool
  | .consumePreview _ => Outcome
  | .deletionSnapshot _ _ => Except String DeletionSnapshot
  | .nowUtc => Instant
  | .recordOf _ _ => Bool
  | .succeededDeletions => Bool
  | .receipts => Bool
  | .receiptOf _ => Bool
  | .insertReceipt _ _ => Outcome
  | .markFinalized _ _ => Outcome

namespace Host

/-- Before the first request. -/
def empty : Host := ⟨[], [], [], [], [], 0, [], [], []⟩

/-! ## The ledger -/

/-- What a request mentions counts as seen, so that an identifier drawn later is none of
them. -/
def mentioned : Request → Uuid
  | .create _ => 0
  | .createFromPreset _ _ => 0
  | .updateDraft app expected _ => max (app + 1) ((expected.map (· + 1)).getD 0)
  | .lifecycle app _ => app + 1
  | .delete app _ _ expected _ => max (app + 1) ((expected.map (· + 1)).getD 0)

def claim (w : Host) (q : Query) (o : Outcome) (skip : Nat) :
    Except IdempotencyError (ClaimResult Body) × Host :=
  let fresh := max w.next (mentioned q.request) + skip
  Ledger.answered o w (fun _ ledger => { w with ledger, next := fresh + 1 })
    (w.ledger.claim q.request.route q.key q.request fresh)

/-- The deletion of an app has succeeded when its record says so. -/
def finish (w : Host) (route : Route) (key : String) (status : Nat) (body : Body)
    (errorCode : Option String) : Host :=
  { w with
    ledger := w.ledger.finish route key status body errorCode
    deleted := match route with
      | .app id => if status < 400 then id :: w.deleted else w.deleted
      | _ => w.deleted }

/-- `UPDATE … SET effect_phase='started'`, on a pending row without a phase. -/
def startEffect (containerId startedAt : Option String) (r : AppRecord) : Option AppRecord :=
  if r.status = .pending ∧ r.effect = none then
    some { r with effect := some ⟨.started, containerId, startedAt, none⟩ }
  else none

/-- `UPDATE … SET post_container_id=?`, where the effect started without a container and
none other was noted. -/
def observeEffect (containerId : String) (r : AppRecord) : Option AppRecord :=
  r.effect.bind fun m =>
    if r.status = .pending ∧ m.phase = .started ∧ m.preContainerId = none
        ∧ (m.postContainerId = none ∨ m.postContainerId = some containerId) then
      some { r with effect := some { m with postContainerId := some containerId } }
    else none

/-- `UPDATE … SET effect_phase='completed'`. -/
def completeEffect (r : AppRecord) : Option AppRecord :=
  r.effect.bind fun m =>
    if r.status = .pending ∧ m.phase = .started then
      some { r with effect := some { m with phase := .completed } }
    else none

/-- An update that must change its row: it fails when the row is not as required. -/
def mark (w : Host) (route : Route) (key : String) (f : AppRecord → Option AppRecord)
    (o : Outcome) : Except IdempotencyError Unit × Host :=
  match (w.ledger.find route key).bind f with
  | none => (.error .recordInvalid, w)
  | some _ =>
    (o.result .database,
      if o.applied then
        { w with ledger := w.ledger.update route key fun r => (f r).getD r }
      else w)

/-! ## The app store -/

def metadataOf (w : Host) (app : Uuid) : Option Metadata :=
  w.live.find? fun m => m.id == app

def isLive (w : Host) (app : Uuid) : Bool :=
  w.live.any fun m => m.id == app

/-- Replace the metadata of one app. -/
def edit (w : Host) (app : Uuid) (f : Metadata → Metadata) : Host :=
  { w with live := w.live.map fun m => if m.id = app then { f m with id := app } else m }

/-- The `app.toml` of a new app. -/
def newMetadata (slug : String) (operation : Uuid) (draft : Option Draft) (now : Instant) :
    Metadata :=
  { id := operation
    slug
    discoveryImageRef := draft.map (·.discoveryImageRef)
    credentialRef := draft.bind (·.credentialRef)
    draftRevision := draft.map fun _ => operation
    draftConfigSha256 := draft.map (·.configSha256)
    autoDeployEnabled := (draft.map (·.autoDeployEnabled)).getD false
    displayName := (draft.map (·.displayName)).getD slug
    desiredState := .stopped
    pollIntervalSeconds := (draft.map (·.pollIntervalSeconds)).getD 300
    lastOperationId := operation
    createdAt := now
    updatedAt := now }

/-- `create_app`: the directory is built aside and renamed into place. -/
def createApp (w : Host) (slug : String) (operation : Uuid) (draft : Option Draft) (o : Outcome)
    (now : Instant) : Except StoreError Metadata × Host :=
  let metadata := newMetadata slug operation draft now
  if !o.applied then (.error .io, w)
  else if w.isLive operation then (.error .appConflict, w)
  else
    ((o.result .io).map fun _ => metadata,
      { w with live := metadata :: w.live, published := operation :: w.published })

/-- The metadata after a draft was saved. -/
def withDraft (operation : Uuid) (draft : Draft) (now : Instant) (m : Metadata) : Metadata :=
  { m with
    displayName := draft.displayName
    discoveryImageRef := some draft.discoveryImageRef
    credentialRef := draft.credentialRef
    autoDeployEnabled := draft.autoDeployEnabled
    draftRevision := some operation
    draftConfigSha256 := some draft.configSha256
    pollIntervalSeconds := draft.pollIntervalSeconds
    lastOperationId := operation
    updatedAt := now }

/-- `update_draft` of the store. The revision's directory may be there with other contents. -/
def updateDraft (w : Host) (app : Uuid) (expected : Option Uuid) (operation : Uuid)
    (draft : Draft) (o : Outcome) (conflict : Bool) (now : Instant) :
    Except StoreError Metadata × Host :=
  match w.metadataOf app with
  | none => (.error .notFound, w)
  | some m =>
    if m.draftRevision ≠ expected then (.error .revisionStale, w)
    else if conflict then (.error .configRevisionConflict, w)
    else
      ((o.result .io).map fun _ => withDraft operation draft now m,
        if o.applied then
          { w.edit app (withDraft operation draft now) with published := operation :: w.published }
        else w)

/-- The metadata after `set_desired_state`. -/
def withDesired (desired : DesiredState) (operation : Uuid) (now : Instant) (m : Metadata) :
    Metadata :=
  { m with desiredState := desired, lastOperationId := operation, updatedAt := now }

/-- `set_desired_state`. Storing what was stored is no change. -/
def setDesiredState (w : Host) (app : Uuid) (desired : DesiredState) (operation : Uuid)
    (o : Outcome) (now : Instant) : Except StoreError Metadata × Host :=
  match w.metadataOf app with
  | none => (.error .notFound, w)
  | some m =>
    ((o.result .io).map fun _ => withDesired desired operation now m,
      if o.applied then
        { w.edit app (withDesired desired operation now) with
          changed := if m.desiredState = desired then w.changed else operation :: w.changed }
      else w)

/-- The metadata a deletion leaves in the directory it moves. -/
def withMark (operation : Uuid) (now : Instant) (m : Metadata) : Metadata :=
  { m with lastOperationId := operation, updatedAt := now }

/-- The directory as it is moved: the two files, and whatever else was in it. -/
def tombstoneTree (app operation : Uuid) (metadata : Metadata) (rest : FileTree Node) :
    FileTree Node :=
  ([], .directory) :: (["deletion.toml"], .marker ⟨1, app, operation⟩)
    :: (["app.toml"], .metadata metadata) :: rest

def hasTombstone (w : Host) (app operation : Uuid) : Bool :=
  w.trash.any fun t => t.app == app && t.operation == operation

def tombstone (w : Host) (app operation : Uuid) :
    TombstoneChoice → Except StoreError Unit × Host
  | .failed => (.error .io, w)
  | .marked now => (.error .io, w.edit app (withMark operation now))
  | .renamed now rest synced =>
    match w.metadataOf app with
    | none => (.error .notFound, w)
    | some m =>
      if w.hasTombstone app operation then
        (.error .appConflict, w.edit app (withMark operation now))
      else
        (if synced then .ok () else .error .io,
          { w with
            live := w.live.filter fun m => m.id != app
            trash := ⟨app, operation, tombstoneTree app operation (withMark operation now m) rest⟩
              :: w.trash
            changed := operation :: w.changed })

end Host

/-- `read_tombstone_metadata`: both files are there and name this app and operation. -/
def Tombstone.metadata (t : Tombstone) : Option Metadata :=
  match t.tree.get ["deletion.toml"], t.tree.get ["app.toml"] with
  | some (.marker marker), some (.metadata m) =>
    if marker.schemaVersion = 1 ∧ marker.appId = t.app ∧ marker.operationId = t.operation
        ∧ m.id = t.app ∧ m.lastOperationId = t.operation then some m
    else none
  | _, _ => none

namespace Host

def readTombstoneMetadata (w : Host) (app operation : Uuid) : Except StoreError Metadata :=
  match w.trash.find? fun t => t.app == app && t.operation == operation with
  | none => .error .notFound
  | some t =>
    match t.metadata with
    | some m => .ok m
    | none => .error .contentInvalid

/-- `tombstones`: every directory in the trash must be a readable tombstone. -/
def tombstones (w : Host) : Except StoreError (List (Uuid × Uuid)) :=
  if w.trash.all fun t => t.metadata.isSome then
    .ok (w.trash.map fun t => (t.app, t.operation))
  else .error .contentInvalid

/-- `fs::remove_dir_all` on a tombstone, and the sync of the trash. -/
def removeTombstone (w : Host) (app operation : Uuid) :
    RemovalChoice → Except StoreError Unit × Host
  | .stopped order =>
    (.error .io,
      { w with
        trash := w.trash.filterMap fun t =>
          if t.app = app ∧ t.operation = operation then
            let tree := t.tree.removeAll order
            if tree.isEmpty then none else some { t with tree }
          else some t })
  | .removed synced =>
    (if synced then .ok () else .error .io,
      { w with trash := w.trash.filter fun t => !(t.app == app && t.operation == operation) })

def syncUnregisteredApp (w : Host) (app : Uuid) (o : Outcome) : Except StoreError Unit :=
  if w.isLive app then .error .appConflict else o.result .io

/-! ## The database -/

/-- `SELECT … WHERE route=? AND operation_id=?`. -/
def recordOf (w : Host) (app operation : Uuid) : Option RecordView :=
  w.ledger.view (.app app) operation

/-- The succeeded rows whose route is an app's own. -/
def succeededDeletions (w : Host) : List (Uuid × Uuid × Body) :=
  w.ledger.filterMap fun r =>
    match r.route, r.status, r.response with
    | .app app, .succeeded, some (200, body) => some (app, r.operationId, body)
    | _, _, _ => none

/-- `INSERT … ON CONFLICT(app_id) DO NOTHING`. -/
def insertReceipt (w : Host) (app operation : Uuid) : Host :=
  if w.receipts.any fun r => r.app == app then w
  else { w with receipts := ⟨app, operation, .deletion, false⟩ :: w.receipts }

/-- The receipt that `mark_finalized` updates. -/
def finalizes (app operation : Uuid) (r : Receipt) : Bool :=
  r.app == app && r.operation == operation && r.source == .deletion

def markFinalized (w : Host) (app operation : Uuid) : Host :=
  { w with
    receipts := w.receipts.map fun r =>
      if finalizes app operation r then { r with finalized := true } else r }

/-- `UPDATE deletion_previews SET consumed_at=? WHERE token_hash=? AND consumed_at IS NULL`. -/
def consumePreview (w : Host) (token : String) : Host :=
  { w with
    previews := w.previews.map fun p => if p.token = token then { p with consumed := true } else p }

/-! ## Calls -/

def act (w : Host) : (e : Call) → Choice e → Answer e × Host
  | .claim q, (o, skip) => w.claim q o skip
  | .finish route key status body errorCode, o =>
    (o.result .database, if o.applied then w.finish route key status body errorCode else w)
  | .markInterrupted route key, o =>
    (o.result .database,
      if o.applied then { w with ledger := w.ledger.markInterrupted route key } else w)
  | .interruptPending, o =>
    (o.result .database, if o.applied then { w with ledger := w.ledger.interruptPending } else w)
  | .effectMarker route key, readable =>
    (if readable then .ok ((w.ledger.find route key).bind (·.effect)) else .error .database, w)
  | .markEffectStarted route key containerId startedAt, o =>
    w.mark route key (startEffect containerId startedAt) o
  | .markEffectObserved route key containerId, o => w.mark route key (observeEffect containerId) o
  | .markEffectCompleted route key, o => w.mark route key completeEffect o
  | .tryApp _, free => (free, w)
  | .tryCompose, free => (free, w)
  | .readMetadata app, readable =>
    (if readable then
      match w.metadataOf app with
      | some m => .ok m
      | none => .error .notFound
    else .error .io, w)
  | .scanSlugs, valid =>
    (match valid with
      | some valid => .ok ((w.live.filter fun m => valid m.id).map (·.slug))
      | none => .error .io, w)
  | .createApp slug operation draft, (o, now) => w.createApp slug operation draft o now
  | .repairAppDurability _, o => (o.result .io, w)
  | .updateDraft app expected operation draft, (o, conflict, now) =>
    w.updateDraft app expected operation draft o conflict now
  | .readPendingLink _, answer => (answer, w)
  | .setDesiredState app desired operation, (o, now) =>
    w.setDesiredState app desired operation o now
  | .appDirectoryExists app, visible => (visible && w.isLive app, w)
  | .tombstone app operation, c => w.tombstone app operation c
  | .readTombstoneMetadata app operation, readable =>
    (if readable then w.readTombstoneMetadata app operation else .error .io, w)
  | .tombstones, readable => (if readable then w.tombstones else .error .io, w)
  | .syncUnregisteredApp app, o => (w.syncUnregisteredApp app o, w)
  | .removeTombstone app operation, c => w.removeTombstone app operation c
  | .loadConfig _ _, answer => (answer, w)
  | .normalizeVerified _, answer => (answer, w)
  | .normalizeDraft _, answer => (answer, w)
  | .renderPreset _ _, answer => (answer, w)
  | .validateRegistryCredential _, answer => (answer, w)
  | .validateStoredBindPlan _ _, answer => (answer, w)
  | .loadVerified _ _, answer => (answer, w)
  | .validateRuntimePaths _, answer => (answer, w)
  | .validateBindPlan _, answer => (answer, w)
  | .mutationContainer _ _, answer => (answer, w)
  | .observeAgainst _ _ _, answer => (answer, w)
  | .containerIs _ _ _, answer => (answer, w)
  | .validateResources _ _ _, answer => (answer, w)
  | .ensureForApp _ _, answer => (answer, w)
  | .composeUnready, answer => (answer, w)
  | .composeRun _ _ operation, (changes, answer) =>
    (answer, if changes then { w with changed := operation :: w.changed } else w)
  | .revalidateBinds _, answer => (answer, w)
  | .deadlinePassed, answer => (answer, w)
  | .cancelAppStreams _, answer => (answer, w)
  | .refresh, answer => (answer, w)
  | .publishDeletion _, answer => (answer, w)
  | .cleanupInProgress _, answer => (answer, w)
  | .preview token app, readable =>
    (if readable then .ok (w.previews.find? fun p => p.token == token && p.app == app)
    else .error .database, w)
  | .consumePreview token, o =>
    ((o.result .database).map fun _ =>
      (w.previews.filter fun p => p.token == token && !p.consumed).length,
      if o.applied then w.consumePreview token else w)
  | .deletionSnapshot _ _, answer => (answer, w)
  | .nowUtc, now => (now, w)
  | .recordOf app operation, readable =>
    (if readable then .ok (w.recordOf app operation) else .error .database, w)
  | .succeededDeletions, readable =>
    (if readable then .ok w.succeededDeletions else .error .database, w)
  | .receipts, readable => (if readable then .ok w.receipts else .error .database, w)
  | .receiptOf app, readable =>
    (if readable then .ok (w.receipts.find? fun r => r.app == app) else .error .database, w)
  | .insertReceipt app operation, o =>
    (o.result .database, if o.applied then w.insertReceipt app operation else w)
  | .markFinalized app operation, o =>
    ((o.result .database).map fun _ => (w.receipts.filter (finalizes app operation)).length,
      if o.applied then w.markFinalized app operation else w)

end Host

/-- Every call does what it is for, and finds nothing in Docker. -/
def smooth : (e : Call) → Choice e
  | .claim _ => (.ok, 0)
  | .finish _ _ _ _ _ => .ok
  | .markInterrupted _ _ => .ok
  | .interruptPending => .ok
  | .effectMarker _ _ => true
  | .markEffectStarted _ _ _ _ => .ok
  | .markEffectObserved _ _ _ => .ok
  | .markEffectCompleted _ _ => .ok
  | .tryApp _ => true
  | .tryCompose => true
  | .readMetadata _ => true
  | .scanSlugs => some fun _ => true
  | .createApp _ _ _ => (.ok, 0)
  | .repairAppDurability _ => .ok
  | .updateDraft _ _ _ _ => (.ok, false, 0)
  | .readPendingLink _ => .ok none
  | .setDesiredState _ _ _ => (.ok, 0)
  | .appDirectoryExists _ => true
  | .tombstone _ _ => .renamed 0 [] true
  | .readTombstoneMetadata _ _ => true
  | .tombstones => true
  | .syncUnregisteredApp _ => .ok
  | .removeTombstone _ _ => .removed true
  | .loadConfig _ _ => .ok ()
  | .normalizeVerified _ => .ok ⟨"app", "docker.io/library/app:latest", none, false, 300, "0"⟩
  | .normalizeDraft _ => .ok ⟨"app", "docker.io/library/app:latest", none, false, 300, "0"⟩
  | .renderPreset _ _ => .ok ⟨"app", "docker.io/library/app:latest", none, false, 300, "0"⟩
  | .validateRegistryCredential _ => true
  | .validateStoredBindPlan _ _ => .ok ()
  | .loadVerified _ _ => .ok ⟨0, none, none, "app", false, []⟩
  | .validateRuntimePaths _ => .ok ()
  | .validateBindPlan _ => .ok ()
  | .mutationContainer _ _ => .ok none
  | .observeAgainst _ _ _ => none
  | .containerIs _ _ _ => true
  | .validateResources _ _ _ => .ok ()
  | .ensureForApp _ _ => .ok ()
  | .composeUnready => none
  | .composeRun _ _ _ => (true, .ok ())
  | .revalidateBinds _ => true
  | .deadlinePassed => false
  | .cancelAppStreams _ => true
  | .refresh => none
  | .publishDeletion _ => (none, true)
  | .cleanupInProgress _ => .ok 0
  | .preview _ _ => true
  | .consumePreview _ => .ok
  | .deletionSnapshot app removeContainer =>
    .ok ⟨⟨app, "app", none, "solodock-app", none, none, none, none, removeContainer, [], [], [],
      !removeContainer, false⟩, none⟩
  | .nowUtc => 0
  | .recordOf _ _ => true
  | .succeededDeletions => true
  | .receipts => true
  | .receiptOf _ => true
  | .insertReceipt _ _ => .ok
  | .markFinalized _ _ => .ok

/-! ## The service -/

/-- A request of a client, or the reconciler's next round. -/
inductive Arrival where
  | request (query : Query)
  | reconcile
  deriving DecidableEq, Repr

/-- What waits for its locks. -/
inductive Task where
  | attempt (a : Attempt)
  | replayed (app operation : Uuid)
  | reconcile
  deriving DecidableEq, Repr

/-- Changes made by others: finished records are collected, previews come and go, a
deployment writes an app's metadata. -/
inductive Change where
  | collect (picked : List Uuid)
  | previews (value : List Preview)
  | edit (metadata : Metadata)
  deriving DecidableEq, Repr

def receive : Arrival → Prog Call Answer Empty (Option Task)
  | .reconcile => return some .reconcile
  | .request q => do
    match ← Prog.ask (Call.claim q) with
    | .ok (.new operation) => return some (.attempt ⟨q, operation, false⟩)
    | .ok (.resume operation) => return some (.attempt ⟨q, operation, true⟩)
    | .ok (.replay operation _ _) =>
      match q.request with
      | .delete app _ _ _ _ => return some (.replayed app operation)
      | _ => return none
    | .error _ => return none

def handle (a : Attempt) : Handler Response :=
  match a.query.request with
  | .create slug => create a slug
  | .createFromPreset slug preset => createFromPreset a slug preset
  | .updateDraft app expected draft => updateDraft a app expected draft
  | .lifecycle app action => lifecycle a app action
  | .delete app token slug expected remove => deleteApp a ⟨app, token, slug, expected, remove⟩

/-- The reconciler finalizes when every tombstone is in order. -/
def reconcile : Finalizer Unit := do
  let _ ← succeededAppTombstones
  finalizeSucceededTombstones

/-- Run a program for what it does. -/
def discard {ε α : Type} (p : Prog Call Answer ε α) : Prog Call Answer Empty Unit := do
  let _ ← p.attempt
  return ()

def serve : Task → Prog Call Answer Empty Unit
  | .attempt a => discard (handle a)
  | .replayed app operation => discard (replayDeletion app operation)
  | .reconcile => discard reconcile

namespace Host

/-- The operations whose finished records must stay: a tombstone or a receipt that is not
finalized needs them. -/
def protects (w : Host) (r : AppRecord) : Bool :=
  w.trash.any (fun t => t.operation == r.operationId)
    || w.receipts.any fun receipt => receipt.operation == r.operationId && !receipt.finalized

def change (w : Host) : Change → Host
  | .collect picked =>
    -- An inventory that cannot be read collects nothing.
    match w.tombstones with
    | .ok _ => { w with ledger := w.ledger.collect w.protects fun op => picked.contains op }
    | .error _ => w
  | .previews value => { w with previews := value }
  | .edit metadata => w.edit metadata.id fun _ => metadata

end Host

abbrev appWorld : World Call Answer Host where
  Choice := Choice
  act := Host.act

def appService : Service Call Answer Host Arrival Task Change where
  world := appWorld
  receive
  serve
  boot := discard startup
  change := Host.change

/-! ## A sample history

The first app is created and a preview of its deletion is made; what goes wrong after that
is for the modules that need it. -/

def calm : appWorld.Script := fun _ e => smooth e

def sampleCreate : Query := ⟨"create-0000000001", .create "app", "session", 1⟩

def samplePreview : Preview :=
  { token := "token"
    app := 0
    session := "session"
    slug := "app"
    revision := none
    facts := ⟨0, "app", none, "solodock-app", none, none, none, none, false, [], [], [],
      true, false⟩
    removeContainer := false
    containerIds := []
    expiresAt := 1
    consumed := false }

/-- The deletion of the first app, from some session. -/
def sampleDelete (session : String) : Query :=
  ⟨"delete-0000000001", .delete 0 "token" "app" none false, session, 2⟩

/-- The first app is there, and its deletion is claimed. -/
def sampleHistory : List appService.Step :=
  [.receive (.request sampleCreate) calm, .serve 0 calm, .change (.previews [samplePreview]),
    .receive (.request (sampleDelete "session")) calm]

end SoloDock.Apps
